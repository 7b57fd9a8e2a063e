import ServerManifests.Codec.Basic
import ServerManifests.Codec.Error
import ServerManifests.Codec.Record
import ServerManifests.CommandLine.Arguments
import ServerManifests.CommandLine.FileSystem
import ServerManifests.CommandLine.FileTree
import ServerManifests.CommandLine.Outcome
import ServerManifests.Configuration.Basic
import ServerManifests.Configuration.Fields
import ServerManifests.Decimal.Binary64
import ServerManifests.Decimal.Notation
import ServerManifests.Decimal.Shortest
import ServerManifests.Environment.Compose
import ServerManifests.Environment.Flags
import ServerManifests.Environment.List
import ServerManifests.Environment.Source
import ServerManifests.Failure
import ServerManifests.Json.Basic
import ServerManifests.Json.Printer
import ServerManifests.Kubernetes.Pod
import ServerManifests.Kubernetes.Shape
import ServerManifests.Main
import ServerManifests.Manifest.Bundle
import ServerManifests.Manifest.Credentials
import ServerManifests.Manifest.Metadata
import ServerManifests.Manifest.Network
import ServerManifests.Manifest.Scaling
import ServerManifests.Manifest.Workload
import ServerManifests.Plan.Basic
import ServerManifests.Plan.Checks
import ServerManifests.Plan.Names
import ServerManifests.Plan.Violation
import ServerManifests.Proofs.Codec.Assignment
import ServerManifests.Proofs.Codec.Json
import ServerManifests.Proofs.Codec.Lens
import ServerManifests.Proofs.Codec.Order
import ServerManifests.Proofs.Codec.Reading
import ServerManifests.Proofs.Codec.Rereading
import ServerManifests.Proofs.CommandLine.Agreement
import ServerManifests.Proofs.Configuration.Blocks
import ServerManifests.Proofs.Configuration.Fields
import ServerManifests.Proofs.Configuration.Order
import ServerManifests.Proofs.Configuration.Rereading
import ServerManifests.Proofs.Decimal.Notation
import ServerManifests.Proofs.Environment.Composition
import ServerManifests.Proofs.Environment.Faults
import ServerManifests.Proofs.Environment.History
import ServerManifests.Proofs.Environment.Precedence
import ServerManifests.Proofs.Environment.Settings
import ServerManifests.Proofs.Environment.UserVariables
import ServerManifests.Proofs.Json.Path
import ServerManifests.Proofs.Kubernetes.Fits
import ServerManifests.Proofs.Manifest.Credentials
import ServerManifests.Proofs.Plan.Collision
import ServerManifests.Proofs.Plan.Labels
import ServerManifests.Proofs.Plan.Names
import ServerManifests.Proofs.Plan.Requirements
import ServerManifests.Proofs.Plan.Truncation
import ServerManifests.Proofs.Render.Acceptance
import ServerManifests.Proofs.Render.Access
import ServerManifests.Proofs.Render.Checksum
import ServerManifests.Proofs.Render.Confidentiality
import ServerManifests.Proofs.Render.Database
import ServerManifests.Proofs.Render.Host
import ServerManifests.Proofs.Render.Inactivity
import ServerManifests.Proofs.Render.Outcome
import ServerManifests.Proofs.Render.References
import ServerManifests.Proofs.Render.Scaling
import ServerManifests.Proofs.Render.Stream
import ServerManifests.Proofs.Success
import ServerManifests.Proofs.Text.Bytes
import ServerManifests.Proofs.TextMap
import ServerManifests.Proofs.Values.Atomicity
import ServerManifests.Proofs.Values.Commutation
import ServerManifests.Proofs.Values.Defaults
import ServerManifests.Proofs.Values.Layers
import ServerManifests.Proofs.Values.Mention
import ServerManifests.Proofs.Values.Merge
import ServerManifests.Proofs.Values.Null
import ServerManifests.Proofs.Values.NumberSetting
import ServerManifests.Proofs.Values.Order
import ServerManifests.Proofs.Values.Override
import ServerManifests.Proofs.Values.OverrideDocument
import ServerManifests.Proofs.Values.Path
import ServerManifests.Proofs.Values.Pointwise
import ServerManifests.Proofs.Values.Repetition
import ServerManifests.Proofs.Values.Reset
import ServerManifests.Proofs.Values.Settable
import ServerManifests.Proofs.Values.Spelling
import ServerManifests.Proofs.Values.TextField
import ServerManifests.Proofs.Values.TextOverride
import ServerManifests.Proofs.Values.Variables
import ServerManifests.Proofs.Values.Walk
import ServerManifests.Proofs.Yaml.Document
import ServerManifests.Proofs.Yaml.Entries
import ServerManifests.Proofs.Yaml.Lines
import ServerManifests.Proofs.Yaml.Names
import ServerManifests.Proofs.Yaml.Printer
import ServerManifests.Proofs.Yaml.Similar
import ServerManifests.Proofs.Yaml.Tree
import ServerManifests.Render
import ServerManifests.Sha256
import ServerManifests.Text.Blank
import ServerManifests.Text.Quoted
import ServerManifests.TextMap
import ServerManifests.Values.Layers
import ServerManifests.Values.Override
import ServerManifests.Yaml.Document
import ServerManifests.Yaml.Node
import ServerManifests.Yaml.Position
import ServerManifests.Yaml.Printer
import ServerManifests.Yaml.Scalar
import ServerManifests.Yaml.Style
import ServerManifests.Yaml.Token.Property
import ServerManifests.Yaml.Token.Scalar
import ServerManifests.Yaml.Token.Scan
import ServerManifests.Yaml.Value
