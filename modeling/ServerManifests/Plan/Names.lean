import ServerManifests.Configuration.Basic

/-!
The identity of one installation, and the names of its resources. A name is cut to the
length of a DNS label and does not end with a dash.
-/
namespace ServerManifests

/-- What the caller gives of an installation and the values do not. -/
structure Release where
  name : String := "zenml"
  targetNamespace : String := "default"
  chartName : String := "zenml"
  chartVersion : String := "0.1.0"
  appVersion : String := "0.58.0"
  deriving DecidableEq, Repr

/-- Chart and version as a label may hold them, which have no plus sign. -/
def Release.chartLabel (release : Release) : String :=
  (release.chartName ++ "-" ++ release.chartVersion).map fun c => if c = '+' then '_' else c

namespace Plan

def maxNameLength : Nat := 63

def truncateName (name : String) : String :=
  String.ofList (Text.dropEndWhile (· = '-') (name.toList.take maxNameLength))

/-- A text that is set and not empty. -/
def nonEmpty (text : Option String) : Option String := text.filter (!·.isEmpty)

def hasInfix (part : List Char) : List Char → Bool
  | [] => part.isEmpty
  | c :: rest => part.isPrefixOf (c :: rest) || hasInfix part rest

/-- The name of the application before it is cut. -/
def baseName (config : Configuration) (release : Release) : String :=
  (nonEmpty config.nameOverride).getD release.chartName

def appName (config : Configuration) (release : Release) : String :=
  truncateName (baseName config release)

/-- The given full name; else the release name, with the application name after
it unless it is part of it. -/
def fullname (config : Configuration) (release : Release) : String :=
  match nonEmpty config.fullnameOverride with
  | some name => truncateName name
  | none =>
    let base := baseName config release
    if hasInfix base.toList release.name.toList then truncateName release.name
    else truncateName (release.name ++ "-" ++ base)

def serviceAccountName (config : Configuration) (fullname : String) : String :=
  match nonEmpty config.serviceAccount.name with
  | some name => name
  | none => if config.serviceAccount.create then fullname else "default"

structure Names where
  name : String
  fullname : String
  serviceAccount : String
  deriving DecidableEq, Repr

def Names.of (config : Configuration) (release : Release) : Names :=
  let full := Plan.fullname config release
  ⟨appName config release, full, serviceAccountName config full⟩

end Plan

end ServerManifests
