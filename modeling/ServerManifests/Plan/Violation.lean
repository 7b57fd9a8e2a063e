/-!
Values that are present but cannot be used: the field and what is wrong with it.
-/
namespace ServerManifests.Plan

inductive Violation where
  | noMapping
  | labelTooLong (field value : String) (limit : Nat)
  | labelCharacters (field value : String)
  | labelEnds (field value : String)
  | tooFewReplicas (count : Int32)
  | tooLowMinimum (count : Int32)
  | maximumBelowMinimum (maximum minimum : Int32)
  | negativeTarget (field : String)
  | noTarget
  | portOutOfRange (port : Int32)
  | relativePath (path : String)
  | hostWithSlash (host : String)
  deriving DecidableEq, Repr

namespace Violation

def minReplicas : Int32 := 1

def maxPort : Int32 := 65535

def field : Violation → String
  | .noMapping => "values"
  | .labelTooLong field _ _ => field
  | .labelCharacters field _ => field
  | .labelEnds field _ => field
  | .tooFewReplicas _ => "replicaCount"
  | .tooLowMinimum _ => "autoscaling.minReplicas"
  | .maximumBelowMinimum _ _ => "autoscaling.maxReplicas"
  | .negativeTarget field => field
  | .noTarget => "autoscaling"
  | .portOutOfRange _ => "service.port"
  | .relativePath _ => "ingress.path"
  | .hostWithSlash _ => "ingress.host"

def number (n : Int32) : String := toString n.toInt

def reason : Violation → String
  | .noMapping => "values document must be a mapping"
  | .labelTooLong _ value limit =>
    "'" ++ value ++ "' is longer than " ++ toString limit ++ " characters"
  | .labelCharacters _ value =>
    "'" ++ value ++ "' may only contain lowercase letters, digits and '-'"
  | .labelEnds _ value => "'" ++ value ++ "' must start and end with a letter or digit"
  | .tooFewReplicas count =>
    "replica count " ++ number count ++ " is below minimum " ++ number minReplicas
  | .tooLowMinimum count =>
    "minimum replicas " ++ number count ++ " is below " ++ number minReplicas
  | .maximumBelowMinimum maximum minimum =>
    "maximum replicas " ++ number maximum ++ " is below minimum " ++ number minimum
  | .negativeTarget _ => "utilization target must not be negative"
  | .noTarget => "at least one utilization target must be set"
  | .portOutOfRange port => "port " ++ number port ++ " is outside 1-" ++ number maxPort
  | .relativePath path => "path '" ++ path ++ "' must start with '/'"
  | .hostWithSlash host => "host '" ++ host ++ "' must be a bare host name"

end Violation

end ServerManifests.Plan
