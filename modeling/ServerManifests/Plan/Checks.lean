import ServerManifests.Failure
import ServerManifests.Plan.Names

/-!
What must hold before anything is rendered: names that are DNS labels, an image,
bounds on replicas and ports, and an ingress and stores that can work. Of several
violations the first one is the failure.
-/
namespace ServerManifests.Plan

open ServerManifests.Configuration

def maxReleaseNameLength : Nat := 53

def maxNamespaceLength : Nat := 63

def isLabelEnd (c : Char) : Bool := c.isLower || c.isDigit

def isLabelChar (c : Char) : Bool := isLabelEnd c || c = '-'

def checkLabel (field value : String) (limit : Nat) : Except Failure Unit := do
  require (!value.isEmpty) (.missingField field)
  require (value.utf8ByteSize ≤ limit) (.invalid (.labelTooLong field value limit))
  let cs := value.toList
  require (cs.all isLabelChar) (.invalid (.labelCharacters field value))
  require (cs.head?.any isLabelEnd && cs.getLast?.any isLabelEnd)
    (.invalid (.labelEnds field value))

def checkRelease (release : Release) : Except Failure Unit := do
  checkLabel "release.name" release.name maxReleaseNameLength
  checkLabel "release.namespace" release.targetNamespace maxNamespaceLength

def checkImage (image : Image) : Except Failure Unit :=
  require (image.repository.any (!Text.isBlank ·)) (.missingField "image.repository")

def cpuTarget : String := "autoscaling.targetCPUUtilizationPercentage"

def memoryTarget : String := "autoscaling.targetMemoryUtilizationPercentage"

def checkTarget (field : String) (target : Option Int32) : Except Failure Unit :=
  require (target.all (0 ≤ ·)) (.invalid (.negativeTarget field))

def checkAutoscaling (autoscaling : Autoscaling) : Except Failure Unit := do
  require (Violation.minReplicas ≤ autoscaling.minReplicas)
    (.invalid (.tooLowMinimum autoscaling.minReplicas))
  require (autoscaling.minReplicas ≤ autoscaling.maxReplicas)
    (.invalid (.maximumBelowMinimum autoscaling.maxReplicas autoscaling.minReplicas))
  checkTarget cpuTarget autoscaling.targetCpu
  checkTarget memoryTarget autoscaling.targetMemory
  require (autoscaling.targetCpu.any (0 < ·) || autoscaling.targetMemory.any (0 < ·))
    (.invalid .noTarget)

def checkReplicas (config : Configuration) : Except Failure Unit := do
  require (Violation.minReplicas ≤ config.replicaCount)
    (.invalid (.tooFewReplicas config.replicaCount))
  if config.autoscaling.enabled then checkAutoscaling config.autoscaling

def checkService (service : Service) : Except Failure Unit :=
  require (1 ≤ service.port && service.port ≤ Violation.maxPort)
    (.invalid (.portOutOfRange service.port))

def checkIngress (ingress : Ingress) : Except Failure Unit :=
  if ingress.enabled then do
    require (ingress.path.toList.head? = some '/') (.invalid (.relativePath ingress.path))
    match ingress.host with
    | none => return
    | some host => require (!host.toList.contains '/') (.invalid (.hostWithSlash host))
  else return

/-- A store of another kind needs the class that implements it. -/
def checkStore (field : String) (store : SecretsStore) : Except Failure Unit :=
  require (!(store.enabled && store.backend = .custom) || store.classPath.any (!Text.isBlank ·))
    (.missingField (field ++ ".classPath"))

def checkConfiguration (config : Configuration) : Except Failure Unit := do
  checkImage config.image
  checkReplicas config
  checkService config.service
  checkIngress config.ingress
  checkStore "secretsStore" config.secretsStore
  checkStore "backupSecretsStore" config.backupSecretsStore

end ServerManifests.Plan
