import ServerManifests.Json.Basic
import ServerManifests.Text.Blank

/-!
The configuration of a server deployment. Every part has defaults, so the empty
configuration describes a working server with a single replica.
-/
namespace ServerManifests

namespace Configuration

/-- How users authenticate with the server. -/
inductive AuthScheme where
  | noAuth
  | httpBasic
  | oauth2PasswordBearer
  | external
  deriving DecidableEq, Repr

/-- How the server backs up its database before it migrates it. -/
inductive BackupStrategy where
  | disabled
  | inMemory
  | database
  | dumpFile
  deriving DecidableEq, Repr

inductive StoreBackend where
  | sql
  | aws
  | gcp
  | azure
  | hashicorp
  | custom
  deriving DecidableEq, Repr

/-- How the service is reached. -/
inductive Exposure where
  | clusterIP
  | nodePort
  | loadBalancer
  deriving DecidableEq, Repr

def AuthScheme.label : AuthScheme → String
  | .noAuth => "NO_AUTH"
  | .httpBasic => "HTTP_BASIC"
  | .oauth2PasswordBearer => "OAUTH2_PASSWORD_BEARER"
  | .external => "EXTERNAL"

def BackupStrategy.label : BackupStrategy → String
  | .disabled => "disabled"
  | .inMemory => "in-memory"
  | .database => "database"
  | .dumpFile => "dump-file"

def StoreBackend.label : StoreBackend → String
  | .sql => "sql"
  | .aws => "aws"
  | .gcp => "gcp"
  | .azure => "azure"
  | .hashicorp => "hashicorp"
  | .custom => "custom"

def Exposure.label : Exposure → String
  | .clusterIP => "ClusterIP"
  | .nodePort => "NodePort"
  | .loadBalancer => "LoadBalancer"

structure Image where
  repository : Option String := some "zenmldocker/zenml-server"
  tag : Option String := none
  pullPolicy : String := "Always"

structure Autoscaling where
  enabled : Bool := false
  minReplicas : Int32 := 1
  maxReplicas : Int32 := 100
  targetCpu : Option Int32 := some 80
  targetMemory : Option Int32 := none

structure Database where
  url : Option String := none
  password : Option String := none
  sslCa : Option String := none
  sslVerifyServerCert : Option Bool := none
  poolSize : Option UInt32 := none
  maxOverflow : Option UInt32 := none
  backupStrategy : Option BackupStrategy := none
  backupDatabase : Option String := none

/-- An external database is in use when there is a url that is not blank. -/
def Database.isManaged (database : Database) : Bool := database.url.any (!Text.isBlank ·)

structure SecretsStore where
  enabled : Bool := false
  backend : StoreBackend := .sql
  authMethod : Option String := none
  classPath : Option String := none
  settings : TextMap Setting := {}

structure IngressTls where
  enabled : Bool := false
  secretName : String := "zenml-tls-certs"

structure Ingress where
  enabled : Bool := false
  className : Option String := none
  annotations : TextMap String := {}
  host : Option String := none
  path : String := "/"
  tls : IngressTls := {}

structure Service where
  exposure : Exposure := .clusterIP
  port : Int32 := 80

structure ServiceAccount where
  create : Bool := true
  name : Option String := none
  annotations : TextMap String := {}

end Configuration

open ServerManifests.Configuration

/-- The blocks of the pod description are JSON trees of the shape of their type. -/
structure Configuration where
  nameOverride : Option String := none
  fullnameOverride : Option String := none
  image : Image := {}
  imagePullSecrets : List Json := []
  replicaCount : Int32 := 1
  autoscaling : Autoscaling := {}
  debug : Bool := false
  analyticsOptIn : Bool := true
  defaultProjectName : String := "default"
  defaultUsername : String := "default"
  enableImplicitAuthMethods : Bool := false
  authScheme : Option AuthScheme := none
  jwtSecretKey : Option String := none
  serverUrl : Option String := none
  deploymentType : Option String := none
  database : Database := {}
  secretsStore : SecretsStore := { enabled := true }
  backupSecretsStore : SecretsStore := {}
  environment : TextMap String := {}
  ingress : Ingress := {}
  service : Service := {}
  serviceAccount : ServiceAccount := {}
  podAnnotations : TextMap String := {}
  podSecurityContext : Option Json := none
  securityContext : Option Json := none
  resources : Option Json := none
  nodeSelector : TextMap String := {}
  tolerations : List Json := []
  affinity : Option Json := none

end ServerManifests
