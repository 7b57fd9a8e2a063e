import ServerManifests.Codec.Record
import ServerManifests.Configuration.Basic
import ServerManifests.Kubernetes.Pod

/-!
The written form of configurations: the names of all fields with their codecs, in the order
in which they are written, and the JSON schema that describes it. The schema only names the
blocks of the pod description.
-/
namespace ServerManifests.Configuration

open Kubernetes Yaml

def authSchemes : Choice AuthScheme where
  name := "AuthType"
  description := "Server authentication scheme."
  members := [.noAuth, .httpBasic, .oauth2PasswordBearer, .external]
  label := AuthScheme.label

def backupStrategies : Choice BackupStrategy where
  name := "BackupStrategy"
  description := "Database backup strategy."
  members := [.disabled, .inMemory, .database, .dumpFile]
  label := BackupStrategy.label

def storeBackends : Choice StoreBackend where
  name := "SecretsStoreType"
  description := "Secrets store backend."
  members := [.sql, .aws, .gcp, .azure, .hashicorp, .custom]
  label := StoreBackend.label

def exposures : Choice Exposure where
  name := "ServiceType"
  description := "Service exposure type."
  members := [.clusterIP, .nodePort, .loadBalancer]
  label := Exposure.label

def Image.record : Record Image where
  name := "ImageSpec"
  description := "Container image settings."
  initial := {}
  fields := [
    .required "repository" "Image repository. An empty repository fails the render."
      (.option .text) (·.repository) fun x r => { r with repository := x },
    .optional "tag" "Image tag (default: the release app version)."
      .scalar (·.tag) fun x r => { r with tag := x },
    .required "pullPolicy" "Image pull policy (default: Always)."
      .text (·.pullPolicy) fun x r => { r with pullPolicy := x }]

def Autoscaling.record : Record Autoscaling where
  name := "AutoscalingSpec"
  description := "Horizontal pod autoscaler settings."
  initial := {}
  fields := [
    .required "enabled" "Let an autoscaler own the replica count."
      .bool (·.enabled) fun x r => { r with enabled := x },
    .required "minReplicas" "Lower replica bound (default: 1)."
      .int32 (·.minReplicas) fun x r => { r with minReplicas := x },
    .required "maxReplicas" "Upper replica bound (default: 100)."
      .int32 (·.maxReplicas) fun x r => { r with maxReplicas := x },
    .optional "targetCPUUtilizationPercentage"
      "Average CPU utilization target (default: 80). `0` drops the metric."
      .int32 (·.targetCpu) fun x r => { r with targetCpu := x },
    .optional "targetMemoryUtilizationPercentage"
      "Average memory utilization target. Unset or `0` drops the metric."
      .int32 (·.targetMemory) fun x r => { r with targetMemory := x }]

def Database.record : Record Database where
  name := "DatabaseSpec"
  description :=
    "External SQL database. Setting `url` switches the server into managed-database mode."
  initial := {}
  fields := [
    .optional "url" "SQLAlchemy-style database URL."
      .text (·.url) fun x r => { r with url := x },
    .optional "password" "Database password, if not embedded in the URL."
      .scalar (·.password) fun x r => { r with password := x },
    .optional "sslCa" "PEM-encoded CA certificate for the database connection."
      .text (·.sslCa) fun x r => { r with sslCa := x },
    .optional "sslVerifyServerCert" "Verify the database server certificate (default: false)."
      .bool (·.sslVerifyServerCert) fun x r => { r with sslVerifyServerCert := x },
    .optional "poolSize" "SQLAlchemy connection pool size."
      .uint32 (·.poolSize) fun x r => { r with poolSize := x },
    .optional "maxOverflow" "SQLAlchemy pool overflow."
      .uint32 (·.maxOverflow) fun x r => { r with maxOverflow := x },
    .optional "backupStrategy" "How the server backs up the database before migrating."
      backupStrategies.codec (·.backupStrategy) fun x r => { r with backupStrategy := x },
    .optional "backupDatabase" "Database used by the `database` backup strategy."
      .scalar (·.backupDatabase) fun x r => { r with backupDatabase := x }]

def SecretsStore.record : Record SecretsStore where
  name := "SecretsStoreSpec"
  description := "Secrets store configuration.\n\n`settings` is an externally resolved mapping of " ++
    "environment variable names to scalar values. It is forwarded as-is."
  initial := {}
  fields := [
    .required "enabled" "Configure this store."
      .bool (·.enabled) fun x r => { r with enabled := x },
    .required "type" "Backend type (default: sql)."
      storeBackends.codec (·.backend) fun x r => { r with backend := x },
    .optional "authMethod" "Authentication method understood by the backend."
      .text (·.authMethod) fun x r => { r with authMethod := x },
    .optional "classPath" "Import path of a custom secrets store class. Required for `custom`."
      .text (·.classPath) fun x r => { r with classPath := x },
    .required "settings" "Pre-resolved backend settings."
      .settings (·.settings) fun x r => { r with settings := x }]

def IngressTls.record : Record IngressTls where
  name := "IngressTlsSpec"
  description := "Ingress TLS settings."
  initial := {}
  fields := [
    .required "enabled" "Terminate TLS at the ingress."
      .bool (·.enabled) fun x r => { r with enabled := x },
    .required "secretName" "Secret holding the certificate (default: zenml-tls-certs)."
      .text (·.secretName) fun x r => { r with secretName := x }]

def Ingress.record : Record Ingress where
  name := "IngressSpec"
  description := "Ingress configuration."
  initial := {}
  fields := [
    .required "enabled" "Create an Ingress."
      .bool (·.enabled) fun x r => { r with enabled := x },
    .optional "className" "IngressClass name."
      .text (·.className) fun x r => { r with className := x },
    .required "annotations" "Annotations for the Ingress."
      .textMap (·.annotations) fun x r => { r with annotations := x },
    .optional "host" "Host name routed to the server."
      .text (·.host) fun x r => { r with host := x },
    .required "path" "Path prefix routed to the server (default: /)."
      .text (·.path) fun x r => { r with path := x },
    .required "tls" "TLS settings."
      IngressTls.record.codec (·.tls) fun x r => { r with tls := x }]

def Service.record : Record Service where
  name := "ServiceSpec"
  description := "Service configuration."
  initial := {}
  fields := [
    .required "type" "Exposure type (default: ClusterIP)."
      exposures.codec (·.exposure) fun x r => { r with exposure := x },
    .required "port" "Service port (default: 80)."
      .int32 (·.port) fun x r => { r with port := x }]

def ServiceAccount.record : Record ServiceAccount where
  name := "ServiceAccountSpec"
  description := "Service account configuration."
  initial := {}
  fields := [
    .required "create" "Create a dedicated service account (default: true)."
      .bool (·.create) fun x r => { r with create := x },
    .optional "name" "Name of the service account. Generated from the full name when unset."
      .text (·.name) fun x r => { r with name := x },
    .required "annotations" "Annotations for the service account."
      .textMap (·.annotations) fun x r => { r with annotations := x }]

def record : Record Configuration where
  name := "Configuration"
  description := "Root of the values tree."
  initial := {}
  fields := [
    .optional "nameOverride" "Replaces the chart name in generated resource names."
      .text (·.nameOverride) fun x r => { r with nameOverride := x },
    .optional "fullnameOverride" "Replaces the full generated resource name."
      .text (·.fullnameOverride) fun x r => { r with fullnameOverride := x },
    .required "image" "Server container image."
      Image.record.codec (·.image) fun x r => { r with image := x },
    .required "imagePullSecrets" "Secrets used to pull the server image."
      (.list Shape.localObjectReference.codec) (·.imagePullSecrets)
      fun x r => { r with imagePullSecrets := x },
    .required "replicaCount"
      "Replica count, honoured only when an external database is configured."
      .int32 (·.replicaCount) fun x r => { r with replicaCount := x },
    .required "autoscaling" "Horizontal pod autoscaler settings."
      Autoscaling.record.codec (·.autoscaling) fun x r => { r with autoscaling := x },
    .required "debug" "Enable debug logging on the server."
      .bool (·.debug) fun x r => { r with debug := x },
    .required "analyticsOptIn" "Opt in to anonymous usage analytics."
      .bool (·.analyticsOptIn) fun x r => { r with analyticsOptIn := x },
    .required "defaultProjectName" "Name of the project created on first start."
      .scalar (·.defaultProjectName) fun x r => { r with defaultProjectName := x },
    .required "defaultUsername" "Name of the user created on first start."
      .scalar (·.defaultUsername) fun x r => { r with defaultUsername := x },
    .required "enableImplicitAuthMethods"
      "Allow stack components to authenticate with ambient cloud credentials."
      .bool (·.enableImplicitAuthMethods) fun x r => { r with enableImplicitAuthMethods := x },
    .optional "authType"
      "Server authentication scheme. The image default applies when unset."
      authSchemes.codec (·.authScheme) fun x r => { r with authScheme := x },
    .optional "jwtSecretKey" "Key used to sign JWT tokens. Stored in the server Secret."
      .scalar (·.jwtSecretKey) fun x r => { r with jwtSecretKey := x },
    .optional "serverUrl" "Externally reachable server URL."
      .text (·.serverUrl) fun x r => { r with serverUrl := x },
    .optional "deploymentType" "Deployment type reported by the server."
      .scalar (·.deploymentType) fun x r => { r with deploymentType := x },
    .required "database" "External SQL database."
      Database.record.codec (·.database) fun x r => { r with database := x },
    .required "secretsStore" "Primary secrets store."
      SecretsStore.record.codec (·.secretsStore) fun x r => { r with secretsStore := x },
    .required "backupSecretsStore" "Backup secrets store."
      SecretsStore.record.codec (·.backupSecretsStore)
      fun x r => { r with backupSecretsStore := x },
    .required "environment"
      "Free-form environment variables. These win over every computed value."
      .textMap (·.environment) fun x r => { r with environment := x },
    .required "ingress" "Ingress configuration."
      Ingress.record.codec (·.ingress) fun x r => { r with ingress := x },
    .required "service" "Service configuration."
      Service.record.codec (·.service) fun x r => { r with service := x },
    .required "serviceAccount" "Service account configuration."
      ServiceAccount.record.codec (·.serviceAccount) fun x r => { r with serviceAccount := x },
    .required "podAnnotations" "Extra annotations for the pod template."
      .textMap (·.podAnnotations) fun x r => { r with podAnnotations := x },
    .optional "podSecurityContext" "Pod-level security context."
      Shape.podSecurityContext.codec (·.podSecurityContext)
      fun x r => { r with podSecurityContext := x },
    .optional "securityContext" "Container-level security context."
      Shape.securityContext.codec (·.securityContext) fun x r => { r with securityContext := x },
    .optional "resources" "Container resource requests and limits."
      Shape.resourceRequirements.codec (·.resources) fun x r => { r with resources := x },
    .required "nodeSelector" "Node selector for pod placement."
      .textMap (·.nodeSelector) fun x r => { r with nodeSelector := x },
    .required "tolerations" "Tolerations for pod scheduling."
      (.list Shape.toleration.codec) (·.tolerations) fun x r => { r with tolerations := x },
    .optional "affinity" "Affinity rules for pod scheduling."
      Shape.affinity.codec (·.affinity) fun x r => { r with affinity := x }]

/-- Reads a configuration; what is not given has its default. -/
def read (value : Value) : Except ReadError Configuration := record.read value

/-- The written form, with everything but unset optional fields. -/
def write (config : Configuration) : Json := record.write config

/-- The schema of the root, without definitions. -/
def schemaRoot : List (String × Json) :=
  [("$schema", .text "http://json-schema.org/draft-07/schema#"), ("title", .text record.name),
    ("description", .text record.description), ("type", .text "object"),
    ("properties", record.properties)]

def schemaDefinitions : List (String × Json) :=
  [(authSchemes.name, authSchemes.definition),
    (Autoscaling.record.name, Autoscaling.record.definition),
    (backupStrategies.name, backupStrategies.definition),
    (Database.record.name, Database.record.definition),
    (Image.record.name, Image.record.definition),
    (Ingress.record.name, Ingress.record.definition),
    (IngressTls.record.name, IngressTls.record.definition),
    (SecretsStore.record.name, SecretsStore.record.definition),
    (storeBackends.name, storeBackends.definition),
    (ServiceAccount.record.name, ServiceAccount.record.definition),
    (Service.record.name, Service.record.definition),
    (exposures.name, exposures.definition)]

def schema : Json := .object (schemaRoot ++ [("definitions", .object schemaDefinitions)])

/-- The definition of a name; the empty name stands for the root. -/
def definition? (name : String) : Option Json :=
  if name.isEmpty then some (.object schemaRoot) else schemaDefinitions.lookup name

end ServerManifests.Configuration
