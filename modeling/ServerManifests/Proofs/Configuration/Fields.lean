import ServerManifests.Proofs.Codec.Rereading
import ServerManifests.Proofs.Configuration.Blocks

/-!
Which entry of a values tree each text and each setting of a configuration comes from. A
section or a field that holds them is decided by the entry of its name and by no other,
which follows for all of them from the laws of the blocks.
-/
namespace ServerManifests.Configuration

open Codec

theorem scalar_injective : Function.Injective scalar.write :=
  write_injective lossless_scalar.rereads

theorem textMap_injective : Function.Injective textMap.write := write_injective rereads_textMap

theorem owns_defaultProjectName :
    record.Owns "defaultProjectName" scalar.read (·.defaultProjectName) :=
  lawful.owns_required scalar_injective rfl fun _ _ => rfl

theorem owns_defaultUsername :
    record.Owns "defaultUsername" scalar.read (·.defaultUsername) :=
  lawful.owns_required scalar_injective rfl fun _ _ => rfl

theorem owns_jwtSecretKey :
    record.Owns "jwtSecretKey" scalar.option.read (·.jwtSecretKey) :=
  lawful.owns_optional scalar_injective rfl fun _ _ => rfl

theorem owns_deploymentType :
    record.Owns "deploymentType" scalar.option.read (·.deploymentType) :=
  lawful.owns_optional scalar_injective rfl fun _ _ => rfl

theorem owns_environment : record.Owns "environment" textMap.read (·.environment) :=
  lawful.owns_required textMap_injective rfl fun _ _ => rfl

theorem owns_podAnnotations : record.Owns "podAnnotations" textMap.read (·.podAnnotations) :=
  lawful.owns_required textMap_injective rfl fun _ _ => rfl

theorem owns_nodeSelector : record.Owns "nodeSelector" textMap.read (·.nodeSelector) :=
  lawful.owns_required textMap_injective rfl fun _ _ => rfl

theorem Image.owns_tag : record.Owns "tag" scalar.option.read (·.tag) :=
  lawful.owns_optional scalar_injective rfl fun _ _ => rfl

theorem Database.owns_password : record.Owns "password" scalar.option.read (·.password) :=
  lawful.owns_optional scalar_injective rfl fun _ _ => rfl

theorem Database.owns_backupDatabase :
    record.Owns "backupDatabase" scalar.option.read (·.backupDatabase) :=
  lawful.owns_optional scalar_injective rfl fun _ _ => rfl

theorem SecretsStore.owns_settings : record.Owns "settings" Codec.settings.read (·.settings) :=
  lawful.owns_required (write_injective rereads_settings) rfl fun _ _ => rfl

theorem Ingress.owns_annotations : record.Owns "annotations" textMap.read (·.annotations) :=
  lawful.owns_required textMap_injective rfl fun _ _ => rfl

theorem ServiceAccount.owns_annotations :
    record.Owns "annotations" textMap.read (·.annotations) :=
  lawful.owns_required textMap_injective rfl fun _ _ => rfl

end ServerManifests.Configuration
