import ServerManifests.Proofs.Codec.Order
import ServerManifests.Proofs.Configuration.Blocks

/-!
A configuration is read from its entries in any order: every field of every block is,
and so are the blocks of the pod description and the settings of a store.
-/
namespace ServerManifests.Configuration

open Codec ServerManifests.Field

theorem Image.respects : Respects Image.record.codec.read := by
  refine Image.lawful.respects_codec ?_
  simp [record, respects_required, respects_optional, respects_option, respects_text,
    respects_scalar]

theorem Autoscaling.respects : Respects Autoscaling.record.codec.read := by
  refine Autoscaling.lawful.respects_codec ?_
  simp [record, respects_required, respects_optional, respects_bool, respects_int32]

theorem Database.respects : Respects Database.record.codec.read := by
  refine Database.lawful.respects_codec ?_
  simp [record, respects_optional, respects_text, respects_scalar, respects_bool,
    respects_uint32, respects_choice]

theorem SecretsStore.respects : Respects SecretsStore.record.codec.read := by
  refine SecretsStore.lawful.respects_codec ?_
  simp [record, respects_required, respects_optional, respects_bool, respects_text,
    respects_choice, respects_settings]

theorem IngressTls.respects : Respects IngressTls.record.codec.read := by
  refine IngressTls.lawful.respects_codec ?_
  simp [record, respects_required, respects_bool, respects_text]

theorem Ingress.respects : Respects Ingress.record.codec.read := by
  refine Ingress.lawful.respects_codec ?_
  simp [record, respects_required, respects_optional, respects_bool, respects_text,
    respects_textMap, IngressTls.respects]

theorem Service.respects : Respects Service.record.codec.read := by
  refine Service.lawful.respects_codec ?_
  simp [record, respects_required, respects_int32, respects_choice]

theorem ServiceAccount.respects : Respects ServiceAccount.record.codec.read := by
  refine ServiceAccount.lawful.respects_codec ?_
  simp [record, respects_required, respects_optional, respects_bool, respects_text,
    respects_textMap]

theorem respects_shape (shape : Kubernetes.Shape) : Respects shape.codec.read :=
  shape.respects_read

theorem respects : Respects record.codec.read := by
  refine lawful.respects_codec ?_
  simp [record, respects_required, respects_optional, respects_list, respects_bool, respects_int32,
    respects_text, respects_scalar, respects_textMap, respects_choice, respects_shape,
    Image.respects, Autoscaling.respects, Database.respects, SecretsStore.respects,
    Ingress.respects, Service.respects, ServiceAccount.respects]

end ServerManifests.Configuration
