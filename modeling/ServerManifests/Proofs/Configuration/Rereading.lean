import ServerManifests.Proofs.Configuration.Blocks
import ServerManifests.Proofs.Kubernetes.Fits

/-!
A configuration is read as it was written, field by field of every block. Only the target
of the autoscaler is left out when it is unset and has a default, which it comes back as.
-/
namespace ServerManifests

open Yaml Value Codec Kubernetes

namespace Configuration

open Record Restores

theorem lossless_authSchemes : authSchemes.codec.Lossless :=
  lossless_choice fun scheme => by cases scheme <;> rfl

theorem lossless_backupStrategies : backupStrategies.codec.Lossless :=
  lossless_choice fun strategy => by cases strategy <;> rfl

theorem lossless_storeBackends : storeBackends.codec.Lossless :=
  lossless_choice fun backend => by cases backend <;> rfl

theorem lossless_exposures : exposures.codec.Lossless :=
  lossless_choice fun exposure => by cases exposure <;> rfl

theorem Image.rereads (image : Image) : Image.record.codec.Rereads image := by
  refine read_ofJson_write lawful ?_
  refine .required (lossless_text.option _) ?_
  refine .optional (lossless_scalar.option _) (fun _ => rfl) rfl ?_
  refine .required (lossless_text.rereads _) ?_
  exact .nil _

/-- The target that is left out has its default before any field is read, and keeps it. -/
theorem Autoscaling.read_ofJson_write (autoscaling : Autoscaling) :
    Autoscaling.record.codec.read (.ofJson (Autoscaling.record.codec.write autoscaling)) =
      .ok { autoscaling with targetCpu := some (autoscaling.targetCpu.getD 80) } := by
  rw [← Option.or_some]
  refine Record.read_ofJson_write lawful ?_
  refine .required (lossless_bool.rereads _) ?_
  refine .required (lossless_int32.rereads _) ?_
  refine .required (lossless_int32.rereads _) ?_
  refine .kept (lossless_int32.option _) (fun _ => rfl) ?_
  refine .optional (lossless_int32.option _) (fun _ => rfl) rfl ?_
  exact .nil _

theorem Database.rereads (database : Database) : Database.record.codec.Rereads database := by
  refine read_ofJson_write lawful ?_
  refine .optional (lossless_text.option _) (fun _ => rfl) rfl ?_
  refine .optional (lossless_scalar.option _) (fun _ => rfl) rfl ?_
  refine .optional (lossless_text.option _) (fun _ => rfl) rfl ?_
  refine .optional (lossless_bool.option _) (fun _ => rfl) rfl ?_
  refine .optional (lossless_uint32.option _) (fun _ => rfl) rfl ?_
  refine .optional (lossless_uint32.option _) (fun _ => rfl) rfl ?_
  refine .optional (lossless_backupStrategies.option _) (fun _ => rfl) rfl ?_
  refine .optional (lossless_scalar.option _) (fun _ => rfl) rfl ?_
  exact .nil _

theorem SecretsStore.rereads (store : SecretsStore) : SecretsStore.record.codec.Rereads store := by
  refine read_ofJson_write lawful ?_
  refine .required (lossless_bool.rereads _) ?_
  refine .required (lossless_storeBackends.rereads _) ?_
  refine .optional (lossless_text.option _) (fun _ => rfl) rfl ?_
  refine .optional (lossless_text.option _) (fun _ => rfl) rfl ?_
  refine .required (rereads_settings _) ?_
  exact .nil _

theorem IngressTls.rereads (tls : IngressTls) : IngressTls.record.codec.Rereads tls := by
  refine read_ofJson_write lawful ?_
  refine .required (lossless_bool.rereads _) ?_
  refine .required (lossless_text.rereads _) ?_
  exact .nil _

theorem Ingress.rereads (ingress : Ingress) : Ingress.record.codec.Rereads ingress := by
  refine read_ofJson_write lawful ?_
  refine .required (lossless_bool.rereads _) ?_
  refine .optional (lossless_text.option _) (fun _ => rfl) rfl ?_
  refine .required (rereads_textMap _) ?_
  refine .optional (lossless_text.option _) (fun _ => rfl) rfl ?_
  refine .required (lossless_text.rereads _) ?_
  refine .required (IngressTls.rereads _) ?_
  exact .nil _

theorem Service.rereads (service : Service) : Service.record.codec.Rereads service := by
  refine read_ofJson_write lawful ?_
  refine .required (lossless_exposures.rereads _) ?_
  refine .required (lossless_int32.rereads _) ?_
  exact .nil _

theorem ServiceAccount.rereads (account : ServiceAccount) :
    ServiceAccount.record.codec.Rereads account := by
  refine read_ofJson_write lawful ?_
  refine .required (lossless_bool.rereads _) ?_
  refine .optional (lossless_text.option _) (fun _ => rfl) rfl ?_
  refine .required (rereads_textMap _) ?_
  exact .nil _

/-- The blocks of the pod description are of their shapes. -/
structure BlocksFit (config : Configuration) : Prop where
  imagePullSecrets : ∀ json ∈ config.imagePullSecrets, Shape.localObjectReference.Fits json
  podSecurityContext : ∀ json ∈ config.podSecurityContext, Shape.podSecurityContext.Fits json
  securityContext : ∀ json ∈ config.securityContext, Shape.securityContext.Fits json
  resources : ∀ json ∈ config.resources, Shape.resourceRequirements.Fits json
  tolerations : ∀ json ∈ config.tolerations, Shape.toleration.Fits json
  affinity : ∀ json ∈ config.affinity, Shape.affinity.Fits json

/-- Reading gives back the configuration that was written, with the default target of the
autoscaler where none was set. -/
theorem read_write (config : Configuration) (h : config.BlocksFit) :
    Configuration.read (.ofJson config.write) =
      .ok { config with autoscaling := { config.autoscaling with
        targetCpu := some (config.autoscaling.targetCpu.getD 80) } } := by
  -- one step for each field, in the order in which they are written
  refine read_ofJson_write lawful ?_
  refine .optional (lossless_text.option _) (fun _ => rfl) rfl ?_
  refine .optional (lossless_text.option _) (fun _ => rfl) rfl ?_
  refine .required (Image.rereads _) ?_
  refine .required (Shape.rereads_codec_list rfl h.imagePullSecrets) ?_
  refine .required (lossless_int32.rereads _) ?_
  refine .required (Autoscaling.read_ofJson_write _) ?_
  refine .required (lossless_bool.rereads _) ?_
  refine .required (lossless_bool.rereads _) ?_
  refine .required (lossless_scalar.rereads _) ?_
  refine .required (lossless_scalar.rereads _) ?_
  refine .required (lossless_bool.rereads _) ?_
  refine .optional (lossless_authSchemes.option _) (fun _ => rfl) rfl ?_
  refine .optional (lossless_scalar.option _) (fun _ => rfl) rfl ?_
  refine .optional (lossless_text.option _) (fun _ => rfl) rfl ?_
  refine .optional (lossless_scalar.option _) (fun _ => rfl) rfl ?_
  refine .required (Database.rereads _) ?_
  refine .required (SecretsStore.rereads _) ?_
  refine .required (SecretsStore.rereads _) ?_
  refine .required (rereads_textMap _) ?_
  refine .required (Ingress.rereads _) ?_
  refine .required (Service.rereads _) ?_
  refine .required (ServiceAccount.rereads _) ?_
  refine .required (rereads_textMap _) ?_
  refine .optional (Shape.rereads_codec_option rfl h.podSecurityContext) (fun _ => rfl) rfl ?_
  refine .optional (Shape.rereads_codec_option rfl h.securityContext) (fun _ => rfl) rfl ?_
  refine .optional (Shape.rereads_codec_option rfl h.resources) (fun _ => rfl) rfl ?_
  refine .required (rereads_textMap _) ?_
  refine .required (Shape.rereads_codec_list rfl h.tolerations) ?_
  refine .optional (Shape.rereads_codec_option rfl h.affinity) (fun _ => rfl) rfl ?_
  exact .nil _

/-- A null repository, texts that look like numbers or are empty, and a nested setting. -/
theorem read_write_of_no_target :
    ∃ config : Configuration, config.autoscaling.targetCpu = none ∧
      config.image.repository = none ∧ config.BlocksFit ∧
      Configuration.read (.ofJson config.write) =
        .ok { config with autoscaling := { config.autoscaling with targetCpu := some 80 } } := by
  have hfits : BlocksFit
      { image := { repository := none, tag := some "1.10" }
        autoscaling := { targetCpu := none, targetMemory := some 0 }
        defaultProjectName := ""
        backupSecretsStore :=
          { settings := .ofList [("retries", .int 3), ("roles", .list [.null, .text "true"])] }
        environment := .ofList [("DEBUG", "false"), ("EMPTY", "")]
        podSecurityContext := some (.object [("fsGroup", .int 2000)]) } := by
    refine ⟨nofun, fun json hjson => ?_, nofun, nofun, nofun, nofun⟩
    obtain rfl := Option.some.inj hjson
    exact .object (.left (.given (.int64 (by decide)) (by repeat' constructor)))
  exact ⟨_, rfl, rfl, hfits, read_write _ hfits⟩

theorem preserves_blocksFit : ∀ field ∈ record.fields, field.Preserves BlocksFit := by
  simp only [record, List.forall_mem_cons]
  and_intros
  -- most fields are no blocks of the pod description
  all_goals
    first
    | exact List.forall_mem_nil _
    | exact Field.preserves_required fun _ _ _ h => ⟨h.1, h.2, h.3, h.4, h.5, h.6⟩
    | exact Field.preserves_optional fun _ _ _ h => ⟨h.1, h.2, h.3, h.4, h.5, h.6⟩
    | skip
  · exact Field.preserves_required fun _ hread _ h =>
      { h with imagePullSecrets := Shape.forall_fits_of_list rfl hread }
  · exact Field.preserves_optional fun _ hread _ h =>
      { h with podSecurityContext := Shape.forall_fits_of_option rfl hread }
  · exact Field.preserves_optional fun _ hread _ h =>
      { h with securityContext := Shape.forall_fits_of_option rfl hread }
  · exact Field.preserves_optional fun _ hread _ h =>
      { h with resources := Shape.forall_fits_of_option rfl hread }
  · exact Field.preserves_required fun _ hread _ h =>
      { h with tolerations := Shape.forall_fits_of_list rfl hread }
  · exact Field.preserves_optional fun _ hread _ h =>
      { h with affinity := Shape.forall_fits_of_option rfl hread }

/-- The blocks of a configuration that was read fit. -/
theorem blocksFit_of_read {value : Value} {config : Configuration}
    (h : Configuration.read value = .ok config) : config.BlocksFit := by
  obtain ⟨es, -, hfields⟩ := bind_eq_ok_iff.1 h
  refine of_readFields preserves_blocksFit ?_ hfields
  exact ⟨nofun, nofun, nofun, nofun, nofun, nofun⟩

end Configuration

end ServerManifests
