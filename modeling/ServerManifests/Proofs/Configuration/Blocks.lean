import ServerManifests.Configuration.Fields
import ServerManifests.Proofs.Codec.Lens

/-!
The blocks of a configuration. Every field of every block is a part of its own, which
is what lets one field be read, left out or changed without the others.
-/
namespace ServerManifests.Configuration

theorem Image.lawful : Image.record.Lawful where
  names := by decide
  named := by decide
  parts := by simp [record]

theorem Autoscaling.lawful : Autoscaling.record.Lawful where
  names := by decide
  named := by decide
  parts := by simp [record]

theorem Database.lawful : Database.record.Lawful where
  names := by decide
  named := by decide
  parts := by simp [record]

theorem SecretsStore.lawful : SecretsStore.record.Lawful where
  names := by decide
  named := by decide
  parts := by simp [record]

theorem IngressTls.lawful : IngressTls.record.Lawful where
  names := by decide
  named := by decide
  parts := by simp [record]

theorem Ingress.lawful : Ingress.record.Lawful where
  names := by decide
  named := by decide
  parts := by simp [record]

theorem Service.lawful : Service.record.Lawful where
  names := by decide
  named := by decide
  parts := by simp [record]

theorem ServiceAccount.lawful : ServiceAccount.record.Lawful where
  names := by decide
  named := by decide
  parts := by simp [record]

/-- The root has some thirty fields, each to be compared with every other, so the laws
are left to computation, where `simp` would normalize the configurations. -/
theorem lawful : record.Lawful where
  names := by decide
  named := by decide
  parts := by
    intro field hfield
    simp only [record, List.mem_cons, List.not_mem_nil, or_false] at hfield
    repeat' (rcases hfield with rfl | hfield)
    all_goals
      first
      | refine Field.isPart_required (fun _ _ => rfl) (fun _ => rfl) (fun _ _ _ => rfl) ?_
      | refine Field.isPart_optional (fun _ _ => rfl) (fun _ => rfl) (fun _ _ _ => rfl) ?_
    -- every other field: the field itself, a required one, an optional one or none left
    all_goals
      simp only [record, List.forall_mem_cons]
      and_intros
    all_goals
      first
      | exact absurd rfl
      | with_reducible exact fun _ => Field.avoids_required fun _ _ _ => rfl
      | with_reducible exact fun _ => Field.avoids_optional fun _ _ _ => rfl
      | exact List.forall_mem_nil _

def imagePart : Lens Configuration Image where
  get := (·.image)
  set image config := { config with image }

def autoscalingPart : Lens Configuration Autoscaling where
  get := (·.autoscaling)
  set autoscaling config := { config with autoscaling }

def databasePart : Lens Configuration Database where
  get := (·.database)
  set database config := { config with database }

def secretsStorePart : Lens Configuration SecretsStore where
  get := (·.secretsStore)
  set secretsStore config := { config with secretsStore }

def backupSecretsStorePart : Lens Configuration SecretsStore where
  get := (·.backupSecretsStore)
  set backupSecretsStore config := { config with backupSecretsStore }

def ingressPart : Lens Configuration Ingress where
  get := (·.ingress)
  set ingress config := { config with ingress }

def Ingress.tlsPart : Lens Ingress IngressTls where
  get := (·.tls)
  set tls ingress := { ingress with tls }

def servicePart : Lens Configuration Service where
  get := (·.service)
  set service config := { config with service }

def serviceAccountPart : Lens Configuration ServiceAccount where
  get := (·.serviceAccount)
  set serviceAccount config := { config with serviceAccount }

theorem embeds_image : record.Embeds "image" Image.record imagePart :=
  Record.embeds_of_required rfl (by simp [record, imagePart])

theorem embeds_autoscaling : record.Embeds "autoscaling" Autoscaling.record autoscalingPart :=
  Record.embeds_of_required rfl (by simp [record, autoscalingPart])

theorem embeds_database : record.Embeds "database" Database.record databasePart :=
  Record.embeds_of_required rfl (by simp [record, databasePart])

theorem embeds_secretsStore : record.Embeds "secretsStore" SecretsStore.record secretsStorePart :=
  Record.embeds_of_required rfl (by simp [record, secretsStorePart])

theorem embeds_backupSecretsStore :
    record.Embeds "backupSecretsStore" SecretsStore.record backupSecretsStorePart :=
  Record.embeds_of_required rfl (by simp [record, backupSecretsStorePart])

theorem embeds_ingress : record.Embeds "ingress" Ingress.record ingressPart :=
  Record.embeds_of_required rfl (by simp [record, ingressPart])

theorem Ingress.embeds_tls : record.Embeds "tls" IngressTls.record tlsPart :=
  Record.embeds_of_required rfl (by simp [record, tlsPart])

theorem embeds_service : record.Embeds "service" Service.record servicePart :=
  Record.embeds_of_required rfl (by simp [record, servicePart])

theorem embeds_serviceAccount :
    record.Embeds "serviceAccount" ServiceAccount.record serviceAccountPart :=
  Record.embeds_of_required rfl (by simp [record, serviceAccountPart])

/-- Where the blocks of a configuration are, from the whole to the nested ones. -/
inductive Block : List String → {T : Type} → Record T → Lens Configuration T → Prop
  | whole : Block [] record .whole
  | image : Block ["image"] Image.record imagePart
  | autoscaling : Block ["autoscaling"] Autoscaling.record autoscalingPart
  | database : Block ["database"] Database.record databasePart
  | secretsStore : Block ["secretsStore"] SecretsStore.record secretsStorePart
  | backupSecretsStore : Block ["backupSecretsStore"] SecretsStore.record backupSecretsStorePart
  | ingress : Block ["ingress"] Ingress.record ingressPart
  | tls : Block ["ingress", "tls"] IngressTls.record (ingressPart.comp Ingress.tlsPart)
  | service : Block ["service"] Service.record servicePart
  | serviceAccount : Block ["serviceAccount"] ServiceAccount.record serviceAccountPart

theorem Block.named {names : List String} {T : Type} {r : Record T} {block : Lens Configuration T}
    (h : Block names r block) : names.any String.isEmpty = false := by
  cases h <;> decide

theorem Block.lawful {names : List String} {T : Type} {r : Record T} {block : Lens Configuration T}
    (h : Block names r block) : r.Lawful := by
  cases h with
  | whole => exact Configuration.lawful
  | image => exact Image.lawful
  | autoscaling => exact Autoscaling.lawful
  | database => exact Database.lawful
  | secretsStore | backupSecretsStore => exact SecretsStore.lawful
  | ingress => exact Ingress.lawful
  | tls => exact IngressTls.lawful
  | service => exact Service.lawful
  | serviceAccount => exact ServiceAccount.lawful

end ServerManifests.Configuration
