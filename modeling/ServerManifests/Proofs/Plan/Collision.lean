import ServerManifests.Proofs.Plan.Truncation

/-!
Releases of one chart side by side. A release whose name does not hold the name of the
chart has it behind its own, and names that are labels are short enough to be kept whole.
So two releases have one full name in a single case only: one of them is named as the
other one is completed. Every resource has the full name, but a service account may have
one of its own, which is the same for all releases of its configuration.
-/
namespace ServerManifests.Plan

open Manifest

/-- A configuration that leaves the names of its resources to the release. -/
structure NamedByRelease (config : Configuration) : Prop where
  name : nonEmpty config.nameOverride = none
  fullname : nonEmpty config.fullnameOverride = none

/-- The name of the chart is part of a name. -/
def HoldsChart (name : String) : Prop := "zenml".toList <:+: name.toList

/-- A name is a shorter one and the name of the chart, which that one does not hold. -/
def Completes (name short : String) : Prop := name = short ++ "-zenml" ∧ ¬ HoldsChart short

theorem holdsChart_append (name : String) : HoldsChart (name ++ "-zenml") :=
  ⟨name.toList ++ ['-'], [], by simp⟩

variable {config config' : Configuration} {release release' : Release}

theorem wholeName_of_holdsChart (hconfig : NamedByRelease config)
    (hchart : release.chartName = "zenml") (hholds : HoldsChart release.name) :
    wholeName config release = release.name := by
  unfold wholeName baseName
  rw [hconfig.fullname, hconfig.name, hchart]
  exact if_pos (hasInfix_iff.2 hholds)

theorem wholeName_of_not_holdsChart (hconfig : NamedByRelease config)
    (hchart : release.chartName = "zenml") (hholds : ¬ HoldsChart release.name) :
    wholeName config release = release.name ++ "-zenml" := by
  unfold wholeName baseName
  rw [hconfig.fullname, hconfig.name, hchart]
  calc
    _ = release.name ++ "-" ++ "zenml" := if_neg (mt hasInfix_iff.1 hholds)
    _ = release.name ++ "-zenml" := String.append_assoc ..

theorem append_ne_append {name name' : String} (hne : name ≠ name') (suffix : String) :
    name ++ suffix ≠ name' ++ suffix := by
  intro heq
  have hlists := congrArg String.toList heq
  rw [String.toList_append, String.toList_append] at hlists
  exact hne (String.toList_inj.1 (List.append_cancel_right hlists))

theorem wholeName_eq_iff (hconfig : NamedByRelease config) (hconfig' : NamedByRelease config')
    (hchart : release.chartName = "zenml") (hchart' : release'.chartName = "zenml")
    (hne : release.name ≠ release'.name) :
    wholeName config release = wholeName config' release' ↔
      Completes release'.name release.name ∨ Completes release.name release'.name := by
  by_cases hholds : HoldsChart release.name
  · rw [wholeName_of_holdsChart hconfig hchart hholds]
    by_cases hholds' : HoldsChart release'.name
    · rw [wholeName_of_holdsChart hconfig' hchart' hholds']
      simp [Completes, hne, hholds, hholds']
    · rw [wholeName_of_not_holdsChart hconfig' hchart' hholds']
      simp [Completes, hholds, hholds']
  · rw [wholeName_of_not_holdsChart hconfig hchart hholds]
    by_cases hholds' : HoldsChart release'.name
    · rw [wholeName_of_holdsChart hconfig' hchart' hholds']
      simp [Completes, hholds, hholds', eq_comm]
    · -- A name that holds the chart is none of the two, so neither completes the other.
      rw [wholeName_of_not_holdsChart hconfig' hchart' hholds']
      refine iff_of_false (append_ne_append hne _) ?_
      rintro (⟨heq, -⟩ | ⟨heq, -⟩)
      · exact hholds' (heq ▸ holdsChart_append _)
      · exact hholds (heq ▸ holdsChart_append _)

/-- The name of a release is a label of at most 53 characters, so a cut changes it neither
by itself nor with the name of the chart behind it. -/
theorem fullname_eq_wholeName (hconfig : NamedByRelease config)
    (hchart : release.chartName = "zenml") (hrelease : checkRelease release = .ok ()) :
    fullname config release = wholeName config release := by
  obtain ⟨⟨hlabel, hlength⟩, -⟩ := checkRelease_eq_ok_iff.1 hrelease
  have hshort : release.name.length ≤ 53 := hlength
  rw [fullname_eq_truncateName, truncateName_eq_self_iff]
  by_cases hholds : HoldsChart release.name
  · rw [wholeName_of_holdsChart hconfig hchart hholds]
    obtain ⟨-, -, last, hlast, hend⟩ := isLabel_iff.1 hlabel
    refine ⟨by omega, fun hdash => ?_⟩
    obtain rfl : last = '-' := Option.some.inj (hlast.symm.trans hdash)
    exact absurd hend (by decide)
  · rw [wholeName_of_not_holdsChart hconfig hchart hholds, String.length_append,
      String.toList_append, List.getLast?_append]
    have hlength : "-zenml".length = 6 := by decide
    have hlast : "-zenml".toList.getLast? = some 'l' := by decide
    rw [hlast, Option.some_or]
    exact ⟨by omega, by decide⟩

/-- A resource of a plan has a name. -/
def BearsName (plan : DeploymentPlan) (name : String) : Prop :=
  ∃ m ∈ (Bundle.of plan).manifests, m.2.at? metadataName = some (.text name)

/-- A resource of a plan has a name from the release: every resource but a service account
that the configuration names. -/
def GivesName (plan : DeploymentPlan) (name : String) : Prop :=
  ∃ m ∈ (Bundle.of plan).manifests,
    (m.1 = .serviceAccount → nonEmpty plan.config.serviceAccount.name = none) ∧
      m.2.at? metadataName = some (.text name)

/-- A configuration gives a name of its own to the service account that is created. -/
def NamesAccount (config : Configuration) (name : String) : Prop :=
  config.serviceAccount.create = true ∧ nonEmpty config.serviceAccount.name = some name

theorem at?_name_of_mem (plan : DeploymentPlan) {m : Kind × Json}
    (hm : m ∈ (Bundle.of plan).manifests) : m.2.at? metadataName = some (.text
      (if m.1 = .serviceAccount then plan.names.serviceAccount else plan.names.fullname)) := by
  obtain ⟨apiVersion, metadata, more, hjson, -, -, hname⟩ := forall_mem_manifests_of plan m hm
  rw [hjson, metadataName, at?_metadata, Metadata.at?_name, hname]

theorem secret_mem_manifests (bundle : Bundle) :
    (Kind.secret, bundle.secret.toJson) ∈ bundle.manifests := by
  simp [Bundle.manifests]

/-- There is a service account only where one is to be created. -/
theorem create_of_mem (env : EnvironmentList) {m : Kind × Json}
    (hm : m ∈ (Bundle.of (.ofEnvironment config release env)).manifests)
    (hkind : m.1 = .serviceAccount) : config.serviceAccount.create = true := by
  have hmem : Kind.serviceAccount ∈ kinds config := by
    rw [← documents_kind_of config release env, ← hkind]
    exact List.mem_map.2 ⟨_, List.mem_map_of_mem hm, rfl⟩
  cases hcreate : config.serviceAccount.create with
  | true => rfl
  | false => simp [kinds, hcreate] at hmem

/-- A service account that is created has its own name or else the full name. -/
theorem serviceAccount_ofEnvironment (env : EnvironmentList)
    (hcreate : config.serviceAccount.create = true) :
    (DeploymentPlan.ofEnvironment config release env).names.serviceAccount =
      (nonEmpty config.serviceAccount.name).getD (fullname config release) := by
  change serviceAccountName config (fullname config release) = _
  unfold serviceAccountName
  rw [hcreate]
  cases nonEmpty config.serviceAccount.name <;> rfl

/-- All names that come from the release are the full name. -/
theorem givesName_ofEnvironment (env : EnvironmentList) {name : String} :
    GivesName (.ofEnvironment config release env) name ↔ name = fullname config release := by
  constructor
  · rintro ⟨m, hm, hunnamed, hname⟩
    rw [at?_name_of_mem _ hm] at hname
    obtain rfl := Json.text.inj (Option.some.inj hname)
    split
    · next hkind =>
      have hunnamed : nonEmpty config.serviceAccount.name = none := hunnamed hkind
      rw [serviceAccount_ofEnvironment env (create_of_mem env hm hkind), hunnamed,
        Option.getD_none]
    · rfl
  · rintro rfl
    have hsecret := secret_mem_manifests (.of (.ofEnvironment config release env))
    exact ⟨_, hsecret, fun hkind => Kind.noConfusion hkind, at?_name_of_mem _ hsecret⟩

/-- A resource has the full name or is the service account under a name of its own. -/
theorem bearsName_ofEnvironment (env : EnvironmentList) {name : String} :
    BearsName (.ofEnvironment config release env) name ↔
      name = fullname config release ∨ NamesAccount config name := by
  constructor
  · rintro ⟨m, hm, hname⟩
    rw [at?_name_of_mem _ hm] at hname
    obtain rfl := Json.text.inj (Option.some.inj hname)
    split
    · next hkind =>
      have hcreate := create_of_mem env hm hkind
      rw [serviceAccount_ofEnvironment env hcreate]
      cases haccount : nonEmpty config.serviceAccount.name with
      | none => exact .inl rfl
      | some account => exact .inr ⟨hcreate, haccount⟩
    · exact .inl rfl
  · rintro (rfl | ⟨hcreate, haccount⟩)
    · have hsecret := secret_mem_manifests (.of (.ofEnvironment config release env))
      exact ⟨_, hsecret, at?_name_of_mem _ hsecret⟩
    · obtain ⟨account, hof⟩ : ∃ account,
          (Bundle.of (.ofEnvironment config release env)).serviceAccount = some account :=
        ⟨_, if_pos hcreate⟩
      have hmem : (Kind.serviceAccount, account.toJson) ∈
          (Bundle.of (.ofEnvironment config release env)).manifests := by
        simp [Bundle.manifests, hof]
      refine ⟨_, hmem, ?_⟩
      rw [at?_name_of_mem _ hmem, if_pos rfl, serviceAccount_ofEnvironment env hcreate, haccount,
        Option.getD_some]

/-- Two releases of the chart have one full name exactly if the name of one completes that
of the other, and only then do they share a name that comes from the release. Any other
name that their resources share is one that a configuration gives its service account. No
full name is cut. -/
theorem fullname_eq_iff_completes (config config' : Configuration) (release release' : Release)
    (hconfig : NamedByRelease config) (hconfig' : NamedByRelease config')
    (hchart : release.chartName = "zenml") (hchart' : release'.chartName = "zenml")
    (hrelease : checkRelease release = .ok ()) (hrelease' : checkRelease release' = .ok ())
    (hne : release.name ≠ release'.name) :
    (fullname config release = fullname config' release' ↔
        Completes release'.name release.name ∨ Completes release.name release'.name) ∧
      (fullname config release = wholeName config release ∧
        fullname config' release' = wholeName config' release') ∧
      ∀ plan plan', config.resolve release = .ok plan → config'.resolve release' = .ok plan' →
        ((∃ name, GivesName plan name ∧ GivesName plan' name) ↔
          Completes release'.name release.name ∨ Completes release.name release'.name) ∧
        ∀ name, BearsName plan name → BearsName plan' name →
          (Completes release'.name release.name ∨ Completes release.name release'.name) ∨
            NamesAccount config name ∨ NamesAccount config' name := by
  have hwhole := fullname_eq_wholeName hconfig hchart hrelease
  have hwhole' := fullname_eq_wholeName hconfig' hchart' hrelease'
  have hnames : fullname config release = fullname config' release' ↔
      Completes release'.name release.name ∨ Completes release.name release'.name := by
    rw [hwhole, hwhole']
    exact wholeName_eq_iff hconfig hconfig' hchart hchart' hne
  refine ⟨hnames, ⟨hwhole, hwhole'⟩, fun plan plan' hplan hplan' => ?_⟩
  obtain ⟨-, -, env, -, rfl⟩ := resolve_eq_ok_iff.1 hplan
  obtain ⟨-, -, env', -, rfl⟩ := resolve_eq_ok_iff.1 hplan'
  constructor
  · simp only [givesName_ofEnvironment, exists_eq_left]
    exact hnames
  · intro name hname hname'
    rcases (bearsName_ofEnvironment env).1 hname with hfull | haccount
    · rcases (bearsName_ofEnvironment env').1 hname' with hfull' | haccount'
      · exact .inl (hnames.1 (hfull.symm.trans hfull'))
      · exact .inr (.inr haccount')
    · exact .inr (.inl haccount)

/-- The releases `prod` and `prod-zenml` both install `prod-zenml`. -/
theorem fullname_eq_iff_completes_of_prod :
    fullname {} { name := "prod" } = fullname {} { name := "prod-zenml" } ∧
      ∃ plan plan', Configuration.resolve {} { name := "prod" } = .ok plan ∧
        Configuration.resolve {} { name := "prod-zenml" } = .ok plan' ∧
        ∃ name, GivesName plan name ∧ GivesName plan' name := by
  have hconfig : NamedByRelease {} := ⟨rfl, rfl⟩
  have hcompletes : Completes "prod-zenml" "prod" := by
    refine ⟨rfl, ?_⟩
    unfold HoldsChart
    decide
  obtain ⟨hnames, -, hgiven⟩ := fullname_eq_iff_completes {} {} { name := "prod" }
    { name := "prod-zenml" } hconfig hconfig rfl rfl rfl rfl (by decide)
  have hgiven := (hgiven _ _ rfl rfl).1
  exact ⟨hnames.2 (.inl hcompletes), _, _, rfl, rfl, hgiven.2 (.inl hcompletes)⟩

/-- The defaults with a name for the service account. -/
def ofSharedAccount : Configuration where
  serviceAccount := { name := some "shared" }

/-- The names of the releases `a` and `b` do not complete each other, but both install the
service account that their configuration names. -/
theorem bearsName_of_shared_account :
    NamedByRelease ofSharedAccount ∧
      checkRelease { name := "a" } = .ok () ∧ checkRelease { name := "b" } = .ok () ∧
      ¬ Completes "a" "b" ∧ ¬ Completes "b" "a" ∧
      ∃ plan plan', ofSharedAccount.resolve { name := "a" } = .ok plan ∧
        ofSharedAccount.resolve { name := "b" } = .ok plan' ∧
        plan.release.targetNamespace = plan'.release.targetNamespace ∧
        ∃ name, BearsName plan name ∧ BearsName plan' name := by
  have hnames : NamesAccount ofSharedAccount "shared" := ⟨rfl, rfl⟩
  refine ⟨⟨rfl, rfl⟩, rfl, rfl, ?_, ?_, _, _, rfl, rfl, rfl, "shared", ?_, ?_⟩
  · rintro ⟨hname, -⟩
    exact absurd hname (by decide)
  · rintro ⟨hname, -⟩
    exact absurd hname (by decide)
  · exact (bearsName_ofEnvironment _).2 (.inr hnames)
  · exact (bearsName_ofEnvironment _).2 (.inr hnames)

end ServerManifests.Plan
