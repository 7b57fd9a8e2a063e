import ServerManifests.Proofs.Success
import ServerManifests.Render

/-!
What a successful render consists of. The release and the configuration pass
their checks, the environment can be composed, and everything rendered is built
from the plan that holds it.
-/
namespace ServerManifests

open Environment

/-- The plan of a configuration whose environment is composed. -/
def DeploymentPlan.ofEnvironment (config : Configuration) (release : Release)
    (environment : EnvironmentList) : DeploymentPlan where
  config
  release
  names := .of config release
  image := Plan.imageReference config release
  replicas := Plan.replicas config
  autoscaling := Plan.autoscaling config
  environment

theorem resolve_eq_ok_iff {config : Configuration} {release : Release} {plan : DeploymentPlan} :
    config.resolve release = .ok plan ↔
      Plan.checkRelease release = .ok () ∧ Plan.checkConfiguration config = .ok () ∧
        ∃ env, compose config = .ok env ∧ plan = .ofEnvironment config release env := by
  unfold Configuration.resolve
  rw [bind_eq_ok_iff]
  constructor
  · intro hresolve
    obtain ⟨⟨⟩, hrelease, h⟩ := hresolve
    obtain ⟨⟨⟩, hconfig, h⟩ := bind_eq_ok_iff.1 h
    obtain ⟨env, henv, h⟩ := bind_eq_ok_iff.1 h
    exact ⟨hrelease, hconfig, env, henv, (Except.ok.inj h).symm⟩
  · intro h
    obtain ⟨hrelease, hconfig, env, henv, rfl⟩ := h
    refine ⟨(), hrelease, bind_eq_ok_iff.2 ⟨(), hconfig, ?_⟩⟩
    exact bind_eq_ok_iff.2 ⟨env, henv, rfl⟩

theorem render_eq_ok_iff {config : Configuration} {release : Release} {rendered : Rendered} :
    render config release = .ok rendered ↔
      Plan.checkRelease release = .ok () ∧ Plan.checkConfiguration config = .ok () ∧
        ∃ env, compose config = .ok env ∧
          rendered = ⟨.ofEnvironment config release env, .of (.ofEnvironment config release env),
            .of (.ofEnvironment config release env)⟩ := by
  unfold render
  rw [map_eq_ok_iff]
  constructor
  · intro h
    obtain ⟨plan, hplan, rfl⟩ := h
    obtain ⟨hrelease, hconfig, env, henv, rfl⟩ := resolve_eq_ok_iff.1 hplan
    exact ⟨hrelease, hconfig, env, henv, rfl⟩
  · intro h
    obtain ⟨hrelease, hconfig, env, henv, rfl⟩ := h
    exact ⟨_, resolve_eq_ok_iff.2 ⟨hrelease, hconfig, env, henv, rfl⟩, rfl⟩

end ServerManifests
