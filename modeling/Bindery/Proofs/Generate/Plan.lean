import Bindery.Generate
import Bindery.Proofs.Observation.Rescan
import Bindery.Proofs.Output.ScanOrder

/-!
# What a run is about to write

A plan comes from a manifest in three steps, each of which has an error of its own. The second
never fails, as the mapping has a target for every type, and the third does not fail for a manifest
that was read, as its copies have file names.

* `Manifest.typeErrors` and `Manifest.output` are what the first two steps give;
* `Plan.ofManifest_of_errors`, `Plan.ofManifest_of_no_errors` : the plan in terms of them, and
  `Plan.ofManifest_eq_error` : how the planning fails;
* `Manifest.Checked` says what is known of a manifest that was read.
-/

namespace Bindery

/-! ### The output of a manifest -/

namespace Manifest

variable (m : Manifest)

/-- What the observations of a manifest leave. -/
def workbench : Workbench := ((Workbench.new .standard).canonicalize m.observations).2

/-- The errors of the names that get no type. -/
def typeErrors : List TypeError :=
  ((Workbench.new .standard).canonicalize m.observations).1.errors

/-- The mapping of the types. -/
def mapping (runtime : String) : Binding.Mapping := ⟨runtime, m.wrapperPackage⟩

/-- What the artifacts are made from. -/
def output (base : Path) (runtime : String) : Output where
  registry := m.workbench.registry.freeze
  instances :=
    (m.workbench.registry.resolveAll m.workbench.instances (m.mapping runtime).resolver).2
  manifest := m
  base := base
  runtime := runtime

end Manifest

variable {m : Manifest} {base : Path} {runtime : String}

theorem Workbench.output_eq_ok (w : Workbench) (m : Manifest) (base : Path) (runtime : String) :
    w.output m base runtime = .ok ⟨w.registry.freeze,
      (w.registry.resolveAll w.instances (m.mapping runtime).resolver).2, m, base, runtime⟩ := by
  have hdone := w.registry.resolveAll_mapping w.instances ⟨runtime, m.wrapperPackage⟩
  simp only [Workbench.output, Manifest.mapping]
  generalize w.registry.resolveAll w.instances _ = r at hdone ⊢
  obtain ⟨answer, instances⟩ := r
  obtain rfl : answer = .ok w.registry.pool.length := hdone
  rfl

namespace Plan

theorem ofManifest_of_errors (h : m.typeErrors ≠ []) :
    ofManifest m base runtime = .error (.types m.typeErrors) := by
  unfold Manifest.typeErrors at h ⊢
  unfold ofManifest
  generalize (Workbench.new .standard).canonicalize m.observations = r at h ⊢
  obtain ⟨⟨types, errors⟩, w⟩ := r
  cases errors with
  | nil => exact absurd rfl h
  | cons e errors => rfl

theorem ofManifest_of_no_errors (h : m.typeErrors = []) :
    ofManifest m base runtime = ((m.output base runtime).artifacts.mapError .manifest).map
      fun artifacts => ⟨m.output base runtime, m.workbench.merger.collisions, artifacts⟩ := by
  have hout := m.workbench.output_eq_ok m base runtime
  unfold Manifest.output Manifest.workbench at *
  unfold Manifest.typeErrors at h
  unfold ofManifest
  generalize (Workbench.new .standard).canonicalize m.observations = r at h hout ⊢
  obtain ⟨⟨types, errors⟩, w⟩ := r
  obtain rfl : errors = [] := h
  simp only [hout, Except.mapError, bind, Except.bind]
  generalize Output.artifacts _ = artifacts
  cases artifacts <;> rfl

/-- There is a plan if all names get a type and the artifacts can be listed. -/
theorem exists_of_artifacts {as : List Artifact} (h : m.typeErrors = [])
    (ha : (m.output base runtime).artifacts = .ok as) :
    ∃ plan, ofManifest m base runtime = .ok plan := by
  rw [ofManifest_of_no_errors h, ha]
  exact ⟨_, rfl⟩

/-- What a plan is made of. -/
theorem of_ofManifest_eq_ok {plan : Plan} (h : ofManifest m base runtime = .ok plan) :
    plan.output = m.output base runtime ∧
      plan.collisions = m.workbench.merger.collisions ∧
      (m.output base runtime).artifacts = .ok plan.artifacts := by
  by_cases he : m.typeErrors = []
  · rw [ofManifest_of_no_errors he] at h
    cases ha : (m.output base runtime).artifacts with
    | error e =>
      rw [ha] at h
      cases h
    | ok artifacts =>
      rw [ha] at h
      cases h
      exact ⟨rfl, rfl, rfl⟩
  · rw [ofManifest_of_errors he] at h
    cases h

/-- The artifacts of a plan are those of its output. -/
theorem artifacts_of_ofManifest {plan : Plan} (h : ofManifest m base runtime = .ok plan) :
    plan.output = m.output base runtime ∧
      (m.output base runtime).artifacts = .ok plan.artifacts :=
  ⟨(of_ofManifest_eq_ok h).1, (of_ofManifest_eq_ok h).2.2⟩

/-- Planning fails at the types, or at a copy without a file name. -/
theorem ofManifest_eq_error {e : GenerateError} (h : ofManifest m base runtime = .error e) :
    m.typeErrors ≠ [] ∧ e = .types m.typeErrors ∨
      ∃ e', e = .manifest e' ∧ (m.output base runtime).artifacts = .error e' := by
  by_cases he : m.typeErrors = []
  · rw [ofManifest_of_no_errors he] at h
    cases ha : (m.output base runtime).artifacts with
    | error e' =>
      rw [ha] at h
      cases h
      exact .inr ⟨e', rfl, rfl⟩
    | ok as =>
      rw [ha] at h
      cases h
  · rw [ofManifest_of_errors he] at h
    cases h
    exact .inl ⟨he, rfl⟩

end Plan

/-! ### Manifests that were read -/

namespace Manifest

/-- Every observation has a width that a run takes in, and every copy a file name. -/
structure Checked (m : Manifest) : Prop where
  counts : ∀ o ∈ m.observations, o.counts = true
  named : ∀ c ∈ m.copies, ∃ name, c.targetFileName = .ok name

theorem checkObservations_eq_ok_iff {n : Nat} {os : List Observation} :
    checkObservations n os = .ok () ↔ ∀ o ∈ os, o.counts = true := by
  induction os generalizing n with
  | nil => exact iff_of_true rfl nofun
  | cons o os ih =>
    rw [checkObservations, List.forall_mem_cons, Observation.counts]
    cases Abi.ofBits? o.abi <;> simp [ih]

theorem checkCopies_eq_ok_iff {cs : List CopyEntry} :
    checkCopies cs = .ok () ↔ ∀ c ∈ cs, ∃ name, c.targetFileName = .ok name := by
  induction cs with
  | nil => exact iff_of_true rfl nofun
  | cons c cs ih =>
    rw [checkCopies, List.forall_mem_cons]
    cases c.targetFileName <;> simp [ih]

theorem check_eq_ok_iff : m.check = .ok () ↔ m.Checked := by
  rw [check, bind_eq_ok_iff]
  constructor
  · rintro ⟨_, hos, hcs⟩
    exact ⟨checkObservations_eq_ok_iff.1 hos, checkCopies_eq_ok_iff.1 hcs⟩
  · rintro ⟨hos, hcs⟩
    exact ⟨(), checkObservations_eq_ok_iff.2 hos, checkCopies_eq_ok_iff.2 hcs⟩

/-- A manifest that is read passes its checks. -/
theorem checked_of_parse {text : String} {path : Path} (h : parse text path = .ok m) :
    m.Checked := by
  unfold parse at h
  split at h
  · cases h
  · next m' _ =>
    cases hc : m'.check with
    | error e =>
      rw [hc] at h
      cases h
    | ok _ =>
      rw [hc] at h
      cases h
      exact check_eq_ok_iff.1 hc

theorem mapM_artifact_eq_ok (base : Path) {cs : List CopyEntry}
    (h : ∀ c ∈ cs, ∃ name, c.targetFileName = .ok name) :
    ∃ as, cs.mapM (CopyEntry.artifact base) = .ok as := by
  induction cs with
  | nil => exact ⟨[], rfl⟩
  | cons c cs ih =>
    obtain ⟨⟨name, hc⟩, hcs⟩ := List.forall_mem_cons.1 h
    obtain ⟨as, has⟩ := ih hcs
    refine ⟨.copied (c.sourceFrom base) ⟨c.package, name⟩ :: as, ?_⟩
    rw [List.mapM_cons, has, CopyEntry.artifact, hc]
    rfl

/-- The artifacts of such a manifest can be listed, whatever was found in its observations. -/
theorem Checked.artifacts_eq_ok {o : Output} (h : o.manifest.Checked) :
    ∃ as, o.artifacts = .ok as := by
  obtain ⟨as, has⟩ := mapM_artifact_eq_ok o.base h.named
  rw [Output.artifacts_eq, Output.copies, has]
  exact ⟨_, rfl⟩

end Manifest

/-- There is a plan for such a manifest if all its names get a type. -/
theorem Plan.exists_ofManifest (h : m.typeErrors = []) (hc : m.Checked) (base : Path)
    (runtime : String) : ∃ plan, Plan.ofManifest m base runtime = .ok plan := by
  obtain ⟨as, has⟩ := Manifest.Checked.artifacts_eq_ok (o := m.output base runtime) hc
  exact exists_of_artifacts h has

end Bindery
