import Bindery.Proofs.Generate.Lossless
import Bindery.Proofs.Merger.OneName

/-!
# A run has no collisions

The merger keeps the pairs of types with different names that it has merged, and a run reports how
many there are. As a run leaves the merger as it is, the number is always 0:
`canonicalize_without_collisions`.
-/

namespace Bindery

/-- **A run has no collisions.** Whatever the observations, the override table, the collisions
before and the registry are, finding the types leaves the collisions as they are. So whenever the
artifacts of a manifest were written, to whatever destination, the report says that there were
none. -/
theorem canonicalize_without_collisions :
    (∀ (w : Workbench) (os : List Observation),
      (w.canonicalize os).2.merger.collisions = w.merger.collisions) ∧
      ∀ {σ : Type} (d : Destination (StateM σ)) (m : Manifest) (base : Path) (runtime : String)
        (preamble : Option String) (s : σ) (summary : Summary),
        (generateInto d m base runtime preamble s).1 = .ok summary → summary.collisions = 0 := by
  refine ⟨fun w os => by rw [w.merger_canonicalize], ?_⟩
  intro σ d m base runtime preamble s summary h
  obtain ⟨plan, paths, hp, -, rfl⟩ := generateInto_eq_ok_iff.1 (eq_mk_of_fst_eq h)
  have hnone : m.workbench.merger = .new .standard :=
    (Workbench.new .standard).merger_canonicalize m.observations
  show plan.collisions.length = 0
  rw [(Plan.of_ofManifest_eq_ok hp).2.1, hnone]
  rfl

/-- Two sites of one name, spelled with and without a blank, that are merged. -/
theorem canonicalize_without_collisions_rect :
    let m : Manifest := ⟨none, [⟨some "Rect", "a.h:1", 32, "{?=i}"⟩,
      ⟨some " Rect", "b.h:7", 32, "{r=i}"⟩], []⟩
    let d : Destination (StateM Unit) := ⟨fun _ => pure true, fun _ _ => pure true,
      fun _ => pure true, fun _ => pure (), fun _ => pure (some [])⟩
    ∃ summary, (generateInto d m .empty "runtime" none ()).1 = .ok summary ∧
      summary.collisions = 0 := by
  intro m d
  have haccepts : d.Accepts :=
    ⟨fun _ _ => rfl, fun _ _ _ => rfl, fun _ _ => rfl, fun _ _ => ⟨[], rfl⟩⟩
  have htypes : m.typeErrors = [] := List.isEmpty_iff.1 (by decide +kernel)
  have hfree : ¬ (m.output .empty "runtime").TableNameTaken := by decide +kernel
  obtain ⟨summary, hok⟩ := generateInto_of_no_copies haccepts none rfl (by decide) (by decide)
    htypes hfree ()
  exact ⟨summary, hok, canonicalize_without_collisions.2 d m .empty "runtime" none () summary hok⟩

end Bindery
