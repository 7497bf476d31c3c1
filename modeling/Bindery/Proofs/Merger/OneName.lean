import Bindery.Proofs.Merger.Cases

/-!
# Merges of one name

A run merges types of one name at a time: whatever comes out of a merge has the name of its group
again, or none if the group has none. So a run never merges two types with different names, and
leaves the merger as it is, whatever merges there were before it.

* `NativeType.name_of_reconcile` : what two types of one name are merged into has that name;
* `Workbench.merger_fold` : the merges of one name, each after the other, leave the merger alone;
* `Workbench.merger_canonicalize` : so does a run.
-/

namespace Bindery

theorem NativeType.name_of_reconcile {overrides : Overrides} {a b c : NativeType}
    (hr : a.reconcile overrides b = .ok (some c)) (h : a.name = b.name) : c.name = a.name := by
  have hkept : ¬ (a = b ∨ overrides.Lists a.name) := fun hk => by
    rw [reconcile_eq_none_iff.2 hk] at hr
    cases hr
  obtain ⟨hne, hl⟩ := not_or.1 hkept
  rw [reconcile_of_not_kept hne hl] at hr
  obtain ⟨t, ht, htc⟩ := map_eq_ok_iff.1 hr
  obtain rfl := Option.some.inj htc
  rw [(of_mergeParts ht).1, preferredName, ← h, Option.or_self]

namespace Workbench

/-- The merge of a site of a name leaves the merger as it is, and gives a type of that name. -/
theorem merger_mergeSite (w : Workbench) {name : Option TypeName} {sofar : Option Instance}
    {t : NativeType} (ht : t.name = name) (hs : ∀ i ∈ sofar, i.type.name = name) :
    (w.mergeSite sofar t).2.merger = w.merger ∧
      ∀ i ∈ given? (w.mergeSite sofar t).1, i.type.name = name := by
  rcases w.mergeSite_cases sofar t with ⟨rfl, e⟩ | ⟨a, rfl, ⟨_, -, e⟩ | ⟨-, e⟩ | ⟨c, hc, e⟩⟩ <;>
    rw [e]
  · refine ⟨rfl, ?_⟩
    rintro i ⟨⟩
    exact ht
  · exact ⟨rfl, by simp⟩
  · exact ⟨rfl, hs⟩
  · have ha : a.type.name = t.name := (hs a rfl).trans ht.symm
    constructor
    · exact w.merger.note_of_name_eq ha _
    · rintro i ⟨⟩
      exact (NativeType.name_of_reconcile hc ha).trans (hs a rfl)

theorem merger_fold (name : Option TypeName) (w : Workbench) (sites : List SiteShapes) :
    (fold name w none sites).2.merger = w.merger := by
  -- the types of the sites have the name of the group, and so has each type on the way
  have hfold : (fold name w none sites).2.merger = w.merger ∧
      ∀ i ∈ given? (fold name w none sites).1, i.type.name = name := by
    refine fold_invariant (P := fun v sofar =>
      v.merger = w.merger ∧ ∀ i ∈ sofar, i.type.name = name) ?_ ?_ none ⟨rfl, by simp⟩ sites
    · exact fun h => ⟨h.1, by simp⟩
    · rintro v sofar s t ht ⟨hm, hs⟩
      obtain ⟨hm', hs'⟩ := v.merger_mergeSite (SiteShapes.name_of_type ht) hs
      exact ⟨hm'.trans hm, hs'⟩
  exact hfold.1

/-- A run leaves the merger as it is. -/
theorem merger_canonicalize (w : Workbench) (os : List Observation) :
    (w.canonicalize os).2.merger = w.merger :=
  typesOf_invariant (P := fun v _ => v.merger = w.merger) (fun _ h => (merger_fold _ _ _).trans h)
    (fun _ _ _ h => (merger_fold _ _ _).trans h) [] rfl _

end Workbench

end Bindery
