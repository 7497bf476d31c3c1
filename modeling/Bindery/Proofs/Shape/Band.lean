import Bindery.Proofs.Bracketing
import Bindery.Proofs.Shape.Absorption

/-!
# Merging in any order of brackets

Merging shapes is not commutative: tags and member names come from the shape that is there first.
But it is associative, failures included, and a shape that comes again adds nothing. So the shapes
found for one name need not be merged one by one from the left. They may be merged in groups, and
repeated ones may be dropped.

* `Shape.leftRegular_merge` : the laws;
* `Shape.merge_band` is the main result.
-/

namespace Bindery

namespace Shape

/-- Merging obeys the laws of a left-regular band. -/
theorem leftRegular_merge : LeftRegular (fun _ => True) merge where
  closed _ _ _ := trivial
  assoc {a b c d} _ _ _ := by
    simp only [bind_eq_ok_iff, merge_eq_ok_iff]
    constructor
    · rintro ⟨_, ⟨hab, rfl⟩, hbc, rfl⟩
      rw [erase_overlay, hab] at hbc
      exact ⟨_, ⟨hbc, rfl⟩, by rw [erase_overlay, hab], (overlay_assoc c hab).symm⟩
    · rintro ⟨_, ⟨hbc, rfl⟩, hab, rfl⟩
      rw [erase_overlay] at hab
      exact ⟨_, ⟨hab, rfl⟩, by rw [erase_overlay, hab, hbc], overlay_assoc c hab⟩
  self := merge_self
  again {a b c} h := by
    obtain ⟨-, rfl⟩ := (merge_eq_ok_iff a b).1 h
    exact (merge_eq_ok_iff _ a).2 ⟨erase_overlay a b, overlay_overlay_self a b⟩

/-- **Merging is a partial left-regular band.**

* It makes no difference, for the success of two merges and for their result, which of them comes
  first.
* What two shapes are merged into absorbs both of them, and the first of them is completed by it to
  the same.
* Shapes may be merged in any order of brackets, and each of them any number of times: only the
  order counts in which they first occur. -/
theorem merge_band :
    (∀ a b c d : Shape,
      (a.merge b >>= fun u => u.merge c) = .ok d ↔ (b.merge c >>= fun v => a.merge v) = .ok d) ∧
      (∀ a b c : Shape, a.merge b = .ok c →
        c.merge a = .ok c ∧ c.merge b = .ok c ∧ a.merge c = .ok c) ∧
      ∀ s t : Bracketing Shape, firstSeen id s.leaves = firstSeen id t.leaves →
        ∀ c, s.eval merge = .ok c ↔ t.eval merge = .ok c := by
  have laws := leftRegular_merge
  refine ⟨fun a b c d => laws.assoc trivial trivial trivial, fun a b c h => ?_, fun s t hst c => ?_⟩
  · exact ⟨laws.again h, laws.again_right trivial trivial h, laws.again_result trivial trivial h⟩
  · exact laws.eval_eq_ok_iff_of_firstSeen (fun _ _ => trivial) hst

/-- A struct without a tag, one with a tag and one with a member name, merged in two ways, in one of
which the first comes again. -/
theorem merge_band_three :
    let bare := composite .struct none (.cons none (.primitive .int) .nil)
    let tagged := composite .struct (some "P") (.cons none (.primitive .int) .nil)
    let named := composite .struct (some "Q") (.cons (some "x") (.primitive .int) .nil)
    let s := Bracketing.node (.node (.leaf bare) (.leaf tagged)) (.leaf named)
    let t := Bracketing.node (.leaf bare) (.node (.node (.leaf tagged) (.leaf bare)) (.leaf named))
    bare.merge tagged = .ok tagged ∧ tagged.merge bare = .ok tagged ∧
      firstSeen id s.leaves = firstSeen id t.leaves ∧
      s.eval merge = .ok tagged ∧ t.eval merge = .ok tagged := by
  intro bare tagged named s t
  obtain ⟨-, hagain, hbrackets⟩ := merge_band
  have hmerge : bare.merge tagged = .ok tagged := rfl
  have hst : firstSeen id s.leaves = firstSeen id t.leaves := by decide
  have hs : s.eval merge = .ok tagged := rfl
  exact ⟨hmerge, (hagain _ _ _ hmerge).1, hst, hs, (hbrackets s t hst tagged).1 hs⟩

/-- Merging is not commutative. -/
example :
    let left := composite .struct (some "P") .nil
    let right := composite .struct (some "Q") .nil
    left.merge right = .ok left ∧ right.merge left = .ok right := by
  decide

end Shape

end Bindery
