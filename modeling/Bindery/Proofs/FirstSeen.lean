import Mathlib.Data.List.Induction
import Mathlib.Data.List.Nodup
import Mathlib.Data.List.Perm.Basic
import Mathlib.Tactic.SplitIfs
import Mathlib.Tactic.Tauto

/-!
# First-seen order

Names, sites and pairs of primitives are all listed in the order in which they are first seen, and
what is seen again changes nothing.

* `firstSeen` lists the keys of some items in that order;
* `flatMap_append_perm_of_nodup` : what is added to one key may be added behind all of them;
* `Repeats` says that a list is another one with at most one item once more, and
  `firstSeen_of_repeats` that both have the same keys in the same order.
-/

namespace Bindery

/-! ### Keys in first-seen order -/

section FirstSeen

variable {α κ : Type} [DecidableEq κ] (f : α → κ)

/-- The keys of some items, each once, in the order in which they are first seen. -/
def firstSeen (xs : List α) : List κ := (xs.map f).eraseDups

theorem mem_firstSeen {xs : List α} {k : κ} : k ∈ firstSeen f xs ↔ ∃ x ∈ xs, f x = k := by
  simp [firstSeen]

theorem firstSeen_append_singleton (xs : List α) (x : α) :
    firstSeen f (xs ++ [x]) =
      if f x ∈ firstSeen f xs then firstSeen f xs else firstSeen f xs ++ [f x] := by
  simp only [firstSeen, List.map_append, List.map_cons, List.map_nil, List.eraseDups_append,
    List.mem_eraseDups, List.removeAll, List.filter_cons, List.filter_nil, List.elem_eq_mem]
  by_cases h : f x ∈ xs.map f <;> simp only [h] <;> simp [List.eraseDups_cons]

theorem nodup_firstSeen (xs : List α) : (firstSeen f xs).Nodup := by
  induction xs using List.reverseRecOn with
  | nil => simp [firstSeen]
  | append_singleton xs x ih =>
    rw [firstSeen_append_singleton]
    split_ifs with h
    · exact ih
    · exact List.nodup_append.2 ⟨ih, by simp, by grind⟩

theorem firstSeen_append (xs ys : List α) :
    firstSeen f (xs ++ ys) =
      firstSeen f xs ++ ((ys.map f).removeAll (xs.map f)).eraseDups := by
  rw [firstSeen, List.map_append, List.eraseDups_append, firstSeen]

/-- To pass over some keys, one may pass over the items that have them. -/
theorem filter_firstSeen (p : κ → Bool) (xs : List α) :
    (firstSeen f xs).filter p = firstSeen f (xs.filter fun x => p (f x)) := by
  induction xs using List.reverseRecOn with
  | nil => simp [firstSeen]
  | append_singleton xs x ih =>
    rw [List.filter_append, List.filter_singleton, firstSeen_append_singleton]
    cases hp : p (f x) with
    | false =>
      have hnew : (firstSeen f xs ++ [f x]).filter p = (firstSeen f xs).filter p := by simp [hp]
      split_ifs <;> simp [← ih, hnew]
    | true =>
      have hmem : f x ∈ (firstSeen f xs).filter p ↔ f x ∈ firstSeen f xs := by simp [hp]
      simp only [cond_true, firstSeen_append_singleton, ← ih, hmem]
      split_ifs <;> simp [hp]

variable {f} in
/-- A key that is first seen behind another stands behind it. -/
theorem firstSeen_insert {pre mixed : List α} {a b : κ} (ha : a ∈ firstSeen f pre)
    (hb : b ∉ firstSeen f pre) (hm : b ∈ firstSeen f (pre ++ mixed)) :
    ∃ before behind, a ∈ before ∧ b ∉ before ++ behind ∧
      firstSeen f (pre ++ mixed.filter fun x => f x ≠ b) = before ++ behind ∧
      firstSeen f (pre ++ mixed) = before ++ b :: behind := by
  have hpre : (pre.filter fun x => f x ≠ b) = pre := by
    rw [List.filter_eq_self]
    intro x hx
    rw [mem_firstSeen] at hb
    simpa using fun e => hb ⟨x, hx, e⟩
  have hfilter : (firstSeen f (pre ++ mixed)).filter (fun j => j ≠ b) =
      firstSeen f (pre ++ mixed.filter fun x => f x ≠ b) := by
    rw [filter_firstSeen, List.filter_append, hpre]
  have hnodup := nodup_firstSeen f (pre ++ mixed)
  rw [firstSeen_append] at hm hfilter hnodup
  obtain ⟨mid, behind, hmid⟩ := List.append_of_mem ((List.mem_append.1 hm).resolve_left hb)
  rw [hmid, ← List.append_assoc] at hfilter hnodup
  have hnew : b ∉ firstSeen f pre ++ mid ++ behind :=
    (List.nodup_cons.1 (List.nodup_middle.1 hnodup)).1
  refine ⟨firstSeen f pre ++ mid, behind, List.mem_append_left _ ha, hnew, ?_, ?_⟩
  · rw [← hfilter, List.filter_append, List.filter_cons, if_neg (by simp), ← List.filter_append]
    refine List.filter_eq_self.2 fun j hj => ?_
    have hjb : j ≠ b := fun e => hnew (e ▸ hj)
    simpa using hjb
  · rw [firstSeen_append, hmid, List.append_assoc]

variable {ε : Type} {ks : List κ} {k : κ} {g : κ → List ε}

/-- What is added to the items of one key can be moved behind the items of all keys. -/
theorem flatMap_append_perm_of_nodup (hks : ks.Nodup) (hg : k ∉ ks → g k = []) (e : List ε) :
    (ks.flatMap g ++ e).Perm
      ((if k ∈ ks then ks else ks ++ [k]).flatMap fun j => if j = k then g k ++ e else g j) := by
  have others : ∀ l : List κ, k ∉ l →
      (l.flatMap fun j => if j = k then g k ++ e else g j) = l.flatMap g := fun l hl =>
    List.flatMap_congr fun j hj => if_neg fun (h : j = k) => hl (h ▸ hj)
  by_cases h : k ∈ ks
  · -- `e` moves in front of the items of the keys behind `k`
    obtain ⟨pre, post, rfl⟩ := List.append_of_mem h
    have hk : k ∉ pre ++ post := (List.nodup_cons.1 (List.nodup_middle.1 hks)).1
    have hpre : k ∉ pre := fun hm => hk (List.mem_append_left _ hm)
    have hpost : k ∉ post := fun hm => hk (List.mem_append_right _ hm)
    rw [if_pos h, List.flatMap_append, List.flatMap_cons, List.flatMap_append, List.flatMap_cons,
      others pre hpre, others post hpost, if_pos rfl]
    simp only [List.append_assoc]
    exact ((List.perm_append_comm).append_left _).append_left _
  · rw [if_neg h, List.flatMap_append, others ks h, List.flatMap_singleton, if_pos rfl, hg h,
      List.nil_append]

end FirstSeen

/-! ### Items that come again -/

section Repeats

variable {α β : Type}

/-- The second list is the first, or the first with one of its items once more, anywhere behind the
first occurrence of the item. -/
inductive Repeats : List α → List α → Prop where
  | refl (xs : List α) : Repeats xs xs
  | again {pre post : List α} {x : α} (h : x ∈ pre) : Repeats (pre ++ post) (pre ++ x :: post)

variable {xs ys : List α}

theorem Repeats.filterMap (f : α → Option β) (h : Repeats xs ys) :
    Repeats (xs.filterMap f) (ys.filterMap f) := by
  cases h with
  | refl => exact .refl _
  | @again pre post x hx =>
    rw [List.filterMap_append, List.filterMap_append, List.filterMap_cons]
    cases hf : f x with
    | none => exact .refl _
    | some y => exact .again (List.mem_filterMap.2 ⟨x, hx, hf⟩)

theorem Repeats.filter (p : α → Bool) (h : Repeats xs ys) :
    Repeats (xs.filter p) (ys.filter p) := by
  rw [← List.filterMap_eq_filter]
  exact h.filterMap _

theorem Repeats.mem_iff (h : Repeats xs ys) {x : α} : x ∈ ys ↔ x ∈ xs := by
  cases h with
  | refl => exact Iff.rfl
  | @again pre post y hy =>
    have hxy : x = y → x ∈ pre := fun e => e ▸ hy
    simp only [List.mem_append, List.mem_cons]
    tauto

end Repeats

theorem firstSeen_of_repeats {α κ : Type} [DecidableEq κ] {xs ys : List α} (f : α → κ)
    (h : Repeats xs ys) : firstSeen f ys = firstSeen f xs := by
  cases h with
  | refl => rfl
  | @again pre post x hx =>
    have hfx : f x ∈ pre.map f := List.mem_map_of_mem hx
    rw [firstSeen_append, firstSeen_append, List.map_cons, List.removeAll, List.removeAll,
      List.filter_cons, if_neg (by simpa using hfx)]

end Bindery
