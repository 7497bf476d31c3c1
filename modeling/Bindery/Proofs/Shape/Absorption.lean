import Bindery.Proofs.FirstSeen
import Bindery.Proofs.Shape.Erasure

/-!
# A shape that comes again adds nothing

A shape that was overlaid once has given all the tags it has. When it comes again, at once or behind
other shapes, the overlay stays as it is.

* `Shape.overlay_assoc`, `Shape.overlay_overlay_self` : the laws of overlaying, which is not
  commutative;
* `Shape.Absorbs` says that a shape has nothing to add to another, and
  `Shape.absorbs_foldl_of_mem` that an overlay absorbs each of its parts;
* `Shape.Echoes` says that a list of shapes is another one with at most one more, which was absorbed
  by then, and `Shape.overlayAll_of_echoes` that both have one overlay.
-/

namespace Bindery

/-! ### Laws of overlaying -/

mutual

theorem Shape.overlay_assoc {a b : Shape} (c : Shape) (h : a.erase = b.erase) :
    (a.overlay b).overlay c = a.overlay (b.overlay c) := by
  match a with
  | .void | .primitive _ | .object | .classRef | .selector => simp [Shape.overlay]
  | .pointer x =>
    cases b with
    | pointer y =>
      have hxy : x.erase = y.erase := by simpa [Shape.erase] using h
      cases c with
      | pointer z => simp [Shape.overlay, Shape.overlay_assoc z hxy]
      | _ => simp [Shape.overlay]
    | _ => simp [Shape.erase] at h
  | .array _ x =>
    cases b with
    | array _ y =>
      have hxy : x.erase = y.erase := by
        simp only [Shape.erase, Shape.array.injEq] at h
        exact h.2
      cases c with
      | array _ z => simp [Shape.overlay, Shape.overlay_assoc z hxy]
      | _ => simp [Shape.overlay]
    | _ => simp [Shape.erase] at h
  | .composite _ s xs =>
    cases b with
    | composite _ t ys =>
      have hxy : xs.erase = ys.erase := by
        simp only [Shape.erase, Shape.composite.injEq] at h
        exact h.2.2
      cases c with
      | composite _ u zs => simp [Shape.overlay, Option.or_assoc, Members.overlay_assoc zs hxy]
      | _ => simp [Shape.overlay]
    | _ => simp [Shape.erase] at h

theorem Members.overlay_assoc {xs ys : Members} (zs : Members) (h : xs.erase = ys.erase) :
    (xs.overlay ys).overlay zs = xs.overlay (ys.overlay zs) := by
  match xs, ys with
  | .nil, _ => simp [Members.overlay]
  | .cons _ _ _, .nil => simp [Members.erase] at h
  | .cons _ x xs, .cons _ y ys =>
    simp only [Members.erase, Members.cons.injEq, true_and] at h
    match zs with
    | .nil => simp [Members.overlay]
    | .cons _ z zs =>
      simp [Members.overlay, Shape.overlay_assoc z h.1, Members.overlay_assoc zs h.2]

end

mutual

/-- The first operand adds nothing when it comes again. -/
theorem Shape.overlay_overlay_self (a b : Shape) : (a.overlay b).overlay a = a.overlay b := by
  match a with
  | .void | .primitive _ | .object | .classRef | .selector => simp [Shape.overlay]
  | .pointer x =>
    cases b with
    | pointer y => simp [Shape.overlay, Shape.overlay_overlay_self x y]
    | _ => simp [Shape.overlay]
  | .array _ x =>
    cases b with
    | array _ y => simp [Shape.overlay, Shape.overlay_overlay_self x y]
    | _ => simp [Shape.overlay]
  | .composite _ s xs =>
    cases b with
    | composite _ t ys =>
      have htag : (s.or t).or s = s.or t := by cases s <;> cases t <;> rfl
      simp [Shape.overlay, htag, Members.overlay_overlay_self xs ys]
    | _ => simp [Shape.overlay]

theorem Members.overlay_overlay_self (xs ys : Members) :
    (xs.overlay ys).overlay xs = xs.overlay ys := by
  match xs, ys with
  | .nil, _ => simp [Members.overlay]
  | .cons _ _ _, .nil => simp [Members.overlay]
  | .cons _ x xs, .cons _ y ys =>
    simp [Members.overlay, Shape.overlay_overlay_self x y, Members.overlay_overlay_self xs ys]

end

/-! ### Absorption -/

namespace Shape

/-- The second shape is equal to the first but for names, and has no tag that the first lacks. -/
structure Absorbs (u t : Shape) : Prop where
  erase_eq : u.erase = t.erase
  overlay_eq : u.overlay t = u

variable {t u v : Shape} {ts us : List Shape}

theorem Alike.subset (h : Alike ts) (hs : us ⊆ ts) : Alike us :=
  fun a ha b hb => h a (hs ha) b (hs hb)

theorem absorbs_self (t : Shape) : t.Absorbs t := ⟨rfl, overlay_self t⟩

theorem Absorbs.trans (h : u.Absorbs t) (h' : t.Absorbs v) : u.Absorbs v where
  erase_eq := h.erase_eq.trans h'.erase_eq
  overlay_eq := calc
    u.overlay v = (u.overlay t).overlay v := by rw [h.overlay_eq]
    _ = u.overlay (t.overlay v) := overlay_assoc v h.erase_eq
    _ = u := by rw [h'.overlay_eq, h.overlay_eq]

/-- What a shape has absorbed it still absorbs after one more shape. -/
theorem Absorbs.overlay_left (h : u.Absorbs t) (v : Shape) : (u.overlay v).Absorbs t where
  erase_eq := by rw [erase_overlay, h.erase_eq]
  overlay_eq := by
    have hut := h.erase_eq
    calc (u.overlay v).overlay t
        = ((u.overlay t).overlay v).overlay t := by rw [h.overlay_eq]
      _ = (u.overlay (t.overlay v)).overlay t := by rw [overlay_assoc v hut]
      _ = u.overlay ((t.overlay v).overlay t) := overlay_assoc t (by rw [erase_overlay, hut])
      _ = u.overlay (t.overlay v) := by rw [overlay_overlay_self]
      _ = (u.overlay t).overlay v := (overlay_assoc v hut).symm
      _ = u.overlay v := by rw [h.overlay_eq]

/-- An overlay of alike shapes absorbs each of them. -/
theorem absorbs_foldl_of_mem (h : Alike (u :: ts)) (ht : t ∈ u :: ts) :
    (ts.foldl overlay u).Absorbs t := by
  induction ts using List.reverseRecOn with
  | nil =>
    obtain rfl := List.mem_singleton.1 ht
    exact absorbs_self t
  | append_singleton ts v ih =>
    rw [List.foldl_append, List.foldl_cons, List.foldl_nil]
    rw [← List.cons_append, List.mem_append, List.mem_singleton] at ht
    rcases ht with ht | rfl
    · -- the shape was absorbed before the last one came
      have hsub : u :: ts ⊆ u :: (ts ++ [v]) := by simp
      exact (ih (h.subset hsub) ht).overlay_left v
    · have hu : (ts.foldl overlay u).erase = t.erase := by
        rw [erase_foldl_overlay]
        exact h u (by simp) t (by simp)
      refine ⟨by rw [erase_overlay, hu], ?_⟩
      rw [overlay_assoc t hu, overlay_self]

/-- A shape that absorbs some shapes absorbs their overlay. -/
theorem absorbs_foldl (ht : u.Absorbs t) (hts : ∀ v ∈ ts, u.Absorbs v) :
    u.Absorbs (ts.foldl overlay t) := by
  induction ts generalizing t with
  | nil => exact ht
  | cons v ts ih =>
    obtain ⟨hv, hts⟩ := List.forall_mem_cons.1 hts
    have htv : t.erase = v.erase := ht.erase_eq.symm.trans hv.erase_eq
    refine ih ⟨by rw [erase_overlay, ht.erase_eq], ?_⟩ hts
    rw [← overlay_assoc v ht.erase_eq, ht.overlay_eq, hv.overlay_eq]

/-- The overlay of some shapes absorbs the overlay of the same shapes in another order. -/
theorem overlayAll_absorbs (h : Alike ts) (hmem : ∀ t, t ∈ us ↔ t ∈ ts) :
    Option.Rel Absorbs (overlayAll ts) (overlayAll us) := by
  match ts, us with
  | [], [] => exact .none
  | [], u :: us => exact absurd ((hmem u).1 (by simp)) (by simp)
  | t :: ts, [] => exact absurd ((hmem t).2 (by simp)) (by simp)
  | t :: ts, u :: us =>
    have part : ∀ v ∈ u :: us, (ts.foldl overlay t).Absorbs v :=
      fun v hv => absorbs_foldl_of_mem h ((hmem v).1 hv)
    obtain ⟨hu, hus⟩ := List.forall_mem_cons.1 part
    exact .some (absorbs_foldl hu hus)

/-! ### Echoes in a list of shapes -/

/-- The second list is the first, or the first with one more shape that one before it absorbs. -/
inductive Echoes : List Shape → List Shape → Prop where
  | refl (ts : List Shape) : Echoes ts ts
  | more {pre post : List Shape} {u t : Shape} (hu : u ∈ pre) (h : u.Absorbs t) :
      Echoes (pre ++ post) (pre ++ t :: post)

theorem echoes_of_repeats (h : Repeats ts us) : Echoes ts us := by
  cases h with
  | refl => exact .refl _
  | again ht => exact .more ht (absorbs_self _)

theorem Echoes.head? (h : Echoes ts us) : us.head? = ts.head? := by
  cases h with
  | refl => rfl
  | more hu _ =>
    obtain ⟨v, pre, rfl⟩ := List.exists_cons_of_ne_nil (List.ne_nil_of_mem hu)
    rfl

theorem Alike.of_echoes (ha : Alike ts) (h : Echoes ts us) : Alike us := by
  cases h with
  | refl => exact ha
  | @more pre post u t hu ht =>
    have hu' : u ∈ pre ++ post := List.mem_append_left _ hu
    have key : ∀ v ∈ pre ++ t :: post, v.erase = u.erase := by
      intro v hv
      rcases List.mem_append.1 hv with hv | hv
      · exact ha v (List.mem_append_left _ hv) u hu'
      · rcases List.mem_cons.1 hv with rfl | hv
        · exact ht.erase_eq.symm
        · exact ha v (List.mem_append_right _ hv) u hu'
    exact fun a ha b hb => (key a ha).trans (key b hb).symm

/-- **Shapes that were absorbed do not change the overlay.** -/
theorem overlayAll_of_echoes (h : Echoes ts us) (ha : Alike ts) :
    overlayAll us = overlayAll ts := by
  cases h with
  | refl => rfl
  | @more pre post u t hu ht =>
    obtain ⟨v, pre, rfl⟩ := List.exists_cons_of_ne_nil (List.ne_nil_of_mem hu)
    have hpre : Alike (v :: pre) := ha.subset (List.subset_append_left _ _)
    have habsorb := (absorbs_foldl_of_mem hpre hu).trans ht
    simp only [List.cons_append, overlayAll, List.foldl_append, List.foldl_cons]
    rw [habsorb.overlay_eq]

end Shape

end Bindery
