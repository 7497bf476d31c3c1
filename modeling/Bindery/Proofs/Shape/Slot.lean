import Bindery.Proofs.Shape.Absorption

/-!
# Taking shapes in one by one

The shapes that are seen in one place are merged one by one. One that cannot be merged is reported,
and the place is empty then, so the next shape is taken in whatever it is.

* `Shape.takeIn` is what one shape does;
* `Shape.sinceConflict` lists those of some shapes that come behind the last one that could not be
  merged;
* `Shape.takeIn_of_head`, `Shape.takeIn_of_not_head` : whether an overlay of shapes takes one more
  in depends on the first of them.
-/

namespace Bindery

namespace Shape

/-- What a slot holds after one more shape, and the error if that cannot be merged. -/
def takeIn (slot : Option Shape) (t : Shape) : Option Shape × Option MergeError :=
  match slot with
  | none => (some t, none)
  | some u =>
    match u.merge t with
    | .ok merged => (some merged, none)
    | .error e => (none, some e)

/-- One more shape behind those since the last conflict. It is a conflict itself if it differs from
the first of them in more than names. -/
def goOn (ts : List Shape) (t : Shape) : List Shape :=
  if ∀ u ∈ ts.head?, u.erase = t.erase then ts ++ [t] else []

/-- The shapes that come behind the last conflict. -/
def sinceConflict (ts : List Shape) : List Shape := ts.foldl goOn []

variable {ts : List Shape} {t u : Shape}

theorem sinceConflict_append_singleton (ts : List Shape) (t : Shape) :
    sinceConflict (ts ++ [t]) = goOn (sinceConflict ts) t := by
  rw [sinceConflict, List.foldl_append, List.foldl_cons, List.foldl_nil, sinceConflict]

/-- Up to the first conflict these are all shapes. -/
theorem sinceConflict_of_alike (h : Alike ts) : sinceConflict ts = ts := by
  induction ts using List.reverseRecOn with
  | nil => rfl
  | append_singleton ts t ih =>
    obtain ⟨hts, hhead⟩ := alike_append_singleton.1 h
    rw [sinceConflict_append_singleton, ih hts, goOn, if_pos hhead]

theorem erase_of_overlayAll (h : overlayAll ts = some u) : ∃ v ∈ ts.head?, v.erase = u.erase := by
  cases ts with
  | nil => simp [overlayAll] at h
  | cons v ts =>
    obtain rfl : ts.foldl overlay v = u := by simpa [overlayAll] using h
    exact ⟨v, rfl, (erase_foldl_overlay v ts).symm⟩

/-- A shape like the first one in the slot is overlaid on what the slot holds. -/
theorem takeIn_of_head (h : ∀ u ∈ ts.head?, u.erase = t.erase) :
    takeIn (overlayAll ts) t = (overlayAll (ts ++ [t]), none) := by
  cases hu : overlayAll ts with
  | none => simp [overlayAll_eq_none_iff.1 hu, takeIn, overlayAll]
  | some u =>
    obtain ⟨v, hv, hvu⟩ := erase_of_overlayAll hu
    have hmerge : u.merge t = .ok (u.overlay t) :=
      (merge_eq_ok_iff u t).2 ⟨hvu.symm.trans (h v hv), rfl⟩
    simp only [takeIn, hmerge, overlayAll_append_singleton hu]

/-- Any other shape is reported, and the slot is empty. -/
theorem takeIn_of_not_head (h : ∃ u ∈ ts.head?, u.erase ≠ t.erase) :
    ∃ u e, overlayAll ts = some u ∧ u.merge t = .error e ∧
      takeIn (overlayAll ts) t = (none, some e) := by
  obtain ⟨v, hv, hvt⟩ := h
  cases hu : overlayAll ts with
  | none => simp [overlayAll_eq_none_iff.1 hu] at hv
  | some u =>
    obtain ⟨v', hv', hvu⟩ := erase_of_overlayAll hu
    obtain rfl : v = v' := Option.some.inj (hv.symm.trans hv')
    cases hm : u.merge t with
    | ok c => exact absurd (hvu.trans ((merge_eq_ok_iff u t).1 hm).1) hvt
    | error e => exact ⟨u, e, rfl, hm, by simp only [takeIn, hm]⟩

theorem takeIn_overlayAll (ts : List Shape) (t : Shape) :
    (takeIn (overlayAll ts) t).1 = overlayAll (goOn ts t) := by
  by_cases h : ∀ u ∈ ts.head?, u.erase = t.erase
  · rw [takeIn_of_head h, goOn, if_pos h]
  · obtain ⟨u, e, -, -, htake⟩ := takeIn_of_not_head (t := t) (by simpa using h)
    rw [htake, goOn, if_neg h]
    rfl

end Shape

end Bindery
