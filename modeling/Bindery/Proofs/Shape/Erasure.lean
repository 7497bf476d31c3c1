import Bindery.Except
import Bindery.Shape.Merge
import Mathlib.Logic.Basic

/-!
# Merging as overlaying

What two declarations of one type must agree on is their shape without its tags and member names,
`Shape.erase`. Where they agree, the second can add nothing to the first but tags, and
`Shape.overlay` adds them.

* `Shape.merge_eq_ok_iff` : two shapes merge exactly when their erasures are equal, and then into
  the overlay;
* `Shape.Alike` says that some shapes have one erasure, and `Shape.overlayAll` overlays them;
* `Shape.alike_append_singleton` : all shapes stay alike with one more exactly if that is like the
  first of them.
-/

namespace Bindery

mutual

/-- The shape without its tags and member names. -/
def Shape.erase : Shape → Shape
  | .pointer t => .pointer t.erase
  | .composite k _ ms => .composite k none ms.erase
  | .array n t => .array n t.erase
  | .void => .void
  | .primitive p => .primitive p
  | .object => .object
  | .classRef => .classRef
  | .selector => .selector

/-- The members without their names, and their shapes without theirs. -/
def Members.erase : Members → Members
  | .nil => .nil
  | .cons _ t ms => .cons none t.erase ms.erase

end

mutual

/-- The first of two shapes, with the tags of the second where it has none. It is meant for shapes
with equal erasures. -/
def Shape.overlay : Shape → Shape → Shape
  | .pointer x, .pointer y => .pointer (x.overlay y)
  | .composite k s xs, .composite _ t ys => .composite k (s.or t) (xs.overlay ys)
  | .array n x, .array _ y => .array n (x.overlay y)
  | a, _ => a

/-- Overlays members position by position. -/
def Members.overlay : Members → Members → Members
  | .cons name x xs, .cons _ y ys => .cons name (x.overlay y) (xs.overlay ys)
  | xs, _ => xs

end

/-! ### Erasure and overlay -/

theorem Members.length_erase (ms : Members) : ms.erase.length = ms.length := by
  cases ms with
  | nil => rfl
  | cons _ _ rest => simp [Members.erase, Members.length, length_erase rest]

theorem Members.length_eq_of_erase {xs ys : Members} (h : xs.erase = ys.erase) :
    xs.length = ys.length := by
  rw [← xs.length_erase, h, ys.length_erase]

mutual

@[simp]
theorem Shape.overlay_self (a : Shape) : a.overlay a = a := by
  match a with
  | .void | .primitive _ | .object | .classRef | .selector => simp [Shape.overlay]
  | .pointer x => simp [Shape.overlay, Shape.overlay_self x]
  | .array _ x => simp [Shape.overlay, Shape.overlay_self x]
  | .composite _ _ xs => simp [Shape.overlay, Members.overlay_self xs]

@[simp]
theorem Members.overlay_self (xs : Members) : xs.overlay xs = xs := by
  match xs with
  | .nil => simp [Members.overlay]
  | .cons _ x xs => simp [Members.overlay, Shape.overlay_self x, Members.overlay_self xs]

end

mutual

@[simp]
theorem Shape.erase_overlay (a b : Shape) : (a.overlay b).erase = a.erase := by
  match a with
  | .void | .primitive _ | .object | .classRef | .selector => simp [Shape.overlay]
  | .pointer x =>
    cases b with
    | pointer y => simp [Shape.overlay, Shape.erase, Shape.erase_overlay x y]
    | _ => simp [Shape.overlay]
  | .array _ x =>
    cases b with
    | array _ y => simp [Shape.overlay, Shape.erase, Shape.erase_overlay x y]
    | _ => simp [Shape.overlay]
  | .composite _ _ xs =>
    cases b with
    | composite _ _ ys => simp [Shape.overlay, Shape.erase, Members.erase_overlay xs ys]
    | _ => simp [Shape.overlay]

@[simp]
theorem Members.erase_overlay (xs ys : Members) : (xs.overlay ys).erase = xs.erase := by
  match xs, ys with
  | .nil, _ => simp [Members.overlay]
  | .cons _ _ _, .nil => simp [Members.overlay]
  | .cons _ x xs, .cons _ y ys =>
    simp [Members.overlay, Members.erase, Shape.erase_overlay x y, Members.erase_overlay xs ys]

end

/-! ### The merge

That equal shapes are passed through at any depth changes nothing: the equations below hold of
equal operands too. -/

theorem Members.merge_self (xs : Members) : xs.merge xs = .ok xs := by
  match xs with
  | .nil => rfl
  | .cons name x xs =>
    rw [Members.merge, Shape.merge_self, Members.merge_self xs]
    rfl

theorem Shape.merge_pointer (x y : Shape) :
    (Shape.pointer x).merge (.pointer y) = .pointer <$> x.merge y := by
  by_cases h : x = y
  · subst h
    rw [Shape.merge_self, Shape.merge_self]
    rfl
  · rw [Shape.merge.eq_def, if_neg (by simpa using h)]
    rfl

theorem Shape.merge_array (m n : UInt32) (x y : Shape) :
    (Shape.array m x).merge (.array n y) =
      if m = n then .array m <$> x.merge y
      else .error ⟨.array m x, .array n y, .lengths m n⟩ := by
  by_cases h : Shape.array m x = .array n y
  · obtain ⟨rfl, rfl⟩ := Shape.array.inj h
    rw [if_pos rfl, Shape.merge_self, Shape.merge_self]
    rfl
  · rw [Shape.merge.eq_def, if_neg h]
    rfl

theorem Shape.merge_composite (k l : CompositeKind) (s t : Option String) (xs ys : Members) :
    (Shape.composite k s xs).merge (.composite l t ys) =
      if k = l then
        if xs.length = ys.length then .composite k (s.or t) <$> xs.merge ys
        else .error ⟨.composite k s xs, .composite l t ys, .arities xs.length ys.length⟩
      else .error ⟨.composite k s xs, .composite l t ys, .kinds k.shapeKind l.shapeKind⟩ := by
  by_cases h : Shape.composite k s xs = .composite l t ys
  · obtain ⟨rfl, rfl, rfl⟩ := Shape.composite.inj h
    rw [if_pos rfl, if_pos rfl, Shape.merge_self, Members.merge_self, Option.or_self]
    rfl
  · rw [Shape.merge.eq_def, if_neg h]
    cases s <;> rfl

theorem Shape.merge_primitive (p q : Primitive) :
    (Shape.primitive p).merge (.primitive q) =
      if p = q then .ok (.primitive p)
      else .error ⟨.primitive p, .primitive q, .primitives p q⟩ := by
  rw [Shape.merge.eq_def]
  by_cases h : p = q <;> simp [h]

theorem Shape.merge_of_kind_ne {a b : Shape} (h : a.kind ≠ b.kind) :
    a.merge b = .error ⟨a, b, .kinds a.kind b.kind⟩ := by
  have hne : a ≠ b := fun e => h (congrArg Shape.kind e)
  rw [Shape.merge.eq_def, if_neg hne]
  cases a <;> cases b <;>
    first | rfl | exact absurd rfl h | exact if_neg fun e => h (congrArg CompositeKind.shapeKind e)

theorem Members.merge_cons (name name' : Option String) (x y : Shape) (xs ys : Members) :
    (Members.cons name x xs).merge (.cons name' y ys) =
      x.merge y >>= fun z => .cons name z <$> xs.merge ys := by
  rw [Members.merge]
  rfl

mutual

/-- **Merging is overlaying.** Two shapes merge exactly when they are equal but for names, and the
merged shape is the first with the tags that only the second has. -/
theorem Shape.merge_eq_ok_iff (a b : Shape) {c : Shape} :
    a.merge b = .ok c ↔ a.erase = b.erase ∧ a.overlay b = c := by
  match a with
  | .void | .object | .classRef | .selector =>
    rw [Shape.merge.eq_def]
    cases b <;> simp [Shape.erase, Shape.overlay]
  | .primitive p =>
    rw [Shape.merge.eq_def]
    cases b with
    | primitive q => by_cases h : p = q <;> simp [Shape.erase, Shape.overlay, h]
    | _ => simp [Shape.erase]
  | .pointer x =>
    cases b with
    | pointer y =>
      rw [Shape.merge_pointer, map_eq_ok_iff]
      simp [Shape.erase, Shape.overlay, Shape.merge_eq_ok_iff x y, and_assoc]
    | _ => simp [Shape.merge.eq_def, Shape.erase]
  | .array m x =>
    cases b with
    | array n y =>
      rw [Shape.merge_array]
      by_cases hn : m = n
      · rw [if_pos hn, map_eq_ok_iff]
        simp [Shape.erase, Shape.overlay, hn, Shape.merge_eq_ok_iff x y, and_assoc]
      · simp [Shape.erase, hn]
    | _ => simp [Shape.merge.eq_def, Shape.erase]
  | .composite k s xs =>
    cases b with
    | composite l t ys =>
      rw [Shape.merge_composite]
      by_cases hk : k = l
      · by_cases hl : xs.length = ys.length
        · rw [if_pos hk, if_pos hl, map_eq_ok_iff]
          simp [Shape.erase, Shape.overlay, hk, Members.merge_eq_ok_iff hl, and_assoc]
        · have he : xs.erase ≠ ys.erase := mt Members.length_eq_of_erase hl
          simp [Shape.erase, hk, hl, he]
      · simp [Shape.erase, hk]
    | _ => simp [Shape.merge.eq_def, Shape.erase]

theorem Members.merge_eq_ok_iff {xs ys : Members} (h : xs.length = ys.length) {zs : Members} :
    xs.merge ys = .ok zs ↔ xs.erase = ys.erase ∧ xs.overlay ys = zs := by
  match xs, ys with
  | .nil, .nil => simp [Members.merge, Members.overlay]
  | .nil, .cons _ _ _ | .cons _ _ _, .nil => simp [Members.length] at h
  | .cons name x xs, .cons _ y ys =>
    have hl : xs.length = ys.length := by simpa [Members.length] using h
    simp only [Members.merge_cons, bind_eq_ok_iff, map_eq_ok_iff,
      Shape.merge_eq_ok_iff x y, Members.merge_eq_ok_iff hl, Members.erase, Members.overlay,
      Members.cons.injEq, true_and]
    constructor
    · rintro ⟨_, ⟨ex, rfl⟩, _, ⟨exs, rfl⟩, rfl⟩
      exact ⟨⟨ex, exs⟩, rfl⟩
    · rintro ⟨⟨ex, exs⟩, rfl⟩
      exact ⟨_, ⟨ex, rfl⟩, _, ⟨exs, rfl⟩, rfl⟩

end

/-! ### Several shapes -/

namespace Shape

/-- The shapes are equal but for names. -/
def Alike (ts : List Shape) : Prop := ∀ a ∈ ts, ∀ b ∈ ts, a.erase = b.erase

/-- The shapes overlaid one by one. There is none of no shapes. -/
def overlayAll : List Shape → Option Shape
  | [] => none
  | t :: ts => some (ts.foldl overlay t)

theorem overlayAll_eq_none_iff {ts : List Shape} : overlayAll ts = none ↔ ts = [] := by
  cases ts <;> simp [overlayAll]

theorem erase_foldl_overlay (t : Shape) (ts : List Shape) :
    (ts.foldl overlay t).erase = t.erase := by
  induction ts generalizing t with
  | nil => rfl
  | cons u ts ih => rw [List.foldl_cons, ih, erase_overlay]

theorem alike_cons {t : Shape} {ts : List Shape} :
    Alike (t :: ts) ↔ ∀ u ∈ ts, t.erase = u.erase := by
  constructor
  · intro h u hu
    exact h t (by simp) u (by simp [hu])
  · intro h a ha b hb
    have key : ∀ c ∈ t :: ts, t.erase = c.erase := by
      intro c hc
      rcases List.mem_cons.1 hc with rfl | hc
      · rfl
      · exact h c hc
    exact (key a ha).symm.trans (key b hb)

theorem alike_append_singleton {ts : List Shape} {t : Shape} :
    Alike (ts ++ [t]) ↔ Alike ts ∧ ∀ u ∈ ts.head?, u.erase = t.erase := by
  cases ts with
  | nil => simp [Alike]
  | cons v ts =>
    rw [List.cons_append, alike_cons, alike_cons]
    simp only [List.mem_append, List.mem_singleton, List.head?_cons, Option.mem_some, forall_eq']
    constructor
    · exact fun hv => ⟨fun a ha => hv a (.inl ha), hv t (.inr rfl)⟩
    · rintro ⟨hv, ht⟩ a (ha | rfl)
      · exact hv a ha
      · exact ht

theorem overlayAll_append_singleton {ts : List Shape} {t u : Shape} (h : overlayAll ts = some u) :
    overlayAll (ts ++ [t]) = some (u.overlay t) := by
  cases ts with
  | nil => simp [overlayAll] at h
  | cons v ts =>
    obtain rfl : ts.foldl overlay v = u := by simpa [overlayAll] using h
    simp [overlayAll]

end Shape

end Bindery
