import Bindery.Proofs.Shape.Erasure
import Mathlib.Data.Option.NAry

/-!
# Merging, position by position

A position in a shape is the list of the parts to go down to: a pointee or an element is part 0 of
its shape, and the members of a struct or union are counted from 0. A shape is known from its
erasure and from the tag and the member names at each position. So it can be said at each position
where a merge takes them from, and there is one shape of which that is true.

* `Shape.at?` is the part of a shape at a position, and `Shape.at?_overlay` says what an overlay has
  there;
* `Shape.eq_of_names` : shapes with one erasure and the same names at each position are equal;
* `Shape.mergeSkipping` is the merge that passes equal shapes through at some positions only, and
  `Shape.mergeSkipping_eq` says that it does not matter at which;
* `Shape.merge_by_position` is the main result.
-/

namespace Bindery

/-! ### Parts and names -/

mutual

/-- The part of a shape at a position. -/
def Shape.at? : Shape → List Nat → Option Shape
  | t, [] => some t
  | .pointer t, 0 :: p => t.at? p
  | .array _ t, 0 :: p => t.at? p
  | .composite _ _ ms, n :: p => ms.at? n p
  | _, _ :: _ => none

/-- The part at a position in the member with a number. -/
def Members.at? : Members → Nat → List Nat → Option Shape
  | .nil, _, _ => none
  | .cons _ t _, 0, p => t.at? p
  | .cons _ _ ms, n + 1, p => ms.at? n p

end

namespace Shape

/-- The tag of a struct or union, if it has one. -/
def tag? : Shape → Option String
  | .composite _ tag _ => tag
  | _ => none

/-- The member names of a struct or union. -/
def memberNames? (t : Shape) : Option (List (Option String)) := t.members?.map Members.names

/-- The tag at a position. -/
def tagAt (t : Shape) (p : List Nat) : Option String := (t.at? p).bind tag?

/-- The member names at a position. -/
def memberNamesAt (t : Shape) (p : List Nat) : Option (List (Option String)) :=
  (t.at? p).bind memberNames?

@[simp]
theorem at?_nil (t : Shape) : t.at? [] = some t := by
  cases t <;> simp [at?]

end Shape

mutual

theorem Shape.at?_erase (t : Shape) (p : List Nat) : t.erase.at? p = (t.at? p).map Shape.erase := by
  match t, p with
  | t, [] => simp
  | .void, _ :: _ | .primitive _, _ :: _ | .object, _ :: _ | .classRef, _ :: _
  | .selector, _ :: _ => simp [Shape.erase, Shape.at?]
  | .pointer t, 0 :: p => simp [Shape.erase, Shape.at?, Shape.at?_erase t p]
  | .array _ t, 0 :: p => simp [Shape.erase, Shape.at?, Shape.at?_erase t p]
  | .pointer _, (_ + 1) :: _ | .array _ _, (_ + 1) :: _ => simp [Shape.erase, Shape.at?]
  | .composite _ _ ms, n :: p => simp [Shape.erase, Shape.at?, Members.at?_erase ms n p]

theorem Members.at?_erase (ms : Members) (n : Nat) (p : List Nat) :
    ms.erase.at? n p = (ms.at? n p).map Shape.erase := by
  match ms, n with
  | .nil, _ => simp [Members.erase, Members.at?]
  | .cons _ t _, 0 => simp [Members.erase, Members.at?, Shape.at?_erase t p]
  | .cons _ _ ms, n + 1 => simp [Members.erase, Members.at?, Members.at?_erase ms n p]

end

mutual

/-- Where an overlay has a part, both shapes have one. -/
theorem Shape.at?_overlay {a b : Shape} (h : a.erase = b.erase) (p : List Nat) :
    (a.overlay b).at? p = Option.map₂ Shape.overlay (a.at? p) (b.at? p) := by
  match a, p with
  | a, [] => simp
  | .void, _ :: _ | .primitive _, _ :: _ | .object, _ :: _ | .classRef, _ :: _
  | .selector, _ :: _ => simp [Shape.overlay, Shape.at?]
  | .pointer x, n :: p =>
    cases b with
    | pointer y =>
      have hxy : x.erase = y.erase := by simpa [Shape.erase] using h
      cases n with
      | zero => simp [Shape.overlay, Shape.at?, Shape.at?_overlay hxy p]
      | succ n => simp [Shape.overlay, Shape.at?]
    | _ => simp [Shape.erase] at h
  | .array _ x, n :: p =>
    cases b with
    | array _ y =>
      have hxy : x.erase = y.erase := by
        simp only [Shape.erase, Shape.array.injEq] at h
        exact h.2
      cases n with
      | zero => simp [Shape.overlay, Shape.at?, Shape.at?_overlay hxy p]
      | succ n => simp [Shape.overlay, Shape.at?]
    | _ => simp [Shape.erase] at h
  | .composite _ _ xs, n :: p =>
    cases b with
    | composite _ _ ys =>
      have hxy : xs.erase = ys.erase := by
        simp only [Shape.erase, Shape.composite.injEq] at h
        exact h.2.2
      simp [Shape.overlay, Shape.at?, Members.at?_overlay hxy n p]
    | _ => simp [Shape.erase] at h

theorem Members.at?_overlay {xs ys : Members} (h : xs.erase = ys.erase) (n : Nat) (p : List Nat) :
    (xs.overlay ys).at? n p = Option.map₂ Shape.overlay (xs.at? n p) (ys.at? n p) := by
  match xs, ys with
  | .nil, .nil => simp [Members.overlay, Members.at?]
  | .nil, .cons _ _ _ | .cons _ _ _, .nil => simp [Members.erase] at h
  | .cons _ x xs, .cons _ y ys =>
    simp only [Members.erase, Members.cons.injEq, true_and] at h
    cases n with
    | zero => simp [Members.overlay, Members.at?, Shape.at?_overlay h.1 p]
    | succ n => simp [Members.overlay, Members.at?, Members.at?_overlay h.2 n p]

end

theorem Members.names_overlay (xs ys : Members) : (xs.overlay ys).names = xs.names := by
  cases xs with
  | nil => simp [Members.overlay]
  | cons name x xs =>
    cases ys with
    | nil => simp [Members.overlay]
    | cons _ y ys =>
      have ih : (xs.overlay ys).names = xs.names := Members.names_overlay xs ys
      show name :: (xs.overlay ys).names = name :: xs.names
      rw [ih]

namespace Shape

/-- Shapes with one erasure have their parts at the same positions. -/
theorem at?_of_erase {a b : Shape} (h : a.erase = b.erase) (p : List Nat) :
    (a.at? p = none ∧ b.at? p = none) ∨
      ∃ x y, a.at? p = some x ∧ b.at? p = some y ∧ x.erase = y.erase := by
  have hp : (a.at? p).map erase = (b.at? p).map erase := by rw [← at?_erase, h, at?_erase]
  cases ha : a.at? p <;> cases hb : b.at? p <;> simp_all

theorem tag?_overlay {a b : Shape} (h : a.erase = b.erase) :
    (a.overlay b).tag? = a.tag?.or b.tag? := by
  cases a <;> cases b <;> simp_all [erase, overlay, tag?]

theorem memberNames?_overlay (a b : Shape) : (a.overlay b).memberNames? = a.memberNames? := by
  cases a <;> cases b <;> simp [overlay, memberNames?, members?, Members.names_overlay]

/-- The tags of an overlay are those of the first shape, and those of the second where the first
has none. -/
theorem tagAt_overlay {a b : Shape} (h : a.erase = b.erase) (p : List Nat) :
    (a.overlay b).tagAt p = (a.tagAt p).or (b.tagAt p) := by
  unfold tagAt
  rw [at?_overlay h]
  obtain ⟨ha, hb⟩ | ⟨x, y, ha, hb, hxy⟩ := at?_of_erase h p
  · simp [ha, hb]
  · simp [ha, hb, tag?_overlay hxy]

/-- The member names of an overlay are those of the first shape. -/
theorem memberNamesAt_overlay {a b : Shape} (h : a.erase = b.erase) (p : List Nat) :
    (a.overlay b).memberNamesAt p = a.memberNamesAt p := by
  unfold memberNamesAt
  rw [at?_overlay h]
  obtain ⟨ha, hb⟩ | ⟨x, y, ha, hb, -⟩ := at?_of_erase h p
  · simp [ha, hb]
  · simp [ha, hb, memberNames?_overlay]

end Shape

/-! ### A shape from its names -/

mutual

/-- A shape is known from its erasure and from the names at each position. -/
theorem Shape.eq_of_names {a b : Shape} (h : a.erase = b.erase)
    (ht : ∀ p, a.tagAt p = b.tagAt p) (hn : ∀ p, a.memberNamesAt p = b.memberNamesAt p) :
    a = b := by
  match a with
  | .void | .primitive _ | .object | .classRef | .selector => cases b <;> simp_all [Shape.erase]
  | .pointer x =>
    cases b with
    | pointer y =>
      have hxy : x.erase = y.erase := by simpa [Shape.erase] using h
      exact congrArg _ (Shape.eq_of_names hxy (fun p => ht (0 :: p)) (fun p => hn (0 :: p)))
    | _ => simp [Shape.erase] at h
  | .array m x =>
    cases b with
    | array n y =>
      simp only [Shape.erase, Shape.array.injEq] at h
      obtain ⟨rfl, hxy⟩ := h
      exact congrArg _ (Shape.eq_of_names hxy (fun p => ht (0 :: p)) (fun p => hn (0 :: p)))
    | _ => simp [Shape.erase] at h
  | .composite k s xs =>
    cases b with
    | composite l t ys =>
      simp only [Shape.erase, Shape.composite.injEq, true_and] at h
      obtain ⟨rfl, hxy⟩ := h
      have hst : s = t := ht []
      have hnames : xs.names = ys.names := Option.some.inj (hn [])
      have htp (n : Nat) (p : List Nat) := ht (n :: p)
      have hnp (n : Nat) (p : List Nat) := hn (n :: p)
      simp only [Shape.tagAt, Shape.memberNamesAt, Shape.at?] at htp hnp
      rw [hst, Members.eq_of_names hxy hnames htp hnp]
    | _ => simp [Shape.erase] at h

theorem Members.eq_of_names {xs ys : Members} (h : xs.erase = ys.erase)
    (hnames : xs.names = ys.names)
    (ht : ∀ n p, (xs.at? n p).bind Shape.tag? = (ys.at? n p).bind Shape.tag?)
    (hn : ∀ n p, (xs.at? n p).bind Shape.memberNames? = (ys.at? n p).bind Shape.memberNames?) :
    xs = ys := by
  match xs, ys with
  | .nil, .nil => rfl
  | .nil, .cons _ _ _ | .cons _ _ _, .nil => simp [Members.erase] at h
  | .cons name x xs, .cons name' y ys =>
    simp only [Members.erase, Members.cons.injEq, true_and] at h
    obtain ⟨rfl, hrest⟩ := List.cons.inj hnames
    rw [Shape.eq_of_names h.1 (ht 0) (hn 0),
      Members.eq_of_names h.2 hrest (fun n => ht (n + 1)) (fun n => hn (n + 1))]

end

/-! ### Passing equal shapes through -/

mutual

/-- The merge that takes equal shapes as they are at some positions, and at all others goes on to
their parts. -/
def Shape.mergeSkipping (skip : List Nat → Bool) (a b : Shape) : Except MergeError Shape :=
  if skip [] ∧ a = b then .ok a
  else
    match a, b with
    | .pointer x, .pointer y => .pointer <$> x.mergeSkipping (fun p => skip (0 :: p)) y
    | .composite k s xs, .composite l t ys =>
      if k = l then
        if xs.length = ys.length then
          .composite k (s.or t) <$> xs.mergeSkipping (fun n p => skip (n :: p)) ys
        else .error ⟨a, b, .arities xs.length ys.length⟩
      else .error ⟨a, b, .kinds a.kind b.kind⟩
    | .array m x, .array n y =>
      if m = n then .array m <$> x.mergeSkipping (fun p => skip (0 :: p)) y
      else .error ⟨a, b, .lengths m n⟩
    | .primitive p, .primitive q => if p = q then .ok a else .error ⟨a, b, .primitives p q⟩
    -- shapes without parts, or of different kinds: there is nothing to go on to
    | a, b => if a = b then .ok a else .error ⟨a, b, .kinds a.kind b.kind⟩

/-- Merges members position by position, up to the first pair that disagrees. -/
def Members.mergeSkipping (skip : Nat → List Nat → Bool) :
    Members → Members → Except MergeError Members
  | .cons name x xs, .cons _ y ys => do
    let z ← x.mergeSkipping (skip 0) y
    let zs ← xs.mergeSkipping (fun n => skip (n + 1)) ys
    return .cons name z zs
  | _, _ => .ok .nil

end

mutual

/-- It does not matter where a merge takes equal shapes as they are. -/
theorem Shape.mergeSkipping_eq (skip : List Nat → Bool) (a b : Shape) :
    a.mergeSkipping skip b = a.merge b := by
  rw [Shape.mergeSkipping.eq_def]
  split
  · next h => rw [h.2, Shape.merge_self]
  · match a with
    | .void | .object | .classRef | .selector =>
      cases b <;> rw [Shape.merge.eq_def]
    | .primitive p =>
      rw [Shape.merge.eq_def]
      cases b with
      | primitive q => by_cases h : p = q <;> simp [h]
      | _ => rfl
    | .pointer x =>
      cases b with
      | pointer y =>
        show Shape.pointer <$> x.mergeSkipping _ y = _
        rw [Shape.mergeSkipping_eq _ x y, Shape.merge_pointer]
      | _ => rw [Shape.merge.eq_def]
    | .array m x =>
      cases b with
      | array n y =>
        show (if m = n then Shape.array m <$> x.mergeSkipping _ y else _) = _
        rw [Shape.mergeSkipping_eq _ x y, Shape.merge_array]
      | _ => rw [Shape.merge.eq_def]
    | .composite k s xs =>
      cases b with
      | composite l t ys =>
        show (if k = l then
          if xs.length = ys.length then Shape.composite k (s.or t) <$> xs.mergeSkipping _ ys
          else _ else _) = _
        rw [Members.mergeSkipping_eq _ xs ys, Shape.merge_composite]
        rfl
      | _ => rw [Shape.merge.eq_def]

theorem Members.mergeSkipping_eq (skip : Nat → List Nat → Bool) (xs ys : Members) :
    xs.mergeSkipping skip ys = xs.merge ys := by
  match xs, ys with
  | .nil, _ | .cons _ _ _, .nil => simp [Members.mergeSkipping, Members.merge]
  | .cons name x xs, .cons _ y ys =>
    rw [Members.mergeSkipping, Members.merge, Shape.mergeSkipping_eq _ x y,
      Members.mergeSkipping_eq _ xs ys]

end

/-! ### The result of a merge -/

/-- The shape `c` has the erasure of `a`, and at each position the tag of `a`, or that of `b` where
`a` has none, and the member names of `a`. -/
structure Shape.NamedAfter (c a b : Shape) : Prop where
  erase : c.erase = a.erase
  tag : ∀ p, c.tagAt p = (a.tagAt p).or (b.tagAt p)
  memberNames : ∀ p, c.memberNamesAt p = a.memberNamesAt p

theorem Shape.overlay_namedAfter {a b : Shape} (h : a.erase = b.erase) :
    (a.overlay b).NamedAfter a b where
  erase := a.erase_overlay b
  tag := tagAt_overlay h
  memberNames := memberNamesAt_overlay h

theorem Shape.namedAfter_iff {a b c : Shape} (h : a.erase = b.erase) :
    c.NamedAfter a b ↔ a.overlay b = c := by
  constructor
  · intro hc
    have ho := overlay_namedAfter h
    exact Shape.eq_of_names (ho.erase.trans hc.erase.symm)
      (fun p => (ho.tag p).trans (hc.tag p).symm)
      (fun p => (ho.memberNames p).trans (hc.memberNames p).symm)
  · rintro rfl
    exact overlay_namedAfter h

/-- **What a merge gives, position by position.** Two shapes merge exactly when their erasures are
equal. They merge into the one shape with that erasure that has, at each position, the tag of the
first or else of the second, and the member names of the first. It does not matter at which
positions equal shapes are taken as they are, and neither does it for shapes that other types
hold. -/
theorem Shape.merge_by_position (a b : Shape) :
    ((∃ c, a.merge b = .ok c) ↔ a.erase = b.erase) ∧
      (∀ c, a.merge b = .ok c ↔ a.erase = b.erase ∧ c.NamedAfter a b) ∧
      (∀ skip, a.mergeSkipping skip b = a.merge b) ∧
      a.mergeShared b = a.merge b := by
  refine ⟨?_, fun c => ?_, fun skip => a.mergeSkipping_eq skip b, a.mergeShared_eq b⟩
  · simp [Shape.merge_eq_ok_iff]
  · rw [Shape.merge_eq_ok_iff]
    exact and_congr_right fun h => (namedAfter_iff h).symm

/-- A tag that only the second shape has is taken over, a member name that only the second has is
not. -/
example :
    (Shape.composite .struct none (.cons none (.primitive .int) .nil)).merge
        (.composite .struct (some "P") (.cons (some "x") (.primitive .int) .nil)) =
      .ok (.composite .struct (some "P") (.cons none (.primitive .int) .nil)) := by
  rfl

end Bindery
