import Bindery.Shape.Encoding

/-!
# Merging shapes

Two declarations of one type on the same binary interface may describe it with different care: one
names the members of a struct, the other does not; one names the tag, the other leaves it out.
`Shape.merge` reconciles two such shapes, or says where they disagree. Nothing is widened or
coerced: two different primitives are a disagreement.

The merged shape takes every member name from the first shape and every tag from the first shape
that has one. `MergeError` reports the innermost pair of shapes that disagree.

`Shape.mergeShared` is the same for shapes that several types hold.
-/

namespace Bindery

/-- How two shapes disagree at their outermost level. -/
inductive Conflict where
  /-- They are of different kinds. -/
  | kinds (left right : ShapeKind)
  /-- They are composites of one kind with different numbers of members. -/
  | arities (left right : Nat)
  /-- They are different primitives. -/
  | primitives (left right : Primitive)
  /-- They are arrays of different lengths. -/
  | lengths (left right : UInt32)
deriving DecidableEq, Repr

/-- Two shapes that cannot be merged because of how they differ at their outermost level. -/
structure MergeError where
  left : Shape
  right : Shape
  conflict : Conflict
deriving DecidableEq

/-- The text of a conflict. -/
def Conflict.message : Conflict → String
  | .kinds l r => l.label ++ " cannot merge with " ++ r.label
  | .arities l r => "member count differs (" ++ toString l ++ " vs " ++ toString r ++ ")"
  | .primitives l r => "primitive `" ++ l.code ++ "` conflicts with `" ++ r.code ++ "`"
  | .lengths l r =>
    "array length differs (" ++ toString l.toNat ++ " vs " ++ toString r.toNat ++ ")"

/-- The text of a merge error. -/
def MergeError.message (e : MergeError) : String :=
  "cannot merge `" ++ e.left.encode ++ "` with `" ++ e.right.encode ++ "`: " ++ e.conflict.message

mutual

/-- Merges two shapes of one type: member names come from the first, tags from the first that has
one. Equal shapes merge to themselves. -/
def Shape.merge (a b : Shape) : Except MergeError Shape :=
  if a = b then .ok a
  else
    match a, b with
    | .pointer x, .pointer y => return .pointer (← x.merge y)
    | .composite k s xs, .composite l t ys =>
      if k = l then
        if xs.length = ys.length then return .composite k (s <|> t) (← xs.merge ys)
        else .error ⟨a, b, .arities xs.length ys.length⟩
      else .error ⟨a, b, .kinds a.kind b.kind⟩
    | .array m x, .array n y =>
      if m = n then return .array m (← x.merge y)
      else .error ⟨a, b, .lengths m n⟩
    | .primitive p, .primitive q => .error ⟨a, b, .primitives p q⟩
    | _, _ => .error ⟨a, b, .kinds a.kind b.kind⟩

/-- Merges members position by position, up to the first pair that disagrees. -/
def Members.merge : Members → Members → Except MergeError Members
  | .cons name x xs, .cons _ y ys => return .cons name (← x.merge y) (← xs.merge ys)
  | _, _ => .ok .nil

end

/-- Merges two shapes that other types may hold as well: of equal shapes the first is taken as it
is, without a merge. -/
def Shape.mergeShared (a b : Shape) : Except MergeError Shape := if a = b then .ok a else a.merge b

@[simp]
theorem Shape.merge_self (a : Shape) : a.merge a = .ok a := by
  unfold Shape.merge
  exact if_pos rfl

@[simp]
theorem Shape.mergeShared_eq (a b : Shape) : a.mergeShared b = a.merge b := by
  unfold Shape.mergeShared
  split
  · next h => rw [h, Shape.merge_self]
  · rfl

end Bindery
