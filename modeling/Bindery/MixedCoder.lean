import Bindery.NativeType

/-!
# Coders for mixed primitives

A type such as `NSInteger` is one primitive on the 32-bit interface and another on the 64-bit one,
and its values need a coder that chooses between the two when the bindings run. All types with the
same pair of primitives share one coder.

`MixedCoder.group` collects the coders that a sequence of types needs: one for each pair, in the
order in which the pairs first occur, with its types in their order.
-/

namespace Bindery

/-- How coders are named and defined in the generated sources. -/
structure CoderNaming where
  /-- The name of the field that holds the coder of a pair. -/
  field : Primitive → Primitive → String
  /-- The expression that creates it. -/
  definition : Primitive → Primitive → String

/-- The coder of one pair of different primitives. -/
structure MixedCoder where
  /-- The primitive on the 32-bit interface. -/
  on32 : Primitive
  /-- The primitive on the 64-bit interface. -/
  on64 : Primitive
  field : String
  definition : String
  /-- The types with this pair. -/
  types : List NativeType
deriving DecidableEq

namespace MixedCoder

/-- The coder of a pair, with its first type. -/
def first (naming : CoderNaming) (p q : Primitive) (t : NativeType) : MixedCoder :=
  ⟨p, q, naming.field p q, naming.definition p q, [t]⟩

/-- Adds a type to the coder of its pair, or a new coder at the end. -/
def add (naming : CoderNaming) (p q : Primitive) (t : NativeType) :
    List MixedCoder → List MixedCoder
  | [] => [first naming p q t]
  | g :: gs =>
    if g.on32 = p ∧ g.on64 = q then { g with types := g.types ++ [t] } :: gs
    else g :: add naming p q t gs

/-- The coders after one more type. -/
def step (naming : CoderNaming) (groups : List MixedCoder) (t : NativeType) : List MixedCoder :=
  match t.mixed? with
  | some (p, q) => add naming p q t groups
  | none => groups

/-- The coders that some types need. -/
def group (naming : CoderNaming) (types : List NativeType) : List MixedCoder :=
  types.foldl (step naming) []

theorem group_append_singleton (naming : CoderNaming) (types : List NativeType) (t : NativeType) :
    group naming (types ++ [t]) = step naming (group naming types) t := by
  simp [group]

end MixedCoder

end Bindery
