import Bindery.NativeType

/-!
# Target types

What a native type becomes in the generated sources: the name of a type there, its kind, and the
expression for the object that converts its values, when there is one. A `Resolver` answers this
for any native type, or says why it cannot.
-/

namespace Bindery

/-- The kinds of types in the generated sources. -/
inductive TargetKind where
  | void
  | primitive
  | pointer
  | struct
  | union
  | array
  | object
deriving DecidableEq, Repr

/-- A type in the generated sources. -/
structure Target where
  /-- The name as it is written there. -/
  name : String
  kind : TargetKind
  /-- The expression for the coder of its values. -/
  coder : Option String
deriving DecidableEq, Repr

/-- A resolver has no target for a type. -/
structure Unresolvable where
  type : NativeType
  reason : String
deriving DecidableEq

/-- The text of the error. -/
def Unresolvable.message (e : Unresolvable) : String :=
  "no target type for `" ++ e.type.display ++ "`: " ++ e.reason

/-- Finds the target of a native type. -/
abbrev Resolver := NativeType → Except Unresolvable Target

/-- The resolver that refuses the types of some kinds, by their 64-bit shapes, and otherwise replies
as another does. -/
def Resolver.refusing (kinds : List ShapeKind) (reason : String) (resolver : Resolver) : Resolver :=
  fun t => if t.shape64.kind ∈ kinds then .error ⟨t, reason⟩ else resolver t

end Bindery
