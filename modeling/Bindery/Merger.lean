import Bindery.Instance
import Bindery.Override
import Bindery.Shape.Merge

/-!
# Merging types

A name may be declared at several sites, and the types found there are merged into one. An absent
type gives way to the other, equal types are one, and a name in the override table keeps its first
type. Otherwise the name is the first one present, and the shapes are merged on each binary
interface.

* `NativeType.reconcile` is the rule for two types;
* `Merger.merge` applies it to instances, and records a `Collision` whenever it merges two types
  with different names.
-/

namespace Bindery

/-- Two declarations of one name disagree on one binary interface. -/
structure TypeConflict where
  /-- The name, as shown to a reader. -/
  name : String
  abi : Abi
  cause : MergeError
deriving DecidableEq

/-- The text of the error. -/
def TypeConflict.message (e : TypeConflict) : String :=
  "conflicting " ++ e.abi.label ++ " declarations of `" ++ e.name ++ "`"

/-- Of two names the first that is present. -/
def preferredName {α : Type} (a b : Option α) : Option α := a.or b

namespace NativeType

/-- Both types have a name, and the names differ. -/
def namesDiffer (a b : NativeType) : Bool :=
  match a.name, b.name with
  | some x, some y => x ≠ y
  | _, _ => false

/-- The shapes of two types, merged on one binary interface. -/
def mergeShapes (abi : Abi) (a b : NativeType) : Except TypeConflict Shape :=
  ((a.shape abi).mergeShared (b.shape abi)).mapError
    fun e => ⟨TypeName.label (preferredName a.name b.name), abi, e⟩

/-- The type that two types with different values are merged into, name by name and shape by
shape. -/
def mergeParts (a b : NativeType) : Except TypeConflict NativeType := do
  let shape32 ← mergeShapes .bits32 a b
  let shape64 ← mergeShapes .bits64 a b
  return ⟨preferredName a.name b.name, shape32, shape64⟩

/-- What becomes of two types: nothing new when the first of them is kept, or else the type that
they are merged into. -/
def reconcile (overrides : Overrides) (a b : NativeType) :
    Except TypeConflict (Option NativeType) :=
  if a = b then .ok none
  else
    match overrides.rule? (a.name.map TypeName.text) with
    | some .keepFirst => .ok none
    | none => some <$> mergeParts a b

end NativeType

/-- Two types with different names that were merged into one. This is no error; it is kept for a
later look at false equivalences. -/
structure Collision where
  left : Instance
  right : Instance
  merged : Instance
deriving DecidableEq

/-- The override table, and the collisions so far in their order. -/
structure Merger where
  overrides : Overrides
  collisions : List Collision

namespace Merger

/-- A merger that has merged nothing yet. -/
def new (overrides : Overrides) : Merger := ⟨overrides, []⟩

variable (m : Merger)

/-- The merger after two instances were merged. -/
def note (a b merged : Instance) : Merger :=
  if a.type.namesDiffer b.type then { m with collisions := m.collisions ++ [⟨a, b, merged⟩] }
  else m

/-- Merges two instances. The result is one of the two, or a new instance. -/
def mergePair (s : Instances) (a b : Instance) :
    Except TypeConflict (Instance × Merger × Instances) :=
  match a.type.reconcile m.overrides b.type with
  | .error e => .error e
  | .ok none => .ok (a, m, s)
  | .ok (some t) =>
    let (i, s) := s.make t
    .ok (i, m.note a b i, s)

/-- Merges two instances that may be absent. -/
def merge (s : Instances) (a b : Option Instance) :
    Except TypeConflict (Option Instance × Merger × Instances) :=
  match a, b with
  | none, other => .ok (other, m, s)
  | other, none => .ok (other, m, s)
  | some a, some b => (m.mergePair s a b).map fun (i, m, s) => (some i, m, s)

end Merger

end Bindery
