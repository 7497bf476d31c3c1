import Bindery.Primitive

/-!
# Shapes of native types

A `Shape` is what one declaration looks like on one binary interface: a primitive, a pointer, a
fixed-length array, a struct or union with its members, or one of the opaque references of the
object runtime. Shapes are plain data and equality is structural.

A struct or union may carry a tag, and each member may carry a name; an absent tag differs from
an empty one.
-/

namespace Bindery

/-- The two kinds of composite: members laid out side by side, or on top of each other. -/
inductive CompositeKind where
  | struct
  | union
deriving DecidableEq, Repr

mutual

/-- The shape of a native type on one binary interface. -/
inductive Shape where
  | void
  | primitive (p : Primitive)
  | pointer (pointee : Shape)
  /-- A struct or union: its tag, if it has one, and its members in order. -/
  | composite (kind : CompositeKind) (tag : Option String) (members : Members)
  /-- An array of a fixed number of elements. -/
  | array (length : UInt32) (element : Shape)
  /-- A reference to an object. -/
  | object
  /-- A reference to a class object. -/
  | classRef
  /-- The name of a method. -/
  | selector

/-- The members of a struct or union, in order. -/
inductive Members where
  | nil
  | cons (name : Option String) (shape : Shape) (rest : Members)

end

deriving instance DecidableEq for Shape, Members

/-- What a shape is at its outermost level. -/
inductive ShapeKind where
  | void
  | primitive
  | pointer
  | struct
  | union
  | array
  | object
  | classRef
  | selector
deriving DecidableEq, Repr

/-- The name used in messages. -/
def ShapeKind.label : ShapeKind → String
  | .void => "void"
  | .primitive => "primitive"
  | .pointer => "pointer"
  | .struct => "struct"
  | .union => "union"
  | .array => "array"
  | .object => "object"
  | .classRef => "class"
  | .selector => "selector"

/-- All kinds. -/
def ShapeKind.all : List ShapeKind :=
  [.void, .primitive, .pointer, .struct, .union, .array, .object, .classRef, .selector]

/-- The kind with a given name. -/
def ShapeKind.ofLabel? (s : String) : Option ShapeKind := all.find? fun k => k.label = s

/-- A composite kind as the kind of a shape. -/
def CompositeKind.shapeKind : CompositeKind → ShapeKind
  | .struct => .struct
  | .union => .union

namespace Members

/-- The number of members. -/
def length : Members → Nat
  | .nil => 0
  | .cons _ _ rest => rest.length + 1

/-- The members as a list of names and shapes. -/
def toList : Members → List (Option String × Shape)
  | .nil => []
  | .cons name shape rest => (name, shape) :: rest.toList

/-- The members of a list of names and shapes. -/
def ofList : List (Option String × Shape) → Members
  | [] => .nil
  | (name, shape) :: rest => .cons name shape (ofList rest)

/-- The names of the members, in order. -/
def names (ms : Members) : List (Option String) := ms.toList.map Prod.fst

@[simp]
theorem length_toList (ms : Members) : ms.toList.length = ms.length := by
  match ms with
  | .nil => rfl
  | .cons _ _ rest => simp [toList, length, length_toList rest]

@[simp]
theorem ofList_toList (ms : Members) : ofList ms.toList = ms := by
  match ms with
  | .nil => rfl
  | .cons _ _ rest => simp [toList, ofList, ofList_toList rest]

@[simp]
theorem toList_ofList (l : List (Option String × Shape)) : (ofList l).toList = l := by
  induction l with
  | nil => rfl
  | cons m l ih => simp [ofList, toList, ih]

end Members

namespace Shape

/-- The kind of the outermost level. -/
def kind : Shape → ShapeKind
  | .void => .void
  | .primitive _ => .primitive
  | .pointer _ => .pointer
  | .composite k _ _ => k.shapeKind
  | .array _ _ => .array
  | .object => .object
  | .classRef => .classRef
  | .selector => .selector

/-- The primitive, if the shape is one. -/
def primitive? : Shape → Option Primitive
  | .primitive p => some p
  | _ => none

/-- The members, if the shape is a struct or union. -/
def members? : Shape → Option Members
  | .composite _ _ ms => some ms
  | _ => none

@[simp]
theorem primitive?_eq_some_iff {t : Shape} {p : Primitive} :
    t.primitive? = some p ↔ t = .primitive p := by
  cases t <;> simp [primitive?]

end Shape

end Bindery
