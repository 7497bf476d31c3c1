import Bindery.Shape.Encoding
import Bindery.Text.Quoted
import Bindery.TypeName

/-!
# Native types

A `NativeType` is what is known of one declared name: the name, unless the declaration has none,
and a shape on each binary interface. A declaration with no 64-bit shape of its own has the
32-bit one on both.

* `NativeType.ofScan` builds a type from what a scan found, and insists on a 32-bit shape;
* `NativeType.mixed?` finds the primitives of a type that is a different one on each interface;
* `NativeType.order` sorts types by the text that shows them.
-/

namespace Bindery

/-- A declared type: its name and its shape on both binary interfaces. -/
structure NativeType where
  name : Option TypeName
  shape32 : Shape
  shape64 : Shape
deriving DecidableEq

/-- A declaration has no 32-bit shape. -/
structure MissingShape where
  name : Option TypeName
deriving DecidableEq

/-- The text of the error. -/
def MissingShape.message (e : MissingShape) : String :=
  "type `" ++ TypeName.label e.name ++ "` has no 32-bit descriptor"

namespace NativeType

/-- The type with a name and a 32-bit shape, and the same shape on the 64-bit interface unless
another is given. -/
def make (name : Option TypeName) (shape32 : Shape) (shape64 : Option Shape) : NativeType :=
  ⟨name, shape32, shape64.getD shape32⟩

/-- The type that a scan found. The 32-bit shape must be there. -/
def ofScan (name : Option TypeName) (shape32 shape64 : Option Shape) :
    Except MissingShape NativeType :=
  match shape32 with
  | some t => .ok (make name t shape64)
  | none => .error ⟨name⟩

variable (t : NativeType)

/-- The shape on one binary interface. -/
def shape : Abi → Shape
  | .bits32 => t.shape32
  | .bits64 => t.shape64

/-- Both binary interfaces share one shape. -/
def isSingleWidth : Bool := t.shape32 = t.shape64

/-- The primitives on the two interfaces, when both shapes are primitives and they differ. -/
def mixed? : Option (Primitive × Primitive) :=
  match t.shape32, t.shape64 with
  | .primitive p, .primitive q => if p = q then none else some (p, q)
  | _, _ => none

/-- The name and both encodings, as shown to a reader. -/
def display : String :=
  TypeName.label t.name ++ " (" ++ t.shape32.encode ++ " / " ++ t.shape64.encode ++ ")"

/-- The name between quotes, as it stands in a log. -/
def logName : Option TypeName → String
  | none => "None"
  | some n => "Some(" ++ Text.quoteForLog n.text ++ ")"

/-- The name and both encodings, field by field, as they stand in a log. -/
def logText : String :=
  "Type \x7b name: " ++ logName t.name ++ ", shape32: " ++ t.shape32.encode ++ ", shape64: " ++
    t.shape64.encode ++ ", .. \x7d"

/-- Types are sorted by the text that shows them, and then by name, an absent name first. -/
def order (a b : NativeType) : Ordering :=
  (compare a.display b.display).then
    (compare (a.name.map TypeName.text) (b.name.map TypeName.text))

/-- When two declared types are equal. -/
theorem make_ofDeclared_eq_iff {n n' : Option String} {a a' : Shape}
    {b b' : Option Shape} :
    make (n.map .ofDeclared) a b = make (n'.map .ofDeclared) a' b' ↔
      n.map Text.removeBlanks = n'.map Text.removeBlanks ∧ a = a' ∧ b.getD a = b'.getD a' := by
  have hname : n.map TypeName.ofDeclared = n'.map .ofDeclared ↔
      n.map Text.removeBlanks = n'.map Text.removeBlanks := by
    cases n <;> cases n' <;> simp [TypeName.ofDeclared]
  simp [make, hname]

theorem mixed?_eq_some_iff {p q : Primitive} :
    t.mixed? = some (p, q) ↔ t.shape32 = .primitive p ∧ t.shape64 = .primitive q ∧ p ≠ q := by
  unfold mixed?
  split
  · rename_i p' q' h h'
    rw [h, h']
    by_cases e : p' = q' <;> simp [e] <;> grind
  · rename_i h
    simp only [reduceCtorEq, false_iff]
    rintro ⟨h32, h64, _⟩
    exact h p q h32 h64

end NativeType

end Bindery
