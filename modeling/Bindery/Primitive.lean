import Bindery.Abi

/-!
# Primitive types

The thirteen scalar types of the native language. Each is written as one letter in a type
encoding (`Primitive.letter`, with the inverse `Primitive.ofLetter?`), and each has a size, which
for `long` and its unsigned form depends on the binary interface.
-/

namespace Bindery

/-- A scalar type with a fixed sign. -/
inductive Primitive where
  | char
  | uchar
  | short
  | ushort
  | int
  | uint
  | long
  | ulong
  | longLong
  | ulongLong
  | float
  | double
  | bool
deriving DecidableEq, Repr

namespace Primitive

/-- The letter that stands for a primitive in a type encoding. -/
def letter : Primitive → Char
  | .char => 'c'
  | .uchar => 'C'
  | .short => 's'
  | .ushort => 'S'
  | .int => 'i'
  | .uint => 'I'
  | .long => 'l'
  | .ulong => 'L'
  | .longLong => 'q'
  | .ulongLong => 'Q'
  | .float => 'f'
  | .double => 'd'
  | .bool => 'B'

/-- The primitive that a letter stands for. -/
def ofLetter? : Char → Option Primitive
  | 'c' => some .char
  | 'C' => some .uchar
  | 's' => some .short
  | 'S' => some .ushort
  | 'i' => some .int
  | 'I' => some .uint
  | 'l' => some .long
  | 'L' => some .ulong
  | 'q' => some .longLong
  | 'Q' => some .ulongLong
  | 'f' => some .float
  | 'd' => some .double
  | 'B' => some .bool
  | _ => none

/-- The size in bytes on one binary interface. -/
def size (abi : Abi) : Primitive → Nat
  | .char | .uchar | .bool => 1
  | .short | .ushort => 2
  | .int | .uint | .float => 4
  | .long | .ulong => abi.pointerSize
  | .longLong | .ulongLong | .double => 8

/-- Negative values exist. -/
def isSigned : Primitive → Bool
  | .char | .short | .int | .long | .longLong | .float | .double => true
  | _ => false

/-- The values are floating-point numbers. -/
def isFloating : Primitive → Bool
  | .float | .double => true
  | _ => false

/-- The letter as a text of its own. -/
def code (p : Primitive) : String := p.letter.toString

@[simp]
theorem ofLetter?_letter (p : Primitive) : ofLetter? p.letter = some p := by
  cases p <;> rfl

theorem ofLetter?_eq_some_iff {c : Char} {p : Primitive} :
    ofLetter? c = some p ↔ c = p.letter := by
  constructor
  · intro h
    unfold ofLetter? at h
    split at h <;> simp_all <;> subst h <;> rfl
  · rintro rfl
    exact ofLetter?_letter p

end Primitive

end Bindery
