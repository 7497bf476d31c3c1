/-!
# Binary interfaces

A header is scanned once for each of two binary interfaces of the platform: the 32-bit one, where
`long` and pointers take four bytes, and the 64-bit one, where they take eight.

* `Abi` names the two;
* `Abi.ofBits?` reads one from its width, and accepts only 32 and 64;
* `Abi.pointerSize` is the only size that differs between them.
-/

namespace Bindery

/-- One of the two binary interfaces a header is scanned on. -/
inductive Abi where
  | bits32
  | bits64
deriving DecidableEq, Repr

namespace Abi

/-- The width in bits. -/
def bits : Abi → Nat
  | .bits32 => 32
  | .bits64 => 64

/-- The interface with a given width. -/
def ofBits? : Nat → Option Abi
  | 32 => some .bits32
  | 64 => some .bits64
  | _ => none

/-- The size of a pointer, in bytes. -/
def pointerSize : Abi → Nat
  | .bits32 => 4
  | .bits64 => 8

/-- The name used in messages. -/
def label : Abi → String
  | .bits32 => "32-bit"
  | .bits64 => "64-bit"

theorem ofBits?_eq_some_iff {n : Nat} {a : Abi} : ofBits? n = some a ↔ n = a.bits := by
  constructor
  · intro h
    unfold ofBits? at h
    split at h <;> simp_all [bits] <;> subst h <;> rfl
  · rintro rfl
    cases a <;> rfl

end Abi

end Bindery
