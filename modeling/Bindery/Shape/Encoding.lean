import Bindery.Shape

/-!
# Type encodings

The text of a shape, in the native runtime's type encoding: one character for a primitive, for
`void` and for the object references, `^` before a pointee, `[4i]` for an array, and
`{tag=members}` or `(tag=members)` for a struct or a union. A member name stands in double quotes
before its member. An absent tag is written `?`, and `=` is left out when there are no members.

* `Shape.encodeOnto` writes the encoding in front of a given text;
* `Shape.encode` is the encoding alone, and `Shape.encodeOnto_eq` ties the two.
-/

namespace Bindery

namespace CompositeKind

/-- The character that opens a composite. -/
def opening : CompositeKind → Char
  | .struct => '{'
  | .union => '('

/-- The character that closes a composite. -/
def closing : CompositeKind → Char
  | .struct => '}'
  | .union => ')'

end CompositeKind

/-- A tag as it is written. -/
def tagChars (tag : Option String) : List Char := (tag.getD "?").toList

/-- A member name as it is written before its member. -/
def memberNameChars : Option String → List Char
  | none => []
  | some name => '"' :: (name.toList ++ ['"'])

/-- What stands between a tag and its members. -/
def Members.separator : Members → List Char
  | .nil => []
  | .cons _ _ _ => ['=']

mutual

/-- The encoding of a shape, followed by `rest`. -/
def Shape.encodeOnto : Shape → List Char → List Char
  | .void, rest => 'v' :: rest
  | .primitive p, rest => p.letter :: rest
  | .pointer t, rest => '^' :: t.encodeOnto rest
  | .composite k tag ms, rest =>
    k.opening :: (tagChars tag ++ (ms.separator ++ ms.encodeOnto (k.closing :: rest)))
  | .array n t, rest => '[' :: (Nat.toDigits 10 n.toNat ++ t.encodeOnto (']' :: rest))
  | .object, rest => '@' :: rest
  | .classRef, rest => '#' :: rest
  | .selector, rest => ':' :: rest

/-- The encodings of some members, followed by `rest`. -/
def Members.encodeOnto : Members → List Char → List Char
  | .nil, rest => rest
  | .cons name t ms, rest => memberNameChars name ++ t.encodeOnto (ms.encodeOnto rest)

end

namespace Shape

/-- The characters of the encoding. -/
def encodeChars (t : Shape) : List Char := t.encodeOnto []

/-- The encoding of a shape. -/
def encode (t : Shape) : String := String.ofList t.encodeChars

end Shape

/-! ### Writing in front of a text -/

mutual

theorem Shape.encodeOnto_append (t : Shape) (x y : List Char) :
    t.encodeOnto x ++ y = t.encodeOnto (x ++ y) := by
  match t with
  | .void | .primitive _ | .object | .classRef | .selector => simp [Shape.encodeOnto]
  | .pointer t => simp [Shape.encodeOnto, Shape.encodeOnto_append t]
  | .composite _ _ ms => simp [Shape.encodeOnto, Members.encodeOnto_append ms]
  | .array _ t => simp [Shape.encodeOnto, Shape.encodeOnto_append t]

theorem Members.encodeOnto_append (ms : Members) (x y : List Char) :
    ms.encodeOnto x ++ y = ms.encodeOnto (x ++ y) := by
  match ms with
  | .nil => simp [Members.encodeOnto]
  | .cons _ t ms =>
    simp [Members.encodeOnto, Shape.encodeOnto_append t, Members.encodeOnto_append ms]

end

namespace Shape

theorem encodeOnto_eq (t : Shape) (rest : List Char) :
    t.encodeOnto rest = t.encodeChars ++ rest := by
  simp [encodeChars, encodeOnto_append]

@[simp]
theorem toList_encode (t : Shape) : t.encode.toList = t.encodeChars := by
  simp [encode]

end Shape

end Bindery
