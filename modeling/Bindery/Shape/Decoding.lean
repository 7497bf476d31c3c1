import Bindery.Shape.Encoding

/-!
# Reading type encodings

`Shape.decode` reads a whole text as one type encoding, or says at which byte and why it is not
one. Beyond what `Shape.encode` writes it accepts

* the qualifiers `r n N o O R V` in front of any type; they carry no shape;
* an empty tag for an absent one, and `=` in front of no members;
* leading zeros in an array length.

`readShape` reads one type off the front of a text and returns what is left. Its first argument
bounds the reading and makes the recursion structural. Each nested type and each further member
starts at least one character later, so a bound above the number of characters is never met.
-/

namespace Bindery

/-- What is wrong with a type encoding. -/
inductive EncodingFault where
  | unexpectedEnd
  | unexpectedChar (c : Char)
  | badArrayLength
  | trailingInput
deriving DecidableEq, Repr

/-- Why, and at which byte, a text is not a type encoding. -/
structure DecodeError where
  /-- The number of bytes in front of the fault. -/
  offset : Nat
  fault : EncodingFault
deriving DecidableEq, Repr

/-- The text of a fault. -/
def EncodingFault.message : EncodingFault → String
  | .unexpectedEnd => "unexpected end of input"
  | .unexpectedChar c => "unexpected character `" ++ c.toString ++ "`"
  | .badArrayLength => "array length is missing or out of range"
  | .trailingInput => "trailing input after a complete type"

/-- The text of a decoding error. -/
def DecodeError.message (e : DecodeError) : String :=
  "invalid type encoding at byte " ++ toString e.offset ++ ": " ++ e.fault.message

/-- Why a reading stopped. -/
inductive Stop where
  /-- The text is wrong where `rest` begins. -/
  | fault (fault : EncodingFault) (rest : List Char)
  /-- The bound of the reading was met. -/
  | bound

/-- What a reading gives: a value, or the reason it stopped. -/
abbrev Reading := Except Stop

/-- The number of bytes of some characters. -/
def byteLength (cs : List Char) : Nat := cs.foldl (fun n c => n + c.utf8Size) 0

/-! ### The parts of a type -/

/-- The letters that may stand in front of a type and say nothing about its shape. -/
def isQualifier (c : Char) : Bool := "rnNoORV".toList.contains c

/-- The greatest array length, plus one. -/
def lengthBound : Nat := UInt32.size

/-- Reads the length of an array. -/
def readLength (cs : List Char) : Reading (UInt32 × List Char) :=
  let digits := cs.takeWhile Char.isDigit
  let value := Nat.ofDigitChars 10 digits 0
  if digits.isEmpty || lengthBound ≤ value then .error (.fault .badArrayLength cs)
  else .ok (UInt32.ofNat value, cs.dropWhile Char.isDigit)

/-- Reads one given character. -/
def readChar (c : Char) : List Char → Reading (List Char)
  | [] => .error (.fault .unexpectedEnd [])
  | d :: rest => if d = c then .ok rest else .error (.fault (.unexpectedChar d) (d :: rest))

/-- The characters a tag may hold: all but `=` and the closing character of its composite. -/
def isTagChar (k : CompositeKind) (c : Char) : Bool := c != '=' && c != k.closing

/-- A tag as it is read: nothing and `?` both say that there is none. -/
def tagOfChars (cs : List Char) : Option String :=
  if cs = [] ∨ cs = ['?'] then none else some (String.ofList cs)

/-- Reads the name in front of a member, if there is one. -/
def readMemberName : List Char → Reading (Option String × List Char)
  | '"' :: cs =>
    match cs.dropWhile (· != '"') with
    | [] => .error (.fault .unexpectedEnd [])
    | _ :: rest => .ok (some (String.ofList (cs.takeWhile (· != '"'))), rest)
  | cs => .ok (none, cs)

/-- Reads members, fewer than the bound, up to the closing character of their composite, with
`readType` for the shape of each. -/
def readMembers (k : CompositeKind) (readType : List Char → Reading (Shape × List Char)) :
    Nat → List Char → Reading (Members × List Char)
  | 0, _ => .error .bound
  | _ + 1, [] => .error (.fault .unexpectedEnd [])
  | n + 1, c :: cs =>
    if c = k.closing then .ok (.nil, cs)
    else do
      let (name, cs) ← readMemberName (c :: cs)
      let (t, cs) ← readType cs
      let (ms, cs) ← readMembers k readType n cs
      return (.cons name t ms, cs)

/-- Reads what follows the opening character of a struct or union with fewer than `n` members. -/
def readComposite (k : CompositeKind) (readType : List Char → Reading (Shape × List Char))
    (n : Nat) (cs : List Char) : Reading (Shape × List Char) :=
  let tag := tagOfChars (cs.takeWhile (isTagChar k))
  match cs.dropWhile (isTagChar k) with
  | [] => .error (.fault .unexpectedEnd [])
  | c :: cs =>
    if c = k.closing then .ok (.composite k tag .nil, cs)
    else do
      let (ms, cs) ← readMembers k readType n cs
      return (.composite k tag ms, cs)

/-- Reads one type. The bound limits how deep types nest and how many members a composite has. -/
def readShape : Nat → List Char → Reading (Shape × List Char)
  | 0, _ => .error .bound
  | n + 1, cs =>
    match cs.dropWhile isQualifier with
    | [] => .error (.fault .unexpectedEnd [])
    | c :: cs =>
      match Primitive.ofLetter? c with
      | some p => .ok (.primitive p, cs)
      | none =>
        match c with
        | 'v' => .ok (.void, cs)
        | '@' => .ok (.object, cs)
        | '#' => .ok (.classRef, cs)
        | ':' => .ok (.selector, cs)
        | '^' => do
          let (t, cs) ← readShape n cs
          return (.pointer t, cs)
        | '{' => readComposite .struct (readShape n) n cs
        | '(' => readComposite .union (readShape n) n cs
        | '[' => do
          let (length, cs) ← readLength cs
          let (t, cs) ← readShape n cs
          let cs ← readChar ']' cs
          return (.array length t, cs)
        | c => .error (.fault (.unexpectedChar c) (c :: cs))

/-! ### Whole texts -/

/-- The error for a fault where `rest` begins, in a text that ends with `rest`. -/
def faultAt (text rest : List Char) (fault : EncodingFault) : DecodeError :=
  ⟨byteLength text - byteLength rest, fault⟩

/-- Reads a whole text as one type. -/
def decodeChars (text : List Char) : Except DecodeError Shape :=
  match readShape (text.length + 1) text with
  | .ok (t, []) => .ok t
  | .ok (_, rest) => .error (faultAt text rest .trailingInput)
  | .error (.fault fault rest) => .error (faultAt text rest fault)
  | .error .bound => .error (faultAt text [] .unexpectedEnd)

/-- The shape that a text encodes. -/
def Shape.decode (text : String) : Except DecodeError Shape := decodeChars text.toList

end Bindery
