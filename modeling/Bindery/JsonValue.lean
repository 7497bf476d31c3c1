/-!
# JSON

JSON texts as far as a manifest needs them. A number is either a natural number without fraction or
exponent, whose value matters, or any other number, whose value does not.

* `JsonValue.read?` reads a whole text, strictly: no byte order mark, no trailing text, no control
  characters in strings, no unpaired surrogates, and no value nested deeper than
  `JsonValue.maxDepth`;
* `JsonValue.record?` reads the fields of a record, from an object or from an array in their order.
-/

namespace Bindery

/-- A JSON value. Objects keep repeated names. -/
inductive JsonValue where
  | null
  | bool (b : Bool)
  | natural (n : Nat)
  /-- A negative number, or one with a fraction or an exponent. -/
  | otherNumber
  | string (s : String)
  | array (items : List JsonValue)
  | object (fields : List (String × JsonValue))

namespace JsonValue

/-! ### Lexical parts -/

/-- The characters that may stand between the parts of a value. -/
def isSpace (c : Char) : Bool := c == ' ' || c == '\n' || c == '\t' || c == '\r'

/-- The text from its first character that is no space. -/
def skipSpaces (cs : List Char) : List Char := cs.dropWhile isSpace

/-- The value of a hexadecimal digit. -/
def hexValue? (c : Char) : Option Nat :=
  if '0' ≤ c ∧ c ≤ '9' then some (c.toNat - '0'.toNat)
  else if 'a' ≤ c ∧ c ≤ 'f' then some (c.toNat - 'a'.toNat + 10)
  else if 'A' ≤ c ∧ c ≤ 'F' then some (c.toNat - 'A'.toNat + 10)
  else none

/-- The value of four hexadecimal digits. -/
def hexUnit? (a b c d : Char) : Option Nat := do
  let high := (← hexValue? a) * 16 + (← hexValue? b)
  let low := (← hexValue? c) * 16 + (← hexValue? d)
  return high * 256 + low

/-- The unit is the first half of a surrogate pair. -/
def isHighSurrogate (n : Nat) : Bool := 0xD800 ≤ n && n < 0xDC00

/-- The unit is the second half of a surrogate pair. -/
def isLowSurrogate (n : Nat) : Bool := 0xDC00 ≤ n && n < 0xE000

/-- The character that a surrogate pair stands for. -/
def pairChar (high low : Nat) : Char :=
  Char.ofNat (0x10000 + (high - 0xD800) * 0x400 + (low - 0xDC00))

/-- The character that a backslash and a letter stand for. -/
def simpleEscape? : Char → Option Char
  | '"' => some '"'
  | '\\' => some '\\'
  | '/' => some '/'
  | 'b' => some '\x08'
  | 'f' => some '\x0c'
  | 'n' => some '\n'
  | 'r' => some '\r'
  | 't' => some '\t'
  | _ => none

/-- Reads a string after its opening quote. The characters read so far come last first. -/
def readString (sofar : List Char) : List Char → Option (String × List Char)
  | [] => none
  | '"' :: cs => some (String.ofList sofar.reverse, cs)
  | '\\' :: 'u' :: a :: b :: c :: d :: cs =>
    match hexUnit? a b c d with
    | none => none
    | some unit =>
      if isHighSurrogate unit then
        match cs with
        | '\\' :: 'u' :: e :: f :: g :: h :: cs =>
          match hexUnit? e f g h with
          | none => none
          | some low =>
            if isLowSurrogate low then readString (pairChar unit low :: sofar) cs else none
        | _ => none
      else if isLowSurrogate unit then none
      else readString (Char.ofNat unit :: sofar) cs
  | '\\' :: c :: cs =>
    match simpleEscape? c with
    | some e => readString (e :: sofar) cs
    | none => none
  | c :: cs => if c.toNat < 0x20 then none else readString (c :: sofar) cs

/-- Reads one or more digits. -/
def readDigits? (cs : List Char) : Option (List Char × List Char) :=
  match cs.takeWhile Char.isDigit with
  | [] => none
  | ds => some (ds, cs.dropWhile Char.isDigit)

/-- Reads the whole part of a number: `0`, or digits that do not start with it. -/
def readWhole? : List Char → Option (Nat × List Char)
  | '0' :: cs => some (0, cs)
  | cs => (readDigits? cs).map fun (ds, rest) => (Nat.ofDigitChars 10 ds 0, rest)

/-- Reads the fraction of a number, and says whether there is one. -/
def readFraction? : List Char → Option (Bool × List Char)
  | '.' :: cs => (readDigits? cs).map fun (_, rest) => (true, rest)
  | cs => some (false, cs)

/-- The text after the sign of an exponent, if there is one. -/
def skipSign : List Char → List Char
  | '+' :: cs => cs
  | '-' :: cs => cs
  | cs => cs

/-- Reads the exponent of a number, and says whether there is one. -/
def readExponent? : List Char → Option (Bool × List Char)
  | 'e' :: cs => (readDigits? (skipSign cs)).map fun (_, rest) => (true, rest)
  | 'E' :: cs => (readDigits? (skipSign cs)).map fun (_, rest) => (true, rest)
  | cs => some (false, cs)

/-- Reads a number without its sign. -/
def readUnsigned? (cs : List Char) : Option (JsonValue × List Char) := do
  let (n, cs) ← readWhole? cs
  let (fraction, cs) ← readFraction? cs
  let (exponent, cs) ← readExponent? cs
  return (if fraction || exponent then .otherNumber else .natural n, cs)

/-- Reads a number. -/
def readNumber? : List Char → Option (JsonValue × List Char)
  | '-' :: cs => (readUnsigned? cs).map fun (_, rest) => (.otherNumber, rest)
  | cs => readUnsigned? cs

/-! ### Values -/

/-- Reads the items of an array after its opening bracket, fewer than the bound. -/
def readItems (read : List Char → Option (JsonValue × List Char)) :
    Nat → List Char → Option (List JsonValue × List Char)
  | 0, _ => none
  | n + 1, cs => do
    let (item, cs) ← read cs
    match skipSpaces cs with
    | ',' :: cs =>
      let (items, cs) ← readItems read n cs
      return (item :: items, cs)
    | ']' :: cs => return ([item], cs)
    | _ => none

/-- Reads the fields of an object after its opening brace, fewer than the bound. -/
def readFields (read : List Char → Option (JsonValue × List Char)) :
    Nat → List Char → Option (List (String × JsonValue) × List Char)
  | 0, _ => none
  | n + 1, cs =>
    match skipSpaces cs with
    | '"' :: cs => do
      let (name, cs) ← readString [] cs
      match skipSpaces cs with
      | ':' :: cs =>
        let (value, cs) ← read cs
        match skipSpaces cs with
        | ',' :: cs =>
          let (fields, cs) ← readFields read n cs
          return ((name, value) :: fields, cs)
        | '}' :: cs => return ([(name, value)], cs)
        | _ => none
      | _ => none
    | _ => none

/-- Reads one value nested less deep than the bound, with fewer than `width` parts at each
level. -/
def readValue (width : Nat) : Nat → List Char → Option (JsonValue × List Char)
  | 0, _ => none
  | depth + 1, cs =>
    match skipSpaces cs with
    | 'n' :: 'u' :: 'l' :: 'l' :: cs => some (.null, cs)
    | 't' :: 'r' :: 'u' :: 'e' :: cs => some (.bool true, cs)
    | 'f' :: 'a' :: 'l' :: 's' :: 'e' :: cs => some (.bool false, cs)
    | '"' :: cs => (readString [] cs).map fun (s, rest) => (.string s, rest)
    | '[' :: cs =>
      match skipSpaces cs with
      | ']' :: cs => some (.array [], cs)
      | cs =>
        (readItems (readValue width depth) width cs).map fun (items, rest) => (.array items, rest)
    | '{' :: cs =>
      match skipSpaces cs with
      | '}' :: cs => some (.object [], cs)
      | cs =>
        (readFields (readValue width depth) width cs).map fun (fields, rest) =>
          (.object fields, rest)
    | cs => readNumber? cs

/-- How deep values may nest. -/
def maxDepth : Nat := 128

/-- Reads a whole text as one value. -/
def read? (text : String) : Option JsonValue := do
  let cs := text.toList
  let (value, rest) ← readValue (cs.length + 1) maxDepth cs
  if skipSpaces rest = [] then some value else none

/-! ### Records -/

/-- The values of a record's fields, in the order of their names. An object may leave fields out but
holds no other ones and none twice; an array may leave fields out at its end. -/
def record? (names : List String) : JsonValue → Option (List (Option JsonValue))
  | .object fields =>
    if (fields.all fun f => names.contains f.1) && decide (fields.map Prod.fst).Nodup then
      some (names.map fun n => List.lookup n fields)
    else none
  | .array items =>
    if items.length ≤ names.length then
      some (items.map some ++ List.replicate (names.length - items.length) none)
    else none
  | _ => none

/-- A field that holds a string. -/
def string? : Option JsonValue → Option String
  | some (.string s) => some s
  | _ => none

/-- A field that holds a string, and may be left out or hold null. -/
def optionalString? : Option JsonValue → Option (Option String)
  | none => some none
  | some .null => some none
  | some (.string s) => some (some s)
  | some _ => none

/-- A field that holds a natural number below a bound. -/
def naturalBelow? (bound : Nat) : Option JsonValue → Option Nat
  | some (.natural n) => if n < bound then some n else none
  | _ => none

/-- A field that holds an array, and may be left out when the array is empty. -/
def items? : Option JsonValue → Option (List JsonValue)
  | none => some []
  | some (.array items) => some items
  | some _ => none

end JsonValue

end Bindery
