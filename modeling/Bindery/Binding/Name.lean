/-!
# Names in Java sources

Identifiers and package names, with ASCII letters and digits only.

* `Binding.identifier` turns any text into an identifier, character by character;
* `Binding.isPackageName` accepts identifiers separated by dots.
-/

namespace Bindery.Binding

/-- The character may start an identifier. -/
def isIdentifierStart (c : Char) : Bool := c.isAlpha || c == '_' || c == '$'

/-- The character may stand in an identifier. -/
def isIdentifierPart (c : Char) : Bool := c.isAlphanum || c == '_' || c == '$'

/-- The characters with `_` in the place of each that an identifier cannot hold. -/
def replaceForeign (cs : List Char) : List Char :=
  cs.map fun c => if isIdentifierPart c then c else '_'

/-- Puts `_` in front of a text that is empty or starts with a digit. -/
def guardStart : List Char → List Char
  | [] => ['_']
  | c :: cs => if c.isDigit then '_' :: c :: cs else c :: cs

/-- The identifier made from a text. -/
def identifier (s : String) : String := String.ofList (guardStart (replaceForeign s.toList))

/-- The characters are one identifier. -/
def isIdentifier : List Char → Bool
  | [] => false
  | c :: cs => isIdentifierStart c && cs.all isIdentifierPart

/-- The text is a package name: identifiers separated by dots. -/
def isPackageName (s : String) : Bool := (s.toList.splitOn '.').all isIdentifier

theorem isIdentifierPart_of_mem_replaceForeign {cs : List Char} {c : Char}
    (h : c ∈ replaceForeign cs) : isIdentifierPart c = true := by
  obtain ⟨d, _, rfl⟩ := List.mem_map.1 h
  split
  · assumption
  · rfl

theorem isIdentifierStart_of_part {c : Char} (h : isIdentifierPart c = true)
    (hd : c.isDigit = false) : isIdentifierStart c = true := by
  simp_all [isIdentifierPart, isIdentifierStart, Char.isAlphanum]

theorem isIdentifier_identifier (s : String) : isIdentifier (identifier s).toList = true := by
  have hp : ∀ c ∈ replaceForeign s.toList, isIdentifierPart c = true :=
    fun _ => isIdentifierPart_of_mem_replaceForeign
  simp only [identifier, String.toList_ofList]
  cases h : replaceForeign s.toList with
  | nil => rfl
  | cons c cs =>
    rw [h] at hp
    have hc := hp c List.mem_cons_self
    have hcs : cs.all isIdentifierPart = true :=
      List.all_eq_true.2 fun d hd => hp d (List.mem_cons_of_mem c hd)
    rw [guardStart]
    split
    · simp [isIdentifier, hc, hcs, isIdentifierStart]
    · rename_i hd
      simp [isIdentifier, hcs, isIdentifierStart_of_part hc (by simpa using hd)]

end Bindery.Binding
