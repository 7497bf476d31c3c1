import Bindery.JsonValue
import Bindery.Proofs.Binding.Literal
import Mathlib.Tactic.SplitIfs

/-!
# String literals as a compiler reads them

A Java compiler first undoes the Unicode escapes of a source, and then cuts what it has into tokens.
A string literal stands between two double quotes. In it are escapes and plain code units, but no
line end: a line feed or a carriage return that is not escaped ends the line, and leaves the literal
without an end.

* `Binding.undoUnicode?` undoes Unicode escapes, and `Binding.LiteralBody` is the grammar of what
  stands behind the opening quote;
* `Binding.ReadsAs` says that a text is one string literal with some value;
* `Binding.undoUnicode?_escaped`, `Binding.literalBody_escaped_iff` : both phases, for a text that
  was written as a literal;
* `Binding.readsAs_quote_iff` : a text that was written is read as it was, unless it has a carriage
  return, which is written as it is.
-/

namespace Bindery.Binding

/-! ### Code units -/

/-- The UTF-16 code units of a character. -/
def charUnits (c : Char) : List Nat :=
  if c.toNat < 0x10000 then [c.toNat]
  else [0xD800 + (c.toNat - 0x10000) / 0x400, 0xDC00 + (c.toNat - 0x10000) % 0x400]

/-- The UTF-16 code units of some characters. -/
def units (cs : List Char) : List Nat := cs.flatMap charUnits

variable {c d : Char} {cs : List Char} {u v n : Nat} {rest value : List Nat}

/-- Below the surrogates a code unit is that of one character only. -/
theorem mem_charUnits_iff (h : n < 0xD800) : n ∈ charUnits c ↔ c.toNat = n := by
  unfold charUnits
  split_ifs with hc
  · rw [List.mem_singleton, eq_comm]
  · simp only [List.mem_cons, List.not_mem_nil, or_false]
    omega

theorem eq_of_charUnits_append (h : charUnits c ++ rest = charUnits d ++ value) :
    c = d ∧ rest = value := by
  have hvalid : ∀ c : Char, c.toNat < 0xD800 ∨ 0xDFFF < c.toNat ∧ c.toNat < 0x110000 :=
    fun c => c.valid
  have hc := hvalid c
  have hd := hvalid d
  -- A high surrogate is the code unit of no character by itself.
  rw [← Char.toNat_inj]
  unfold charUnits at h
  split_ifs at h
  · simpa using h
  · have hfirst := (List.cons.inj h).1
    omega
  · have hfirst := (List.cons.inj h).1
    omega
  · obtain ⟨hhigh, hmore⟩ := List.cons.inj h
    obtain ⟨hlow, hrest⟩ := List.cons.inj hmore
    exact ⟨by omega, hrest⟩

theorem charUnits_ne_nil : charUnits c ≠ [] := by
  unfold charUnits
  split_ifs <;> simp

/-- Different characters have different code units. -/
theorem units_injective {ds : List Char} (h : units cs = units ds) : cs = ds := by
  induction cs generalizing ds with
  | nil =>
    cases ds with
    | nil => rfl
    | cons d ds => exact absurd (List.append_eq_nil_iff.1 h.symm).1 charUnits_ne_nil
  | cons c cs ih =>
    cases ds with
    | nil => exact absurd (List.append_eq_nil_iff.1 h).1 charUnits_ne_nil
    | cons d ds =>
      obtain ⟨rfl, hrest⟩ := eq_of_charUnits_append h
      rw [ih hrest]

/-! ### Unicode escapes -/

/-- The code units of a source, its Unicode escapes undone. A backslash begins one only if an even
number of backslashes stand right before it; so backslashes are read two by two. -/
def undoUnicode? : List Char → Option (List Nat)
  | [] => some []
  | '\\' :: 'u' :: 'u' :: cs => undoUnicode? ('\\' :: 'u' :: cs)
  | '\\' :: 'u' :: a :: b :: c :: d :: cs => do
    let u ← JsonValue.hexUnit? a b c d
    let us ← undoUnicode? cs
    return u :: us
  | '\\' :: 'u' :: _ => none
  | '\\' :: c :: cs => (undoUnicode? cs).map fun us => units ['\\', c] ++ us
  | c :: cs => (undoUnicode? cs).map fun us => charUnits c ++ us
termination_by cs => cs.length

theorem undoUnicode?_backslash (h : d ≠ 'u') (cs : List Char) :
    undoUnicode? ('\\' :: d :: cs) = (undoUnicode? cs).map fun us => units ['\\', d] ++ us := by
  simp [undoUnicode?, h]

theorem undoUnicode?_cons (h : c ≠ '\\') (cs : List Char) :
    undoUnicode? (c :: cs) = (undoUnicode? cs).map fun us => charUnits c ++ us := by
  simp [undoUnicode?, h]

/-- The escapes of a literal are none. -/
theorem undoUnicode?_escaped (cs : List Char) :
    undoUnicode? (cs.flatMap escapeChar ++ ['"']) =
      some (units (cs.flatMap escapeChar ++ ['"'])) := by
  induction cs with
  | nil => simp [undoUnicode?_cons, undoUnicode?, units]
  | cons c cs ih =>
    rw [List.flatMap_cons, List.append_assoc]
    -- A backslash that is written has a letter after it, and both are read at once. So none of the
    -- later characters stands behind half of an escape.
    rcases escapeChar_cases c with ⟨d, he, -, hd⟩ | ⟨he, -, hslash, -⟩
    · have hu : d ≠ 'u' := by
        rintro rfl
        cases hd
      rw [he, List.cons_append, List.singleton_append, undoUnicode?_backslash hu, ih]
      simp [units]
    · rw [he, List.singleton_append, undoUnicode?_cons hslash, ih]
      simp [units]

/-! ### String literals -/

/-- What an escape of one letter stands for. -/
def letterEscape? (u : Nat) : Option Nat :=
  [('b'.toNat, 0x08), ('s'.toNat, 0x20), ('t'.toNat, 0x09), ('n'.toNat, 0x0A), ('f'.toNat, 0x0C),
    ('r'.toNat, 0x0D), ('"'.toNat, 0x22), (0x27, 0x27), ('\\'.toNat, 0x5C)].lookup u

/-- The code unit is an octal digit. -/
def isOctal (u : Nat) : Bool := 0x30 ≤ u && u ≤ 0x37

/-- What an octal escape stands for, and what comes after it. It is as long as it can be, with a
value below 256. -/
def octalEscape? : List Nat → Option (Nat × List Nat)
  | [] => none
  | u :: us =>
    if isOctal u then
      let more := (us.takeWhile isOctal).take (if u ≤ 0x33 then 2 else 1)
      some ((u :: more).foldl (fun n digit => n * 8 + (digit - 0x30)) 0, us.drop more.length)
    else none

/-- What stands behind the opening quote of a string literal up to its closing quote, and nothing
after that, with the value of the literal. -/
inductive LiteralBody : List Nat → List Nat → Prop where
  | closing : LiteralBody [0x22] []
  /-- A code unit that is no double quote, backslash, carriage return or line feed. -/
  | plain {u : Nat} {rest value : List Nat} (notQuote : u ≠ 0x22) (notSlash : u ≠ 0x5C)
      (notReturn : u ≠ 0x0D) (notFeed : u ≠ 0x0A) (body : LiteralBody rest value) :
      LiteralBody (u :: rest) (u :: value)
  | letter {u v : Nat} {rest value : List Nat} (known : letterEscape? u = some v)
      (body : LiteralBody rest value) : LiteralBody (0x5C :: u :: rest) (v :: value)
  | octal {v : Nat} {us rest value : List Nat} (digits : octalEscape? us = some (v, rest))
      (body : LiteralBody rest value) : LiteralBody (0x5C :: us) (v :: value)

/-- The text is one string literal, and its value has these code units. -/
def ReadsAs (text : String) (value : List Nat) : Prop :=
  ∃ us, undoUnicode? text.toList = some (0x22 :: us) ∧ LiteralBody us value

theorem literalBody_closing_iff : LiteralBody [0x22] value ↔ value = [] := by
  constructor
  · intro h
    cases h with
    | closing => rfl
    | plain hquote _ _ _ _ => exact absurd rfl hquote
  · rintro rfl
    exact .closing

theorem literalBody_letter_iff (h : letterEscape? u = some v) (hoctal : isOctal u = false) :
    LiteralBody (0x5C :: u :: rest) value ↔ ∃ more, value = v :: more ∧ LiteralBody rest more := by
  constructor
  · intro hbody
    cases hbody with
    | plain _ hslash _ _ _ => exact absurd rfl hslash
    | letter hu hrest =>
      rw [h] at hu
      cases hu
      exact ⟨_, rfl, hrest⟩
    | octal hdigits _ => simp [octalEscape?, hoctal] at hdigits
  · rintro ⟨more, rfl, hrest⟩
    exact .letter h hrest

/-- Code units that are no quotes and no backslashes stand for themselves, if there is no line end
among them. -/
theorem literalBody_append_iff {plain : List Nat} (h : ∀ u ∈ plain, u ≠ 0x22 ∧ u ≠ 0x5C) :
    LiteralBody (plain ++ rest) value ↔
      (∀ u ∈ plain, u ≠ 0x0D ∧ u ≠ 0x0A) ∧
        ∃ more, value = plain ++ more ∧ LiteralBody rest more := by
  induction plain generalizing value with
  | nil => simp
  | cons u plain ih =>
    obtain ⟨⟨hquote, hslash⟩, hplain⟩ := List.forall_mem_cons.1 h
    rw [List.forall_mem_cons, List.cons_append]
    constructor
    · intro hbody
      generalize hall : u :: (plain ++ rest) = all at hbody
      cases hbody with
      | closing => exact absurd (List.cons.inj hall).1 hquote
      | plain _ _ hreturn hfeed hbody =>
        obtain ⟨rfl, rfl⟩ := List.cons.inj hall
        obtain ⟨hlines, more, rfl, hrest⟩ := (ih hplain).1 hbody
        exact ⟨⟨⟨hreturn, hfeed⟩, hlines⟩, more, rfl, hrest⟩
      | letter _ _ => exact absurd (List.cons.inj hall).1 hslash
      | octal _ _ => exact absurd (List.cons.inj hall).1 hslash
    · rintro ⟨⟨⟨hreturn, hfeed⟩, hlines⟩, more, rfl, hrest⟩
      exact .plain hquote hslash hreturn hfeed ((ih hplain).2 ⟨hlines, more, rfl, hrest⟩)

/-- An escape that is written is that of one letter, for the character itself. -/
theorem letterEscape?_of_escapeChar (h : escapeChar c = ['\\', d]) :
    units (escapeChar c) = [0x5C, d.toNat] ∧ charUnits c = [c.toNat] ∧
      letterEscape? d.toNat = some c.toNat ∧ isOctal d.toNat = false ∧ c ≠ '\r' := by
  unfold escapeChar at h
  split at h
  · cases h; decide
  · cases h; decide
  · cases h; decide
  · cases h; decide
  · cases h

/-- A character that was written is read as it was, unless it is a carriage return. -/
theorem literalBody_escapeChar_iff :
    LiteralBody (units (escapeChar c) ++ rest) value ↔
      c ≠ '\r' ∧ ∃ more, value = charUnits c ++ more ∧ LiteralBody rest more := by
  rcases escapeChar_cases c with ⟨d, he, -, -⟩ | ⟨he, hquote, hslash, hfeed⟩
  · obtain ⟨hunits, hc, hknown, hoctal, hreturn⟩ := letterEscape?_of_escapeChar he
    rw [hunits, hc, and_iff_right hreturn]
    exact literalBody_letter_iff hknown hoctal
  · have hself : units (escapeChar c) = charUnits c := by rw [he, units, List.flatMap_singleton]
    have habsent : ∀ d : Char, d.toNat < 0xD800 → (d.toNat ∈ charUnits c ↔ c = d) := fun d hd =>
      (mem_charUnits_iff hd).trans Char.toNat_inj
    have hplain : ∀ u ∈ charUnits c, u ≠ 0x22 ∧ u ≠ 0x5C := by
      refine fun u hu => ⟨?_, ?_⟩
      · rintro rfl
        exact hquote ((habsent '"' (by decide)).1 hu)
      · rintro rfl
        exact hslash ((habsent '\\' (by decide)).1 hu)
    have hlines : (∀ u ∈ charUnits c, u ≠ 0x0D ∧ u ≠ 0x0A) ↔ c ≠ '\r' := by
      constructor
      · rintro h rfl
        exact (h 0x0D (by decide)).1 rfl
      · refine fun hreturn u hu => ⟨?_, ?_⟩
        · rintro rfl
          exact hreturn ((habsent '\r' (by decide)).1 hu)
        · rintro rfl
          exact hfeed ((habsent '\n' (by decide)).1 hu)
    rw [hself, literalBody_append_iff hplain, hlines]

/-- The body of a literal that was written. -/
theorem literalBody_escaped_iff :
    LiteralBody (units (cs.flatMap escapeChar ++ ['"'])) value ↔
      '\r' ∉ cs ∧ value = units cs := by
  induction cs generalizing value with
  | nil =>
    rw [and_iff_right List.not_mem_nil]
    exact literalBody_closing_iff
  | cons c cs ih =>
    have hsplit : units ((c :: cs).flatMap escapeChar ++ ['"']) =
        units (escapeChar c) ++ units (cs.flatMap escapeChar ++ ['"']) := by
      simp [units]
    rw [hsplit, literalBody_escapeChar_iff, List.mem_cons, not_or]
    simp only [ih]
    constructor
    · rintro ⟨hc, more, rfl, hcs, rfl⟩
      exact ⟨⟨Ne.symm hc, hcs⟩, rfl⟩
    · rintro ⟨⟨hc, hcs⟩, rfl⟩
      exact ⟨Ne.symm hc, _, rfl, hcs, rfl⟩

theorem toList_quote (s : String) :
    (quote s).toList = '"' :: (s.toList.flatMap escapeChar ++ ['"']) := by
  rw [quote, String.toList_ofList, quoteChars]

/-- A text that was written has one opening quote, and no Unicode escape. -/
theorem readsAs_quote_iff_body (s : String) :
    ReadsAs (quote s) value ↔
      LiteralBody (units (s.toList.flatMap escapeChar ++ ['"'])) value := by
  have hinput : undoUnicode? (quote s).toList =
      some (0x22 :: units (s.toList.flatMap escapeChar ++ ['"'])) := by
    rw [toList_quote, undoUnicode?_cons (by decide), undoUnicode?_escaped]
    rfl
  rw [ReadsAs, hinput]
  constructor
  · rintro ⟨us, hus, hbody⟩
    cases hus
    exact hbody
  · exact fun hbody => ⟨_, rfl, hbody⟩

/-- **A text that was written is read as it was, unless it has a carriage return.** For every text:

* what is written for it is exactly one string literal, whose value has the code units of the text,
  if there is no carriage return in the text; and no string literal at all if there is one;
* so the value of the literal is this text and no other. -/
theorem readsAs_quote_iff (s : String) :
    (∀ value, ReadsAs (quote s) value ↔ '\r' ∉ s.toList ∧ value = units s.toList) ∧
      ∀ t : String, ReadsAs (quote s) (units t.toList) ↔ '\r' ∉ s.toList ∧ t = s := by
  have hvalue : ∀ value, ReadsAs (quote s) value ↔
      '\r' ∉ s.toList ∧ value = units s.toList := fun value =>
    (readsAs_quote_iff_body s).trans literalBody_escaped_iff
  refine ⟨hvalue, fun t => (hvalue _).trans (and_congr_right fun _ => ?_)⟩
  exact ⟨fun h => String.toList_inj.1 (units_injective h), fun h => h ▸ rfl⟩

/-- A carriage return in the middle: the literal has no end on its line. -/
theorem not_readsAs_quote_carriageReturn : ¬ReadsAs (quote "a\rb") (units "a\rb".toList) := by
  rw [readsAs_quote_iff_body, literalBody_escaped_iff]
  exact fun h => h.1 (by decide)

end Bindery.Binding
