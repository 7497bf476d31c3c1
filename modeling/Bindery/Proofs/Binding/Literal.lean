import Bindery.Binding.Literal
import Mathlib.Data.List.Basic

/-!
# Reading string literals

A string literal is read up to the first quote that no backslash stands before, and its escapes are
undone on the way. No character of a text can end its literal early: quotes and backslashes are
written as escapes.

* `Binding.readQuoted?` reads the rest of a literal, after the opening quote;
* `Binding.readQuoted?_escaped` : it gives back any text that was written, so that
  `Binding.quote_injective` : different texts have different literals;
* `Binding.newline_notMem_quote` : a literal stays on one line.
-/

namespace Bindery.Binding

/-- The character that an escape stands for, by the character after the backslash. -/
def unescapeChar? : Char → Option Char
  | '"' => some '"'
  | '\\' => some '\\'
  | 'n' => some '\n'
  | 't' => some '\t'
  | _ => none

/-- Reads up to the closing quote of a literal, and gives what comes after it. -/
def readQuoted? : List Char → Option (List Char × List Char)
  | [] => none
  | '"' :: rest => some ([], rest)
  | ['\\'] => none
  | '\\' :: c :: cs => do
    let d ← unescapeChar? c
    let (text, rest) ← readQuoted? cs
    return (d :: text, rest)
  | c :: cs => do
    let (text, rest) ← readQuoted? cs
    return (c :: text, rest)

/-- A character is written as an escape of it, or as it is if it is none of four. -/
theorem escapeChar_cases (c : Char) :
    (∃ d, escapeChar c = ['\\', d] ∧ d ≠ '\n' ∧ unescapeChar? d = some c) ∨
      escapeChar c = [c] ∧ c ≠ '"' ∧ c ≠ '\\' ∧ c ≠ '\n' := by
  unfold escapeChar
  split
  · exact .inl ⟨'"', rfl, by decide, rfl⟩
  · exact .inl ⟨'\\', rfl, by decide, rfl⟩
  · exact .inl ⟨'n', rfl, by decide, rfl⟩
  · exact .inl ⟨'t', rfl, by decide, rfl⟩
  · next hquote hslash hnewline _ => exact .inr ⟨rfl, hquote, hslash, hnewline⟩

theorem readQuoted?_cons {c : Char} (hquote : c ≠ '"') (hslash : c ≠ '\\') (cs : List Char) :
    readQuoted? (c :: cs) = (readQuoted? cs).map fun (text, rest) => (c :: text, rest) := by
  cases h : readQuoted? cs <;> simp [readQuoted?, hslash, h]

/-- **A text that was written is read as it was**, whatever comes after it. -/
theorem readQuoted?_escaped (cs rest : List Char) :
    readQuoted? (cs.flatMap escapeChar ++ '"' :: rest) = some (cs, rest) := by
  induction cs with
  | nil => rfl
  | cons c cs ih =>
    rw [List.flatMap_cons, List.append_assoc]
    rcases escapeChar_cases c with ⟨d, he, -, hd⟩ | ⟨he, hquote, hslash, -⟩
    · rw [he]
      simp [readQuoted?, hd, ih]
    · rw [he, List.singleton_append, readQuoted?_cons hquote hslash, ih]
      rfl

theorem quote_injective : Function.Injective quote := by
  intro s s' h
  have hread := congrArg (fun literal : String => readQuoted? literal.toList.tail) h
  simpa only [quote, quoteChars, String.toList_ofList, List.tail_cons, readQuoted?_escaped,
    Option.some.injEq, Prod.mk.injEq, and_true, String.toList_inj] using hread

theorem newline_notMem_quote (s : String) : '\n' ∉ (quote s).toList := by
  rw [quote, String.toList_ofList, quoteChars, List.mem_cons, List.mem_append, List.mem_flatMap]
  rintro (h | ⟨c, -, hc⟩ | h)
  · revert h
    decide
  · rcases escapeChar_cases c with ⟨d, he, hd, -⟩ | ⟨he, -, -, hne⟩
    · rw [he] at hc
      simp [hd.symm] at hc
    · rw [he, List.mem_singleton] at hc
      exact hne hc.symm
  · revert h
    decide

end Bindery.Binding
