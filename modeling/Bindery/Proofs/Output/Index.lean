import Bindery.Proofs.Binding.Literal
import Bindery.Proofs.NativeType.Order
import Bindery.Output

/-!
# Reading the index of types

The index has one line for each type, with four fields: the name, both encodings, and the name of
the target. Names and encodings may hold quotes, commas and braces. As each field that is a text
stands in a literal, its end is found all the same, and the line can be read back.

* `IndexEntry` is what an entry says, and `IndexEntry.read?` reads it from its line;
* `IndexEntry.read?_indexLine` : the entry of a type with printable shapes;
* `Binding.entryLines` finds the lines of the entries in a class, and `Binding.readIndex?` reads
  them all;
* `Binding.readIndex?_typeIndex` : an index is read as it was written.
-/

namespace Bindery

namespace Binding

/-- Reads a field of an entry: a literal, or a bare `null` where there is no text. -/
def readField? : List Char → Option (Option String × List Char)
  | '"' :: cs => (readQuoted? cs).map fun (text, rest) => (some (String.ofList text), rest)
  | cs => (cs.dropPrefix? "null".toList).map fun rest => (none, rest)

theorem readField?_quoteOrNull (s : Option String) (rest : List Char) :
    readField? ((quoteOrNull s).toList ++ rest) = some (s, rest) := by
  cases s with
  | none => simp [quoteOrNull, readField?, List.dropPrefix?]
  | some s =>
    rw [quoteOrNull, quote, String.toList_ofList, quoteChars, List.cons_append, readField?,
      List.append_assoc, List.singleton_append, readQuoted?_escaped]
    simp

theorem newline_notMem_quoteOrNull (s : Option String) : '\n' ∉ (quoteOrNull s).toList := by
  cases s with
  | none => decide
  | some s => exact newline_notMem_quote s

end Binding

/-- What an entry of the index says of a type. -/
structure IndexEntry where
  name : Option String
  shape32 : Shape
  shape64 : Shape
  /-- The name of the target. -/
  target : Option String
deriving DecidableEq

namespace IndexEntry

open Binding

/-- Reads an entry from its line. -/
def read? (line : String) : Option IndexEntry := do
  let cs ← line.toList.dropPrefix? "\t\t\x7b ".toList
  let (name, cs) ← readField? cs
  let (encoding32, cs) ← readField? (← cs.dropPrefix? ", ".toList)
  let (encoding64, cs) ← readField? (← cs.dropPrefix? ", ".toList)
  let (target, cs) ← readField? (← cs.dropPrefix? ", ".toList)
  if cs = " \x7d,".toList then
    let shape32 ← (Shape.decode (← encoding32)).toOption
    let shape64 ← (Shape.decode (← encoding64)).toOption
    return ⟨name, shape32, shape64, target⟩
  else none

/-- The entry of a type with the target that was settled for it. -/
def ofType (t : NativeType) (target : Option Target) : IndexEntry :=
  ⟨t.name.map TypeName.text, t.shape32, t.shape64, target.map Target.name⟩

end IndexEntry

namespace Binding

variable {t : NativeType} {target : Option Target}

theorem toList_indexLine (t : NativeType) (target : Option Target) :
    (indexLine t target).toList =
      "\t\t\x7b ".toList ++ ((quoteOrNull (t.name.map TypeName.text)).toList ++
        (", ".toList ++ ((quoteOrNull (some t.shape32.encode)).toList ++
          (", ".toList ++ ((quoteOrNull (some t.shape64.encode)).toList ++
            (", ".toList ++ ((quoteOrNull (target.map Target.name)).toList ++
              " \x7d,".toList))))))) := by
  have hfields : ∀ a b c d : String,
      ", ".intercalate [a, b, c, d] = a ++ ", " ++ b ++ ", " ++ c ++ ", " ++ d :=
    fun _ _ _ _ => rfl
  simp only [indexLine, hfields, quoteOrNull, String.toList_append, List.append_assoc]

theorem newline_notMem_indexLine (t : NativeType) (target : Option Target) :
    '\n' ∉ (indexLine t target).toList := by
  have hfixed : '\n' ∉ "\t\t\x7b ".toList ∧ '\n' ∉ ", ".toList ∧ '\n' ∉ " \x7d,".toList := by
    decide
  simp only [toList_indexLine, List.mem_append, newline_notMem_quoteOrNull, hfixed, or_self,
    not_false_eq_true]

end Binding

open Binding

/-- **The line of a type is read as the entry of the type**, if both of its shapes are printable. -/
theorem IndexEntry.read?_indexLine {t : NativeType} (ht : t.Printable) (target : Option Target) :
    read? (indexLine t target) = some (ofType t target) := by
  have hskip : ∀ l rest : List Char, (l ++ rest).dropPrefix? l = some rest :=
    fun l rest => List.dropPrefix?_append_of_beq rest BEq.rfl
  simp only [read?, toList_indexLine, hskip, readField?_quoteOrNull, Option.bind_eq_bind,
    Option.bind_some, if_pos, ht.shape32.decode_encode, ht.shape64.decode_encode,
    Except.toOption]
  rfl

namespace Binding

/-- The lines of a class between the one that opens the table of entries and the one that closes
it. -/
def entryLines (c : ClassFile) : List String := c.lines.tail.takeWhile (· ≠ "\t\x7d;")

/-- Reads all entries of an index. -/
def readIndex? (c : ClassFile) : Option (List IndexEntry) := (entryLines c).mapM IndexEntry.read?

/-- The line of an entry does not close the table. -/
theorem indexLine_ne_closing (t : NativeType) (target : Option Target) :
    indexLine t target ≠ "\t\x7d;" := by
  intro h
  have hstart := congrArg (fun s : String => s.toList.dropPrefix? "\t\t\x7b ".toList) h
  rw [toList_indexLine, List.dropPrefix?_append_of_beq _ BEq.rfl] at hstart
  cases hstart

theorem entryLines_typeIndex (types : List (NativeType × Option Target)) (package : String) :
    entryLines (typeIndex types package) = types.map fun (t, target) => indexLine t target := by
  have hlines : ∀ line ∈ types.map (fun (t, target) => indexLine t target),
      decide (line ≠ "\t\x7d;") = true := by
    rw [List.forall_mem_map]
    exact fun p _ => decide_eq_true (indexLine_ne_closing p.1 p.2)
  rw [entryLines, typeIndex, List.singleton_append, List.cons_append, List.tail_cons,
    List.takeWhile_append_of_pos hlines]
  simp

/-- **An index is read as it was written.** -/
theorem readIndex?_typeIndex {types : List (NativeType × Option Target)}
    (h : ∀ p ∈ types, p.1.Printable) (package : String) :
    readIndex? (typeIndex types package) =
      some (types.map fun (t, target) => IndexEntry.ofType t target) := by
  rw [readIndex?, entryLines_typeIndex]
  induction types with
  | nil => rfl
  | cons p types ih =>
    obtain ⟨hp, htypes⟩ := List.forall_mem_cons.1 h
    simp only [List.map_cons, List.mapM_cons, IndexEntry.read?_indexLine hp, ih htypes]
    rfl

end Binding

end Bindery
