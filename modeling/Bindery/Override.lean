/-!
# Overrides of the merge

Some declarations are known to be inconsistent in a way that the merge of shapes rejects. Each such
name has an entry in a table, with a rule and the reason for it. The table is looked up by the
exact text of a name; entries keep the order in which their names came in.

* `Overrides.insert` adds an entry and gives the one that it replaces;
* `Overrides.get?` and `Overrides.rule?` look one up, and `Overrides.get?_insert` says how the two
  work together.
-/

namespace Bindery

/-- What to do when a name in the table is merged. -/
inductive OverrideRule where
  /-- The type seen first is kept and its shapes are not merged. -/
  | keepFirst
deriving DecidableEq, Repr

/-- An exception to the merge, for one name. -/
structure Override where
  name : String
  rule : OverrideRule
  reason : String
deriving DecidableEq, Repr

/-- A table with at most one entry for a name. -/
structure Overrides where
  entries : List Override
deriving Repr

namespace Overrides

/-- The table with no entry. -/
def empty : Overrides := ⟨[]⟩

/-- The entry for a name. -/
def get? (o : Overrides) (name : String) : Option Override :=
  o.entries.find? fun e => e.name = name

/-- The rule for a name. A type without a name has none. -/
def rule? (o : Overrides) (name : Option String) : Option OverrideRule :=
  (name.bind o.get?).map Override.rule

/-- Puts an entry in the place of the one with its name, or else at the end. -/
def place (entry : Override) : List Override → List Override
  | [] => [entry]
  | e :: es => if e.name = entry.name then entry :: es else e :: place entry es

/-- Adds an entry, or replaces the one with its name. -/
def insert (o : Overrides) (entry : Override) : Overrides := ⟨place entry o.entries⟩

/-- The number of entries. -/
def size (o : Overrides) : Nat := o.entries.length

/-- The table that the generator works with: `OSStatus` is `long` in some headers, and `long` or
`int` by binary interface in others. -/
def standard : Overrides :=
  empty.insert ⟨"OSStatus", .keepFirst,
    "declared as `long` in some headers and `long`/`int` in others"⟩

@[simp]
theorem get?_empty (name : String) : empty.get? name = none := rfl

theorem get?_insert (o : Overrides) (entry : Override) (name : String) :
    (o.insert entry).get? name = if entry.name = name then some entry else o.get? name := by
  unfold insert get?
  simp only
  induction o.entries with
  | nil => simp [place]
  | cons e es ih =>
    by_cases h : e.name = entry.name
    · by_cases hn : entry.name = name <;> simp [place, h, hn]
    · rw [place, if_neg h]
      by_cases hn : e.name = name
      · subst hn
        simp [Ne.symm h]
      · simp [hn, ih]

end Overrides

end Bindery
