import Bindery.Text.Blank

/-!
# Names of declared types

Headers spell one name with incidental blanks: `id <NSCopying, NSObject>` and
`id<NSCopying,NSObject>` are the same name. A `TypeName` holds no blank, and
`TypeName.ofDeclared` drops those of a declaration.
-/

namespace Bindery

/-- The name of a declared type, without blanks. -/
structure TypeName where
  text : String
  solid : ∀ c ∈ text.toList, Text.isBlank c = false
deriving DecidableEq

namespace TypeName

/-- The name that a declaration spells. -/
def ofDeclared (s : String) : TypeName :=
  ⟨Text.removeBlanks s, fun _ h => Text.isBlank_of_mem_removeBlanks h⟩

/-- The text shown for a type without a name. -/
def anonymous : String := "<anonymous>"

/-- The text shown for a name that may be absent. -/
def label : Option TypeName → String
  | none => anonymous
  | some n => n.text

@[ext]
theorem ext {a b : TypeName} (h : a.text = b.text) : a = b := by
  cases a
  cases b
  simpa using h

@[simp]
theorem ofDeclared_text (n : TypeName) : ofDeclared n.text = n :=
  ext (Text.removeBlanks_of_solid n.solid)

end TypeName

end Bindery
