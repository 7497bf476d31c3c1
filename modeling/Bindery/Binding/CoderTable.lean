import Bindery.Binding.ClassFile
import Bindery.MixedCoder

/-!
# The table of coders

The coders of mixed primitives are the fields of one generated class, `MixedPrimitiveCoder`, which
lies in the package of the runtime.
-/

namespace Bindery.Binding

/-- The coders of a run, and the package of the runtime whose class they are made from. -/
structure CoderTable where
  runtime : String
  coders : List MixedCoder
deriving DecidableEq

namespace CoderTable

/-- The name of the class. -/
def className : String := "MixedPrimitiveCoder"

/-- The name of the class with its package. -/
def qualifiedName (runtime : String) : String := runtime ++ "." ++ className

variable (t : CoderTable)

/-- The declaration of the class. -/
def header : ClassHeader := .ofClass t.runtime className "java.lang.Object"

/-- The line of one field. -/
def fieldLine (c : MixedCoder) : String :=
  "\tpublic static final " ++ t.runtime ++ ".PrimitiveCoder " ++ c.field ++ " = " ++
    c.definition ++ ";"

/-- The class with all fields. -/
def classFile : ClassFile := ⟨t.header, t.coders.map t.fieldLine⟩

end CoderTable

end Bindery.Binding
