import Bindery.Binding.Literal
import Bindery.Binding.Mapping

/-!
# Generated classes for native types

* `Binding.wrapper?` is the wrapper class of a struct or union: constants for both encodings and
  for the member names, and a constructor from a buffer;
* `Binding.typeIndex` is the class that lists every type with its encodings and its target;
* `Binding.selectWrappers` keeps the first wrapper of each name, and none with the name of the
  index.
-/

namespace Bindery.Binding

/-- The line of a string constant. -/
def constantLine (name value : String) : String :=
  "\tpublic static final String " ++ name ++ " = " ++ quote value ++ ";"

/-- The line of the member names. A member without a name gives an empty text. -/
def membersLine (names : List (Option String)) : String :=
  "\tpublic static final String[] MEMBERS = \x7b " ++
    ", ".intercalate (names.map fun n => quote (n.getD "")) ++ " \x7d;"

/-- The lines of the constructor of a wrapper class. -/
def constructorLines (className runtime : String) : List String :=
  ["\tpublic " ++ className ++ "(" ++ runtime ++ ".NativeBuffer buffer) \x7b",
    "\t\tsuper(buffer);", "\t\x7d"]

/-- The wrapper class of a struct or union, by its 64-bit shape. -/
def wrapper? (t : NativeType) (package runtime : String) : Option ClassFile :=
  match t.shape64, wrapperName? t with
  | .composite k _ ms, some name =>
    some ⟨.ofClass package name (runtime ++ "." ++ genericName k),
      [constantLine "ENCODING_32" t.shape32.encode, constantLine "ENCODING_64" t.shape64.encode,
        membersLine ms.names, ""] ++ constructorLines name runtime⟩
  | _, _ => none

/-- The name of the class that lists the types. -/
def indexName : String := "Types"

/-- A text that may be absent, as an entry of the index holds it. -/
def quoteOrNull : Option String → String
  | none => "null"
  | some s => quote s

/-- The line of one type, with the target that was settled for it. -/
def indexLine (t : NativeType) (target : Option Target) : String :=
  "\t\t\x7b " ++ ", ".intercalate [quoteOrNull (t.name.map TypeName.text), quote t.shape32.encode,
    quote t.shape64.encode, quoteOrNull (target.map Target.name)] ++ " \x7d,"

/-- The class that lists types in a given order. -/
def typeIndex (types : List (NativeType × Option Target)) (package : String) : ClassFile :=
  ⟨.ofClass package indexName "java.lang.Object",
    ["\tpublic static final String[][] ENTRIES = \x7b"] ++
      types.map (fun (t, target) => indexLine t target) ++
      ["\t\x7d;", "", "\tprivate " ++ indexName ++ "() \x7b\x7d"]⟩

/-- The wrappers whose names are not taken yet, the first of each name only. -/
def selectWrappers (taken : List String) : List ClassFile → List ClassFile
  | [] => []
  | c :: cs =>
    if c.header.name = indexName ∨ c.header.name ∈ taken then selectWrappers taken cs
    else c :: selectWrappers (c.header.name :: taken) cs

end Bindery.Binding
