import Bindery.Text.Lines

/-!
# Sources of generated classes

All generated classes are written in one form: the package, the imports, and a declaration whose
body is a list of prepared lines. A fixed text may stand in front of everything.

* `ClassHeader` is the declaration, and `ClassHeader.qualifiedName` the name other classes use;
* `ClassFile.render` is the whole text.
-/

namespace Bindery.Binding

/-- What is declared. -/
inductive ClassKind where
  | classType
  | interfaceType
deriving DecidableEq, Repr

/-- The word that declares it. -/
def ClassKind.keyword : ClassKind → String
  | .classType => "class"
  | .interfaceType => "interface"

/-- The declaration of a class. The default package has an empty name. -/
structure ClassHeader where
  package : String
  name : String
  kind : ClassKind
  supertype : String
  imports : List String
deriving DecidableEq, Repr

/-- A class, with the lines of its body. -/
structure ClassFile where
  header : ClassHeader
  lines : List String
deriving DecidableEq, Repr

namespace ClassHeader

variable (h : ClassHeader)

/-- A class without imports. -/
def ofClass (package name supertype : String) : ClassHeader :=
  ⟨package, name, .classType, supertype, []⟩

/-- The name with its package. -/
def qualifiedName : String :=
  if h.package = "" then h.name else h.package ++ "." ++ h.name

/-- The name of the file that holds the class. -/
def fileName : String := h.name ++ ".java"

/-- The package line and the blank line after it. -/
def packageLines : List String :=
  if h.package = "" then [] else ["package " ++ h.package ++ ";", ""]

/-- The import lines and the blank line after them. -/
def importLines : List String :=
  if h.imports = [] then [] else h.imports.map (fun i => "import " ++ i ++ ";") ++ [""]

/-- The line that opens the class. -/
def openingLine : String :=
  "public " ++ h.kind.keyword ++ " " ++ h.name ++ " extends " ++ h.supertype ++ " \x7b"

end ClassHeader

namespace ClassFile

/-- All lines of a class file. -/
def allLines (c : ClassFile) : List String :=
  c.header.packageLines ++ c.header.importLines ++ [c.header.openingLine] ++ c.lines ++ ["\x7d"]

/-- The text of a class file, after a fixed text if there is one. -/
def render (preamble : Option String) (c : ClassFile) : String :=
  (preamble.map Text.endLine).getD "" ++ Text.joinLines c.allLines

end ClassFile

end Bindery.Binding
