import Bindery.Binding.CoderTable
import Bindery.Path

/-!
# Artifacts

An artifact is one output file: a copy of a source of the runtime, a generated class, or the table
of coders. Each has a `Location`, that is, a package and a file name, and its path follows from it.
-/

namespace Bindery

/-- Where an output file lies. -/
structure Location where
  package : String
  fileName : String
deriving DecidableEq, Repr

/-- The path below the output directory. -/
def Location.path (l : Location) : Path := (Path.ofPackage l.package).push ⟨l.fileName⟩

/-- The location of a class. -/
def Binding.ClassHeader.location (h : ClassHeader) : Location := ⟨h.package, h.fileName⟩

/-- One output file. -/
inductive Artifact where
  /-- A file copied byte for byte. -/
  | copied (source : Path) (location : Location)
  /-- A generated class. -/
  | generated (file : Binding.ClassFile)
  /-- The table of coders. -/
  | coders (table : Binding.CoderTable)
deriving DecidableEq

namespace Artifact

/-- Where the artifact lies. -/
def location : Artifact → Location
  | .copied _ l => l
  | .generated c => c.header.location
  | .coders t => t.header.location

/-- The path below the output directory. -/
def path (a : Artifact) : Path := a.location.path

/-- The name of the kind of artifact. -/
def label : Artifact → String
  | .copied _ _ => "copied"
  | .generated _ => "class"
  | .coders _ => "mixed-coders"

end Artifact

end Bindery
