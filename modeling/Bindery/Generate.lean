import Bindery.Canonical
import Bindery.Config
import Bindery.Emission
import Bindery.Output

/-!
# A run of the generator

A run reads a manifest and the optional header, finds the types, resolves them, and writes the
artifacts. Nothing is written unless everything before the emission went well. The artifacts are
written in order, also where `Config.parallel` allows it to be done side by side: that mode is not
modelled (see `Bindery.Emission`), and nothing here reads the field.

* `Plan.ofManifest` does all that needs no files;
* `generateInto` writes the artifacts of a manifest to a destination;
* `generate` is a whole run, on the files of a `Disk`.
-/

namespace Bindery

/-- Why a run failed. -/
inductive GenerateError where
  | manifest (e : ManifestError)
  /-- The header file cannot be read as text. -/
  | header (path : Path)
  /-- Some declared names have no type. -/
  | types (errors : List TypeError)
  | resolve (e : Unresolvable)
  | emit (e : EmitError)

namespace GenerateError

/-- The text of the error. -/
def message : GenerateError → String
  | .manifest e => e.message
  | .header p => "cannot read header file `" ++ p.text ++ "`"
  | .types errors => toString errors.length ++ " declared type(s) could not be merged"
  | .resolve e => e.message
  | .emit e => e.message

/-- The errors of single names. -/
def typeErrors : GenerateError → List TypeError
  | .types errors => errors
  | _ => []

end GenerateError

/-- What a run is about to write. -/
structure Plan where
  /-- What the artifacts are made from. -/
  output : Output
  /-- The merges of different names. -/
  collisions : List Collision
  artifacts : List Artifact

/-- What a run has written. -/
structure Summary where
  /-- The number of types in the registry. -/
  types : Nat
  /-- The number of merges of different names. -/
  collisions : Nat
  /-- The paths of the artifacts, in the order in which they were written. -/
  artifacts : List Path
deriving DecidableEq, Repr

/-- The line that reports a run. -/
def Summary.text (s : Summary) : String :=
  toString s.types ++ " canonical types, " ++ toString s.collisions ++ " name collisions, " ++
    toString s.artifacts.length ++ " files written"

/-- Resolves the types of a workbench, and ends interning. -/
def Workbench.output (w : Workbench) (m : Manifest) (base : Path) (runtime : String) :
    Except Unresolvable Output :=
  let mapping : Binding.Mapping := ⟨runtime, m.wrapperPackage⟩
  match w.registry.resolveAll w.instances mapping.resolver with
  | (.error e, _) => .error e
  | (.ok _, instances) => .ok ⟨w.registry.freeze, instances, m, base, runtime⟩

/-- Finds the types of a manifest, resolves them, and lists the artifacts. -/
def Plan.ofManifest (m : Manifest) (base : Path) (runtime : String) :
    Except GenerateError Plan :=
  match (Workbench.new .standard).canonicalize m.observations with
  | (⟨_, []⟩, w) => do
    let output ← (w.output m base runtime).mapError .resolve
    let artifacts ← output.artifacts.mapError .manifest
    return ⟨output, w.merger.collisions, artifacts⟩
  | (⟨_, errors⟩, _) => .error (.types errors)

variable {m : Type → Type} [Monad m]

/-- Writes the artifacts of a manifest, in order. The sources of copies are relative to the base. -/
def generateInto (d : Destination m) (manifest : Manifest) (base : Path) (runtime : String)
    (preamble : Option String) : m (Except GenerateError Summary) :=
  match Plan.ofManifest manifest base runtime with
  | .error e => return .error e
  | .ok plan => do
    match ← d.emitAll preamble plan.artifacts with
    | .error e => return .error (.emit e)
    | .ok paths =>
      return .ok ⟨plan.output.registry.pool.length, plan.collisions.length, paths⟩

/-- The files that a run works with. -/
structure Disk (m : Type → Type) where
  /-- Reads a whole file. -/
  readFile : Path → m (Option Bytes)
  /-- Writes artifacts below a directory. -/
  destination : Path → Destination m

namespace Disk

variable (disk : Disk m)

/-- Reads a whole file as text. -/
def readText (p : Path) : m (Option String) := do
  return (← disk.readFile p).bind Bytes.text?

/-- Reads the manifest of a run. -/
def readManifest (p : Path) : m (Except ManifestError Manifest) := do
  match ← disk.readText p with
  | none => return .error (.unreadable p)
  | some text => return Manifest.parse text p

/-- Reads the header of a run, if it has one. -/
def readHeader : Option Path → m (Except GenerateError (Option String))
  | none => return .ok none
  | some p => do
    match ← disk.readText p with
    | none => return .error (.header p)
    | some text => return .ok (some text)

end Disk

/-- Reads what a configuration names, and writes the artifacts to its output directory, in order
whether or not it allows them to be written side by side. -/
def generate (disk : Disk m) (c : Config) : m (Except GenerateError Summary) := do
  match ← disk.readManifest c.manifest with
  | .error e => return .error (.manifest e)
  | .ok manifest =>
    match ← disk.readHeader c.header with
    | .error e => return .error e
    | .ok preamble =>
      generateInto (disk.destination c.outDir) manifest (c.manifest.parent?.getD .empty) c.runtime
        preamble

end Bindery
