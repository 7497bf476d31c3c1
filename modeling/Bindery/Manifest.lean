import Bindery.JsonValue
import Bindery.Observation
import Bindery.Path

/-!
# Manifests

A scan leaves one JSON document: the observations, in an order that decides what is seen first, the
runtime sources to copy, and the package of the generated wrappers. Every observation has a width
of 32 or 64 bits, and every copy a file name of its own or one that its source ends with.

* `Manifest.ofJson?` reads the form of a manifest;
* `Manifest.parse` also checks what the form leaves open, and names the first fault.
-/

namespace Bindery

/-- A runtime source that is copied to the output. -/
structure CopyEntry where
  source : Path
  package : String
  fileName : Option String
deriving DecidableEq, Repr

/-- What a scan leaves. -/
structure Manifest where
  package : Option String
  observations : List Observation
  copies : List CopyEntry
deriving DecidableEq, Repr

/-- What is wrong with a manifest. -/
inductive ManifestError where
  /-- The file cannot be read as text. -/
  | unreadable (path : Path)
  /-- The text is not a manifest. -/
  | malformed (path : Path)
  /-- An observation has another width than 32 or 64 bits. -/
  | badAbi (index : Nat) (site : String) (abi : Nat)
  /-- A copy has no file name, and its source ends with none. -/
  | missingFileName (source : Path)
deriving DecidableEq, Repr

/-- The text of the error. -/
def ManifestError.message : ManifestError → String
  | .unreadable p => "cannot read manifest `" ++ p.text ++ "`"
  | .malformed p => "malformed manifest `" ++ p.text ++ "`"
  | .badAbi index site abi =>
    "observation " ++ toString index ++ " (`" ++ site ++ "`): ABI width must be 32 or 64, got " ++
      toString abi
  | .missingFileName p => "copy of `" ++ p.text ++ "` has no file name"

/-! ### Copies -/

namespace CopyEntry

variable (c : CopyEntry)

/-- The name of the copy: its own, or else the last component of its source. -/
def targetFileName : Except ManifestError String :=
  match c.fileName.or c.source.fileName? with
  | some name => .ok name
  | none => .error (.missingFileName c.source)

/-- The source, relative to a directory. -/
def sourceFrom (base : Path) : Path := base.push c.source

end CopyEntry

/-! ### The form of a manifest -/

open JsonValue (string? optionalString? naturalBelow? items?)

/-- The first number that is too great for a width. -/
def abiBound : Nat := UInt32.size

/-- Reads an observation. -/
def Observation.ofJson? (j : JsonValue) : Option Observation := do
  match ← j.record? ["name", "site", "abi", "encoding"] with
  | [name, site, abi, encoding] =>
    return ⟨← optionalString? name, ← string? site, ← naturalBelow? abiBound abi,
      ← string? encoding⟩
  | _ => none

/-- Reads a copy. -/
def CopyEntry.ofJson? (j : JsonValue) : Option CopyEntry := do
  match ← j.record? ["source", "package", "file_name"] with
  | [source, package, fileName] =>
    return ⟨⟨← string? source⟩, ← string? package, ← optionalString? fileName⟩
  | _ => none

namespace Manifest

/-- Reads a manifest. -/
def ofJson? (j : JsonValue) : Option Manifest := do
  match ← j.record? ["package", "observations", "copies"] with
  | [package, observations, copies] =>
    return ⟨← optionalString? package,
      ← (← items? observations).mapM Observation.ofJson?,
      ← (← items? copies).mapM CopyEntry.ofJson?⟩
  | _ => none

/-! ### Checks -/

/-- Checks the widths of some observations, the first of which has a given index. -/
def checkObservations (index : Nat) : List Observation → Except ManifestError Unit
  | [] => .ok ()
  | o :: os =>
    match Abi.ofBits? o.abi with
    | some _ => checkObservations (index + 1) os
    | none => .error (.badAbi index o.site o.abi)

/-- Checks that copies have file names. -/
def checkCopies : List CopyEntry → Except ManifestError Unit
  | [] => .ok ()
  | c :: cs =>
    match c.targetFileName with
    | .ok _ => checkCopies cs
    | .error e => .error e

variable (m : Manifest)

/-- Checks a manifest: observations first, then copies. -/
def check : Except ManifestError Unit := do
  checkObservations 0 m.observations
  checkCopies m.copies

/-- Reads the text of a manifest. The path is that of its file. -/
def parse (text : String) (path : Path) : Except ManifestError Manifest :=
  match (JsonValue.read? text).bind ofJson? with
  | none => .error (.malformed path)
  | some m => m.check.map fun _ => m

/-- The package of the generated wrappers when a manifest names none. -/
def defaultPackage : String := "nbind.generated"

/-- The package of the generated wrappers. -/
def wrapperPackage : String := m.package.getD defaultPackage

end Manifest

end Bindery
