import Bindery.Artifact
import Bindery.Bytes

/-!
# Emission

Artifacts are written one after the other, each to a sink of its own. Before anything is opened,
two artifacts with the same path are refused. The first artifact that cannot be written ends the
emission; its sink is closed like any other, and what was written before stays.

What this does not model: artifacts that are written side by side, which `Config.parallel` allows.
They are then written in no fixed order, and several at a time. Their paths still come in the order
of the artifacts; but where several cannot be written, any of their errors may be the one that is
given, and any of the others may have been written by then. Emission here goes in order, whatever a
configuration allows. To sinks that have no part in the files copied, the order makes no difference
(`Bindery.Proofs.Emission.Order`).

* `Destination` is what emission asks of its surroundings;
* `Destination.emit` writes one artifact, `Destination.emitEach` several in order;
* `Destination.emitAll` also looks for repeated paths first.
-/

namespace Bindery

/-- Why artifacts cannot be written. -/
inductive EmitError where
  /-- The sink of an artifact cannot be opened. -/
  | cannotOpen (path : Path)
  /-- A sink does not take what is written to it. -/
  | cannotWrite (path : Path)
  /-- The source of a copy cannot be read. -/
  | cannotRead (source : Path)
  /-- Two artifacts have the same path. -/
  | duplicateTarget (path : Path)
deriving DecidableEq, Repr

namespace EmitError

/-- The file that the error is about. -/
def path : EmitError → Path
  | .cannotOpen p => p
  | .cannotWrite p => p
  | .cannotRead p => p
  | .duplicateTarget p => p

/-- The text of the error. -/
def message : EmitError → String
  | .cannotOpen p => "cannot open `" ++ p.text ++ "` for writing"
  | .cannotWrite p => "failed writing `" ++ p.text ++ "`"
  | .cannotRead p => "cannot read copy source `" ++ p.text ++ "`"
  | .duplicateTarget p => "two artifacts target `" ++ p.text ++ "`"

end EmitError

/-- The surroundings of an emission: sinks to write to, and files to copy from. Sinks are named by
the path of their artifact. An action that can fail says whether it did its work. -/
structure Destination (m : Type → Type) where
  /-- Opens an empty sink. -/
  openSink : Path → m Bool
  /-- Writes to an open sink. -/
  write : Path → Bytes → m Bool
  /-- Makes sure that all that was written has arrived. -/
  flush : Path → m Bool
  /-- Closes an open sink. -/
  close : Path → m Unit
  /-- Reads a whole file. -/
  readSource : Path → m (Option Bytes)

/-- The first path that has the components of one before it. -/
def firstRepeat (seen : List (List PathComponent)) : List Path → Option Path
  | [] => none
  | p :: ps =>
    if p.components ∈ seen then some p else firstRepeat (p.components :: seen) ps

theorem firstRepeat_eq_none_iff {seen : List (List PathComponent)} {ps : List Path} :
    firstRepeat seen ps = none ↔
      (ps.map Path.components).Nodup ∧ ∀ p ∈ ps, p.components ∉ seen := by
  induction ps generalizing seen with
  | nil => simp [firstRepeat]
  | cons p ps ih =>
    unfold firstRepeat
    split
    · simp [*]
    · simp only [ih, List.map_cons, List.nodup_cons, List.mem_cons, not_or, forall_eq_or_imp,
        List.mem_map]
      grind

namespace Destination

variable {m : Type → Type} [Monad m] (d : Destination m)

/-- The bytes of an artifact. Classes start with the preamble, copies never do. -/
def content (preamble : Option String) : Artifact → m (Except EmitError Bytes)
  | .copied source _ => do
    match ← d.readSource source with
    | some bytes => return .ok bytes
    | none => return .error (.cannotRead source)
  | .generated c => return .ok (.ofText (c.render preamble))
  | .coders t => return .ok (.ofText (t.classFile.render preamble))

/-- Writes an artifact to its open sink. -/
def fill (preamble : Option String) (a : Artifact) : m (Except EmitError Unit) := do
  match ← d.content preamble a with
  | .error e => return .error e
  | .ok bytes =>
    if ← d.write a.path bytes then
      if ← d.flush a.path then return .ok () else return .error (.cannotWrite a.path)
    else return .error (.cannotWrite a.path)

/-- Writes an artifact and gives its path. -/
def emit (preamble : Option String) (a : Artifact) : m (Except EmitError Path) := do
  if ← d.openSink a.path then
    let filled ← d.fill preamble a
    d.close a.path
    return filled.map fun _ => a.path
  else return .error (.cannotOpen a.path)

/-- Writes artifacts in order, up to the first that fails, and gives their paths. -/
def emitEach (preamble : Option String) : List Artifact → m (Except EmitError (List Path))
  | [] => return .ok []
  | a :: as => do
    match ← d.emit preamble a with
    | .error e => return .error e
    | .ok p =>
      match ← emitEach preamble as with
      | .error e => return .error e
      | .ok ps => return .ok (p :: ps)

/-- Writes artifacts in order, one at a time, unless two of them have the same path. -/
def emitAll (preamble : Option String) (as : List Artifact) :
    m (Except EmitError (List Path)) :=
  match firstRepeat [] (as.map Artifact.path) with
  | some p => return .error (.duplicateTarget p)
  | none => d.emitEach preamble as

end Destination

end Bindery
