import Bindery.CommandLine

/-!
# The program

The files of the machine as a `Disk`, and the entry point that hands them to `CommandLine.run`.
-/

namespace Bindery

/-- Runs an action and says whether it went well. -/
def wentWell (act : IO Unit) : IO Bool := do
  try
    act
    return true
  catch _ => return false

/-- Reads a whole file of the machine. -/
def readMachineFile (p : Path) : IO (Option Bytes) := do
  try
    let bytes ← IO.FS.readBinFile p.text
    return some bytes.data.toList
  catch _ => return none

/-- Makes an empty file of the machine, and the directories above it. -/
def openMachineFile (p : Path) : IO Unit := do
  match p.parent? with
  | some parent => unless parent = .empty do IO.FS.createDirAll parent.text
  | none => pure ()
  IO.FS.writeBinFile p.text .empty

/-- Adds bytes at the end of a file of the machine. -/
def appendMachineFile (p : Path) (bytes : Bytes) : IO Unit :=
  IO.FS.withFile p.text .append fun file => file.write ⟨bytes.toArray⟩

/-- The files of the machine. -/
def machine : Disk IO where
  readFile := readMachineFile
  destination root := {
    openSink := fun p => wentWell (openMachineFile (root.push p))
    write := fun p bytes => wentWell (appendMachineFile (root.push p) bytes)
    flush := fun _ => return true
    close := fun _ => return ()
    readSource := readMachineFile }

end Bindery

/-- Runs the program with its arguments, and gives its exit code. -/
def main (args : List String) : IO UInt32 := do
  let runtime ← IO.getEnv Bindery.Config.runtimeVariable
  let env := fun name => if name = Bindery.Config.runtimeVariable then runtime else none
  let outcome ← Bindery.CommandLine.run Bindery.machine env args
  (← IO.getStderr).putStr outcome.errors
  (← IO.getStdout).putStr outcome.output
  return UInt32.ofNat outcome.exitCode
