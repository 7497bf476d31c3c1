import Bindery.FileTree
import Bindery.Generate

/-!
# The command line

`CommandLine.run` is the whole program on the files of a `Disk`: it takes the arguments and the
environment, and gives the exit code and what goes to both output streams.
-/

namespace Bindery

/-- The files of a tree. -/
def FileTree.disk : Disk (StateM FileTree) where
  readFile p := return (← get).read? p
  destination := FileTree.destination

namespace CommandLine

/-- What a run of the program leaves. -/
structure Outcome where
  exitCode : Nat
  output : String
  errors : String
deriving DecidableEq, Repr

/-- The help text. -/
def usage : String := Text.joinLines [
  "nbindc - native binding generator",
  "",
  "Usage: nbindc <command> [options]",
  "",
  "Commands:",
  "  generate <manifest.json>   Merge scanned types and write bindings",
  "  help                       Show this help message",
  "  version                    Show version information",
  "",
  "Generate options:",
  "  -o <dir>                   Output directory (default: generated)",
  "  --runtime-package=<pkg>    Runtime package (default: org.nbind.runtime,",
  "                             or $NBIND_RUNTIME_PACKAGE)",
  "  --header=<file>            Text written before every generated class",
  "  --no-parallel              Write files on one thread",
  "",
  "Environment:",
  "  RUST_LOG                   Enable logging (e.g. nbind::merge=info)",
  "  NBIND_LOG_TREE             Nest log output by span"]

/-- The version of the program. -/
def version : String := "0.1.0"

/-- The lines that report one name without a type. -/
def typeErrorLines (e : TypeError) : List String :=
  ("  - " ++ e.message) :: e.causeMessage?.toList.map ("      caused by: " ++ ·)

/-- The lines that report a failed run. -/
def errorLines (e : GenerateError) : List String :=
  ("error: " ++ e.message) :: e.typeErrors.flatMap typeErrorLines

/-- The outcome of a run that ends with a summary or an error. -/
def outcomeOf : Except GenerateError Summary → Outcome
  | .ok s => ⟨0, Text.joinLines [s.text], ""⟩
  | .error e => ⟨1, "", Text.joinLines (errorLines e)⟩

variable {m : Type → Type} [Monad m]

/-- The command that generates bindings. -/
def runGenerate (disk : Disk m) (env : String → Option String) (args : List String) :
    m Outcome :=
  match Config.ofArgs args env with
  | .error e =>
    return ⟨1, "", Text.joinLines
      ["error: " ++ e.message, "Usage: nbindc generate <manifest.json> [options]"]⟩
  | .ok c => do return outcomeOf (← generate disk c)

/-- The program. -/
def run (disk : Disk m) (env : String → Option String) : List String → m Outcome
  | [] => return ⟨0, usage, ""⟩
  | command :: args =>
    if command = "generate" then runGenerate disk env args
    else if command ∈ ["help", "--help", "-h"] then return ⟨0, usage, ""⟩
    else if command ∈ ["version", "--version", "-V"] then
      return ⟨0, Text.joinLines ["nbindc " ++ version], ""⟩
    else return ⟨1, usage, Text.joinLines ["Unknown command: " ++ command, ""]⟩

end CommandLine

end Bindery
