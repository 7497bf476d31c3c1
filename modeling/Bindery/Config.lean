import Bindery.Binding.Name
import Bindery.Path

/-!
# The configuration of a run

A configuration comes in three layers: defaults, the environment, and the arguments of the command
line; a later layer wins over an earlier one, and a later argument over an earlier one.

* `Settings.ofArgs` collects what the arguments say, in one pass that stops at the first fault;
* `Config.ofArgs` fills in the rest, and checks the package of the runtime.
-/

namespace Bindery

/-- How to run the generator. -/
structure Config where
  manifest : Path
  outDir : Path
  /-- The package of the runtime classes. -/
  runtime : String
  /-- The file whose text is written before every generated class. -/
  header : Option Path
  /-- Artifacts may be written side by side. Runs are modelled in order only, and do not read it. -/
  parallel : Bool
deriving DecidableEq, Repr

/-- What is wrong with the arguments. -/
inductive ConfigError where
  | missingManifest
  | missingValue (option : String)
  | unknownOption (arg : String)
  | unexpectedArgument (arg : String)
  | badPackage (package : String)
deriving DecidableEq, Repr

/-- The text of the error. -/
def ConfigError.message : ConfigError → String
  | .missingManifest => "missing manifest path"
  | .missingValue o => "`" ++ o ++ "` expects a value"
  | .unknownOption a => "unknown option `" ++ a ++ "`"
  | .unexpectedArgument a => "unexpected argument `" ++ a ++ "`"
  | .badPackage p => "`" ++ p ++ "` is not a valid package name"

/-- What the arguments say. -/
structure Settings where
  manifest : Option String
  outDir : Option String
  runtime : Option String
  header : Option String
  parallel : Bool
deriving DecidableEq, Repr

/-- What follows a given beginning of a text. -/
def valueAfter? (start : String) (arg : String) : Option String :=
  let n := start.toList
  if n.isPrefixOf arg.toList then some (String.ofList (arg.toList.drop n.length)) else none

theorem valueAfter?_eq_some_iff {start arg value : String} :
    valueAfter? start arg = some value ↔ arg = start ++ value := by
  simp only [valueAfter?]
  constructor
  · intro h
    split at h
    · obtain ⟨rest, e⟩ := List.isPrefixOf_iff_prefix.1 ‹_›
      rw [← e, List.drop_left] at h
      rw [← Option.some.inj h]
      apply String.toList_inj.1
      simp [← e]
    · simp at h
  · rintro rfl
    have : start.toList.isPrefixOf (start ++ value).toList = true :=
      List.isPrefixOf_iff_prefix.2 ⟨value.toList, by simp⟩
    rw [if_pos this]
    simp

namespace Settings

/-- Nothing is said. -/
def empty : Settings := ⟨none, none, none, none, true⟩

variable (s : Settings)

/-- Takes in one argument that stands for itself. -/
def add (arg : String) : Except ConfigError Settings :=
  match valueAfter? "--out-dir=" arg, valueAfter? "--runtime-package=" arg,
      valueAfter? "--header=" arg with
  | some dir, _, _ => .ok { s with outDir := some dir }
  | none, some package, _ => .ok { s with runtime := some package }
  | none, none, some file => .ok { s with header := some file }
  | none, none, none =>
    if arg = "--no-parallel" then .ok { s with parallel := false }
    else if (valueAfter? "-" arg).isSome then .error (.unknownOption arg)
    else if s.manifest.isNone then .ok { s with manifest := some arg }
    else .error (.unexpectedArgument arg)

/-- The argument takes the next one as its value. -/
def takesValue (arg : String) : Bool := arg = "-o" || arg = "--out-dir"

/-- Takes in all arguments. -/
def addAll (s : Settings) : List String → Except ConfigError Settings
  | [] => .ok s
  | [arg] => if takesValue arg then .error (.missingValue "-o") else s.add arg
  | arg :: next :: rest =>
    if takesValue arg then addAll { s with outDir := some next } rest
    else
      match s.add arg with
      | .ok s => addAll s (next :: rest)
      | .error e => .error e

/-- What some arguments say. -/
def ofArgs (args : List String) : Except ConfigError Settings := empty.addAll args

end Settings

namespace Config

/-- The environment variable for the package of the runtime. -/
def runtimeVariable : String := "NBIND_RUNTIME_PACKAGE"

/-- The package of the runtime when nothing is said. -/
def defaultRuntime : String := "org.nbind.runtime"

/-- The output directory when nothing is said. -/
def defaultOutDir : String := "generated"

/-- The package of the runtime that the environment names. An empty one counts as none. -/
def environmentRuntime (env : String → Option String) : Option String :=
  (env runtimeVariable).filter (· ≠ "")

/-- A package of the runtime, or the default one. -/
def checkRuntime : Option String → Except ConfigError String
  | none => .ok defaultRuntime
  | some package =>
    if Binding.isPackageName package then .ok package else .error (.badPackage package)

/-- The configuration for the arguments of a run and its environment. -/
def ofArgs (args : List String) (env : String → Option String) : Except ConfigError Config := do
  let s ← Settings.ofArgs args
  match s.manifest with
  | none => .error .missingManifest
  | some manifest =>
    let runtime ← checkRuntime (s.runtime.or (environmentRuntime env))
    return {
      manifest := ⟨manifest⟩
      outDir := ⟨s.outDir.getD defaultOutDir⟩
      runtime := runtime
      header := s.header.map Path.mk
      parallel := s.parallel }

end Config

end Bindery
