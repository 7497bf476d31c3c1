import Bindery.FileTree

/-!
# Sinks in memory

A destination that keeps what each sink got, and counts the sinks opened and closed. It can be told
to fail: at the opening of certain paths, after a number of bytes in one sink, or at every flush.
A write that only partly fits stores what fits. Copies are read from a file tree that the sinks
have no part in.
-/

namespace Bindery

/-- When sinks fail. -/
structure SinkRules where
  /-- How many bytes each sink takes; without a budget it takes any number. -/
  budget : Option Nat
  /-- The paths whose sinks cannot be opened. -/
  refused : List Path
  flushFails : Bool
deriving Repr

/-- What the sinks got so far. -/
structure Sinks where
  /-- Each sink that was opened, with its content. -/
  contents : List (Path × Bytes)
  opened : Nat
  closed : Nat
deriving DecidableEq, Repr

namespace Sinks

/-- No sink yet. -/
def empty : Sinks := ⟨[], 0, 0⟩

/-- The sinks after one more was opened. -/
def openNew (p : Path) (s : Sinks) : Sinks :=
  { s with contents := s.contents ++ [(p, [])], opened := s.opened + 1 }

/-- The content of a sink. -/
def content (p : Path) (s : Sinks) : Bytes := (s.contents.lookup p).getD []

/-- The sinks after the content of one was replaced. -/
def setContent (p : Path) (bytes : Bytes) (s : Sinks) : Sinks :=
  { s with contents := s.contents.map fun (q, old) => (q, if q = p then bytes else old) }

/-- The sinks after one was closed. -/
def closeOne (s : Sinks) : Sinks := { s with closed := s.closed + 1 }

/-- As many of the bytes as fit. -/
def fitting (budget : Option Nat) (bytes : Bytes) : Bytes :=
  match budget with
  | some n => bytes.take n
  | none => bytes

/-- Sinks that fail as the rules say, with copies read from a file tree. -/
def destination (rules : SinkRules) (sources : FileTree) : Destination (StateM Sinks) where
  openSink p := fun s =>
    if rules.refused.any (p.Same ·) then (false, s) else (true, s.openNew p)
  write p bytes := fun s =>
    let all := s.content p ++ bytes
    let kept := fitting rules.budget all
    (kept.length = all.length, s.setContent p kept)
  flush _ := pure !rules.flushFails
  close _ := modify closeOne
  readSource p := pure (sources.read? p)

end Sinks

end Bindery
