import Bindery.Registry

/-!
# The life of a registry

A registry is filled by one owner, or by several scanners that share it, and is frozen before
output. A scanner interns in two steps: it looks the type up, and only when that fails it takes the
registry for itself and interns, which looks again; so it does not matter what others do in
between. `Registry.adoptInSteps` and `Registry.internInSteps` are the two steps done one after the
other.

`Stage` says which of the three holds, and each operation on it is available in some stages only.
-/

namespace Bindery

namespace Registry

variable (r : Registry)

/-- Interns an instance in two steps. -/
def adoptInSteps (i : Instance) : Instance × Registry :=
  match r.find? i.type with
  | some p => (p, r)
  | none => r.adopt i

/-- Interns a type by value in two steps. -/
def internInSteps (s : Instances) (i : Instance) : Instance × Registry × Instances :=
  match r.find? i.type with
  | some p => (p, r, s)
  | none => r.intern s i

theorem adoptInSteps_eq (i : Instance) : r.adoptInSteps i = r.adopt i := by
  unfold adoptInSteps adopt
  cases r.find? i.type <;> rfl

theorem internInSteps_eq (s : Instances) (i : Instance) : r.internInSteps s i = r.intern s i := by
  unfold internInSteps intern
  cases r.find? i.type <;> rfl

end Registry

/-- Where a registry is in its life. -/
inductive Stage where
  /-- It has one owner. -/
  | owned (r : Registry)
  /-- It is shared; `others` counts the handles to it beside the newest one. -/
  | shared (r : Registry) (others : Nat)
  /-- It takes no more types. -/
  | frozen (f : FrozenRegistry)

namespace Stage

/-- All pooled instances in the order of interning. -/
def pool : Stage → List Instance
  | .owned r => r.pool
  | .shared r _ => r.pool
  | .frozen f => f.pool

/-- The registry, while it can be looked up by type. -/
def registry? : Stage → Option Registry
  | .owned r => some r
  | .shared r _ => some r
  | .frozen _ => none

/-- The pooled instances of `void` and `void*`. -/
def sentinels? : Stage → Option (Instance × Instance)
  | .owned r => some (r.void, r.voidPtr)
  | .shared _ _ => none
  | .frozen f => some (f.void, f.voidPtr)

/-- The number of handles to a shared registry. -/
def handles? : Stage → Option Nat
  | .shared _ others => some (others + 1)
  | _ => none

/-- Interns an instance. -/
def adopt? (i : Instance) : Stage → Option (Instance × Stage)
  | .owned r => let (p, r) := r.adopt i; some (p, .owned r)
  | .shared r n => let (p, r) := r.adoptInSteps i; some (p, .shared r n)
  | .frozen _ => none

/-- Interns a type by value. -/
def intern? (s : Instances) (i : Instance) : Stage → Option (Instance × Stage × Instances)
  | .owned r => let (p, r, s) := r.intern s i; some (p, .owned r, s)
  | .shared r n => let (p, r, s) := r.internInSteps s i; some (p, .shared r n, s)
  | .frozen _ => none

/-- Finds the target of an instance's type. -/
def targetOf? (s : Instances) (resolver : Resolver) (i : Instance) :
    Stage → Option (Except Unresolvable Target × Stage × Instances)
  | .owned r => let (t, r, s) := r.targetOf s resolver i; some (t, .owned r, s)
  | _ => none

/-- Starts to share a registry. -/
def share? : Stage → Option Stage
  | .owned r => some (.shared r 0)
  | _ => none

/-- Adds a handle to a shared registry. -/
def addHandle? : Stage → Option Stage
  | .shared r n => some (.shared r (n + 1))
  | _ => none

/-- Gives up a handle to a shared registry, unless it is the last one. -/
def dropHandle? : Stage → Option Stage
  | .shared r n => some (.shared r (n - 1))
  | _ => none

/-- Takes a shared registry back when its newest handle is the only one. -/
def unshare? : Stage → Option (Bool × Stage)
  | .shared r 0 => some (true, .owned r)
  | .shared r (n + 1) => some (false, .shared r (n + 1))
  | _ => none

/-- Ends interning. -/
def freeze? : Stage → Option Stage
  | .owned r => some (.frozen r.freeze)
  | _ => none

/-- Lists the types for output. -/
def sorted? : Stage → Option (List Instance)
  | .frozen f => some f.sorted
  | _ => none

end Stage

end Bindery
