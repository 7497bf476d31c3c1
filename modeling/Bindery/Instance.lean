import Bindery.Target

/-!
# Instances of types

Equal native types may be made more than once: by a scan, by a copy, by a merge. An `Instance` is
one of them, told apart from all others by its serial number, and `Instances` keeps what belongs to
an instance and not to its value: the target that a resolver has settled for it.

* `Instances.make` and `Instances.copy` give an instance with the next serial number; a copy keeps
  the settled target;
* `Instances.resolve` asks a resolver unless a target is settled, and settles a target that it
  gets; a refusal settles nothing.

All questions that were put to resolvers are kept, with their replies.
-/

namespace Bindery

/-- A native type that was made at some point. -/
structure Instance where
  /-- How many instances were made before. -/
  serial : Nat
  type : NativeType
deriving DecidableEq

/-- A question put to a resolver. -/
structure Query where
  asked : Instance
  reply : Except Unresolvable Target

/-- The instances made so far. -/
structure Instances where
  /-- For each instance the target that is settled for it. -/
  targets : Array (Option Target)
  /-- The questions put to resolvers, the latest first. -/
  queries : List Query

namespace Instances

/-- No instance at all. -/
def empty : Instances := ⟨#[], []⟩

variable (s : Instances)

/-- The target settled for an instance. -/
def target? (i : Instance) : Option Target := s.targets[i.serial]?.join

/-- A new instance of a type. -/
def make (t : NativeType) : Instance × Instances :=
  (⟨s.targets.size, t⟩, { s with targets := s.targets.push none })

/-- A new instance with the type and the settled target of another. -/
def copy (i : Instance) : Instance × Instances :=
  (⟨s.targets.size, i.type⟩, { s with targets := s.targets.push (s.target? i) })

/-- The instances after a question to a resolver. -/
def record (i : Instance) (reply : Except Unresolvable Target) : Instances where
  targets := match reply with
    | .ok t => s.targets.setIfInBounds i.serial (some t)
    | .error _ => s.targets
  queries := ⟨i, reply⟩ :: s.queries

/-- The target of an instance: the settled one, or else the resolver's reply. -/
def resolve (resolver : Resolver) (i : Instance) : Except Unresolvable Target × Instances :=
  match s.target? i with
  | some t => (.ok t, s)
  | none => (resolver i.type, s.record i (resolver i.type))

/-- The targets of some instances, up to the first refusal. -/
def resolveEach (resolver : Resolver) (s : Instances) :
    List Instance → Except Unresolvable Unit × Instances
  | [] => (.ok (), s)
  | i :: is =>
    match s.resolve resolver i with
    | (.ok _, s) => resolveEach resolver s is
    | (.error e, s) => (.error e, s)

/-! ### Settled targets -/

/-- The serial number belongs to an instance made so far. -/
def Made (i : Instance) : Prop := i.serial < s.targets.size

theorem target?_make (t : NativeType) (i : Instance) :
    (s.make t).2.target? i = s.target? i := by
  by_cases h : i.serial = s.targets.size <;> simp [make, target?, Array.getElem?_push, h]

theorem target?_make_self (t : NativeType) : (s.make t).2.target? (s.make t).1 = none := by
  simp [make, target?]

/-- A copy keeps the settled target, and no other target changes. -/
theorem target?_copy (i j : Instance) :
    (s.copy i).2.target? j = if j.serial = s.targets.size then s.target? i else s.target? j := by
  by_cases h : j.serial = s.targets.size <;> simp [copy, target?, Array.getElem?_push, h]

theorem target?_record_self {i : Instance} (t : Target) (h : s.Made i) :
    (s.record i (.ok t)).target? i = some t := by
  unfold Made at h
  simp [record, target?, h]

theorem resolve_of_settled {i : Instance} {t : Target} (resolver : Resolver)
    (h : s.target? i = some t) : s.resolve resolver i = (.ok t, s) := by
  simp [resolve, h]

end Instances

end Bindery
