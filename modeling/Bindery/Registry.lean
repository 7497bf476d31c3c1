import Bindery.Instance

/-!
# The registry of types

The registry holds one instance of each type that was interned. It keeps them twice: in an index
that a type is looked up in, and in a pool in the order in which they came in. It starts with
`void` and `void*`.

* `TypeIndex` is the index;
* `Registry.find?` gives the pooled instance of a type;
* `Registry.adopt` interns an instance: the pooled one of its type, or else the instance itself;
* `Registry.intern` interns a type by value: what enters the pool is a copy;
* `Registry.freeze` ends interning, and `FrozenRegistry.sorted` lists the types for output.
-/

namespace Bindery

/-- A set of instances with at most one of each type. -/
structure TypeIndex where
  /-- The instances, the latest first. -/
  entries : List Instance
  distinct : entries.Pairwise fun a b => a.type ≠ b.type

namespace TypeIndex

/-- The set of no instances. -/
def empty : TypeIndex := ⟨[], .nil⟩

variable (x : TypeIndex)

/-- The instance of a type. -/
def get? (t : NativeType) : Option Instance := x.entries.find? fun i => i.type = t

theorem get?_eq_none_iff {t : NativeType} : x.get? t = none ↔ ∀ i ∈ x.entries, i.type ≠ t := by
  simp [get?]

/-- Adds an instance, unless there is one of its type. -/
def insert (i : Instance) : TypeIndex :=
  match h : x.get? i.type with
  | some _ => x
  | none => ⟨i :: x.entries, .cons (fun j hj e => x.get?_eq_none_iff.1 h j hj e.symm) x.distinct⟩

theorem type_of_get? {t : NativeType} {i : Instance} (h : x.get? t = some i) : i.type = t := by
  simpa using List.find?_some h

theorem entries_insert {i : Instance} (h : x.get? i.type = none) :
    (x.insert i).entries = i :: x.entries := by
  unfold insert
  split
  · simp_all
  · rfl

end TypeIndex

/-- A pool with at most one instance of each type. -/
structure Registry where
  /-- The pooled instances by their types. -/
  index : TypeIndex
  /-- The pooled instances in the order in which they came in. -/
  pool : List Instance
  /-- The pooled instance of `void`. -/
  void : Instance
  /-- The pooled instance of `void*`. -/
  voidPtr : Instance

/-- The type `void`. -/
def NativeType.void : NativeType := .make (some (.ofDeclared "void")) .void none

/-- The type `void*`. -/
def NativeType.voidPtr : NativeType := .make (some (.ofDeclared "void*")) (.pointer .void) none

namespace Registry

variable (r : Registry)

/-- The pooled instance of a type. -/
def find? (t : NativeType) : Option Instance := r.index.get? t

/-- The instance itself is pooled. -/
def holds (i : Instance) : Bool :=
  match r.find? i.type with
  | some p => p.serial = i.serial
  | none => false

/-- The registry with an instance added to its pool. -/
def push (i : Instance) : Registry :=
  { r with index := r.index.insert i, pool := r.pool ++ [i] }

/-- The registry that holds new instances of `void` and `void*`. -/
def new (s : Instances) : Registry × Instances :=
  let (void, s) := s.make .void
  let (voidPtr, s) := s.make .voidPtr
  let bare : Registry := ⟨.empty, [], void, voidPtr⟩
  ((bare.push void).push voidPtr, s)

/-- The pooled instance of the same type, which is the given instance if there was none. -/
def adopt (i : Instance) : Instance × Registry :=
  match r.find? i.type with
  | some p => (p, r)
  | none => (i, r.push i)

/-- The pooled instance of the same type, which is a copy of the given one if there was none. -/
def intern (s : Instances) (i : Instance) : Instance × Registry × Instances :=
  match r.find? i.type with
  | some p => (p, r, s)
  | none =>
    let (c, s) := s.copy i
    (c, r.push c, s)

/-- The target of an instance's type, settled on its pooled instance. -/
def targetOf (s : Instances) (resolver : Resolver) (i : Instance) :
    Except Unresolvable Target × Registry × Instances :=
  let (p, r) := r.adopt i
  let (t, s) := s.resolve resolver p
  (t, r, s)

/-- Settles the targets of all pooled instances in order, up to the first refusal, and counts
them. -/
def resolveAll (s : Instances) (resolver : Resolver) : Except Unresolvable Nat × Instances :=
  let (done, s) := s.resolveEach resolver r.pool
  (done.map fun _ => r.pool.length, s)

/-! ### Lookup -/

@[simp]
theorem pool_push (i : Instance) : (r.push i).pool = r.pool ++ [i] := rfl

theorem type_of_find? {t : NativeType} {i : Instance} (h : r.find? t = some i) : i.type = t :=
  r.index.type_of_get? h

theorem type_of_adopt (i : Instance) : (r.adopt i).1.type = i.type := by
  unfold adopt
  split
  · exact r.type_of_find? ‹_›
  · rfl

end Registry

/-- A registry that takes no more types. -/
structure FrozenRegistry where
  void : Instance
  voidPtr : Instance
  /-- All instances in the order of interning. -/
  pool : List Instance

/-- Ends interning. -/
def Registry.freeze (r : Registry) : FrozenRegistry := ⟨r.void, r.voidPtr, r.pool⟩

/-- The instances sorted by their types, those of equal rank in the order of interning. -/
def FrozenRegistry.sorted (f : FrozenRegistry) : List Instance :=
  f.pool.mergeSort fun a b => (NativeType.order a.type b.type).isLE

end Bindery
