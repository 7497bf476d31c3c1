import Bindery.Registry
import Mathlib.Data.List.Induction
import Mathlib.Data.List.Nodup

/-!
# Interning identity

A client of the registry makes instances of types, copies them, interns them by value or by handle,
and asks for targets. Whatever it does, instances that the registry returned are the same exactly
when the interned types were equal.

* `Instances.Known` says that some instances are told apart by their serial numbers;
* `Registry.Sound` ties the index and the pool of a registry to each other;
* `Session` is a client with a registry, `Call` what it can do, and `Session.run` any run of it;
* `Session.sound_run` : all sessions are sound;
* `Session.interning_identity` : what follows for the instances that a run returned.
-/

namespace Bindery

/-! ### Instances told apart -/

namespace Instances

/-- The instances were made, and no two of them have the same serial number. -/
structure Known (s : Instances) (is : List Instance) : Prop where
  made : ∀ i ∈ is, s.Made i
  eq_of_serial : ∀ i ∈ is, ∀ j ∈ is, i.serial = j.serial → i = j

variable {s s' : Instances} {is js : List Instance} {i : Instance}

theorem Known.subset (h : s.Known is) (hj : js ⊆ is) : s.Known js :=
  ⟨fun i hi => h.made i (hj hi), fun i hi j hj' => h.eq_of_serial i (hj hi) j (hj hj')⟩

theorem Known.mono (h : s.Known is) (hs : s.targets.size ≤ s'.targets.size) : s'.Known is :=
  ⟨fun i hi => Nat.lt_of_lt_of_le (h.made i hi) hs, h.eq_of_serial⟩

theorem known_nil (s : Instances) : s.Known [] := ⟨by simp, by simp⟩

theorem Known.append_mem (h : s.Known is) (hi : i ∈ is) : s.Known (is ++ [i]) :=
  h.subset (by simpa using hi)

/-- The next instance has a serial number of its own. -/
theorem Known.append_new (h : s.Known is) (hs : s'.targets.size = s.targets.size + 1)
    (hi : i.serial = s.targets.size) : s'.Known (is ++ [i]) := by
  have made : ∀ j ∈ is, j.serial < s.targets.size := h.made
  have older : ∀ j ∈ is, j.serial ≠ i.serial := fun j hj => by
    have := made j hj
    omega
  constructor
  · intro j hj
    show j.serial < s'.targets.size
    rcases List.mem_append.1 hj with hj | hj
    · have := made j hj
      omega
    · rw [List.mem_singleton.1 hj]
      omega
  · intro j hj k hk e
    rcases List.mem_append.1 hj with hj | hj <;> rcases List.mem_append.1 hk with hk | hk
    · exact h.eq_of_serial j hj k hk e
    · rw [List.mem_singleton.1 hk] at e
      exact absurd e (older j hj)
    · rw [List.mem_singleton.1 hj] at e
      exact absurd e.symm (older k hk)
    · rw [List.mem_singleton.1 hj, List.mem_singleton.1 hk]

theorem Known.make (h : s.Known is) (t : NativeType) : (s.make t).2.Known (is ++ [(s.make t).1]) :=
  h.append_new (Array.size_push _) rfl

theorem Known.copy (h : s.Known is) (i : Instance) : (s.copy i).2.Known (is ++ [(s.copy i).1]) :=
  h.append_new (Array.size_push _) rfl

theorem size_resolve (s : Instances) (resolver : Resolver) (i : Instance) :
    (s.resolve resolver i).2.targets.size = s.targets.size := by
  unfold resolve record
  split
  · rfl
  · cases resolver i.type <;> simp

theorem size_resolveEach (s : Instances) (resolver : Resolver) (is : List Instance) :
    (s.resolveEach resolver is).2.targets.size = s.targets.size := by
  induction is generalizing s with
  | nil => rfl
  | cons i is ih =>
    have hi := s.size_resolve resolver i
    rw [resolveEach]
    split
    · rename_i s' h
      rw [ih, ← hi, h]
    · rename_i s' h
      rw [← hi, h]

end Instances

/-! ### Both stores of a registry -/

theorem TypeIndex.get?_eq_some_iff {x : TypeIndex} {t : NativeType} {i : Instance} :
    x.get? t = some i ↔ i ∈ x.entries ∧ i.type = t := by
  constructor
  · exact fun h => ⟨List.mem_of_find?_eq_some h, x.type_of_get? h⟩
  · -- the look-up finds some instance of the type, and there is no other
    rintro ⟨hi, ht⟩
    have hne : x.get? t ≠ none := fun hn => x.get?_eq_none_iff.1 hn i hi ht
    obtain ⟨j, hj⟩ := Option.ne_none_iff_exists'.1 hne
    have hnodup : (x.entries.map Instance.type).Nodup := List.pairwise_map.2 x.distinct
    have hji : j = i := List.inj_on_of_nodup_map hnodup (List.mem_of_find?_eq_some hj) hi
      ((x.type_of_get? hj).trans ht.symm)
    rw [hj, hji]

namespace Registry

/-- The pool starts with the instances of `void` and `void*` and has at most one instance of each
type, and the index holds the pooled instances. -/
structure Sound (r : Registry) : Prop where
  starts : [r.void, r.voidPtr] <+: r.pool
  type_void : r.void.type = .void
  type_voidPtr : r.voidPtr.type = .voidPtr
  distinct : (r.pool.map Instance.type).Nodup
  indexed : r.index.entries.Perm r.pool

variable {r : Registry} {s : Instances} {i p : Instance} {t : NativeType}

theorem Sound.find?_eq_some_iff (h : r.Sound) : r.find? t = some i ↔ i ∈ r.pool ∧ i.type = t := by
  rw [find?, TypeIndex.get?_eq_some_iff, h.indexed.mem_iff]

theorem Sound.find?_eq_none_iff (h : r.Sound) : r.find? t = none ↔ ∀ p ∈ r.pool, p.type ≠ t := by
  rw [find?, TypeIndex.get?_eq_none_iff]
  exact forall_congr' fun p => by rw [h.indexed.mem_iff]

theorem Sound.push (h : r.Sound) (hf : r.find? i.type = none) : (r.push i).Sound where
  starts := h.starts.trans (List.prefix_append _ _)
  type_void := h.type_void
  type_voidPtr := h.type_voidPtr
  distinct := by
    rw [pool_push, List.map_append, List.nodup_append]
    refine ⟨h.distinct, by simp, ?_⟩
    rintro t ht u hu rfl
    obtain ⟨p, hp, rfl⟩ := List.mem_map.1 ht
    exact h.find?_eq_none_iff.1 hf p hp (List.mem_singleton.1 hu)
  indexed := by
    have he : (r.push i).index.entries = i :: r.index.entries := r.index.entries_insert hf
    rw [he, pool_push]
    exact (h.indexed.cons i).trans (List.perm_append_singleton i r.pool).symm

theorem sound_new (s : Instances) : (Registry.new s).1.Sound where
  starts := List.prefix_rfl
  type_void := rfl
  type_voidPtr := rfl
  distinct := by
    show [NativeType.void, NativeType.voidPtr].Nodup
    simp [NativeType.void, NativeType.voidPtr, NativeType.make]
  indexed := .swap _ _ _

/-- Interning a type in `r` gave the instance `p` and left `r'`: the pool is as before if the type
was pooled, and otherwise `p` was added to it. -/
structure Interned (r : Registry) (t : NativeType) (p : Instance) (r' : Registry) : Prop where
  sound : r'.Sound
  mem : p ∈ r'.pool
  type_eq : p.type = t
  grows : (∃ q ∈ r.pool, q.type = t) ∧ r'.pool = r.pool ∨
    (∀ q ∈ r.pool, q.type ≠ t) ∧ r'.pool = r.pool ++ [p]

theorem Sound.interned_of_find? (h : r.Sound) (hf : r.find? t = some p) : r.Interned t p r := by
  obtain ⟨hp, ht⟩ := h.find?_eq_some_iff.1 hf
  exact ⟨h, hp, ht, .inl ⟨⟨p, hp, ht⟩, rfl⟩⟩

theorem Sound.interned_push (h : r.Sound) (hf : r.find? p.type = none) :
    r.Interned p.type p (r.push p) :=
  ⟨h.push hf, by simp, rfl, .inr ⟨h.find?_eq_none_iff.1 hf, rfl⟩⟩

theorem Sound.adopt (h : r.Sound) (i : Instance) :
    r.Interned i.type (r.adopt i).1 (r.adopt i).2 := by
  unfold Registry.adopt
  split
  · exact h.interned_of_find? ‹_›
  · exact h.interned_push ‹_›

theorem Sound.intern (h : r.Sound) (s : Instances) (i : Instance) :
    r.Interned i.type (r.intern s i).1 (r.intern s i).2.1 := by
  unfold Registry.intern
  split
  · exact h.interned_of_find? ‹_›
  · exact h.interned_push (p := (s.copy i).1) ‹_›

theorem Interned.subset {r' : Registry} (h : r.Interned t p r') : r.pool ⊆ r'.pool := by
  obtain ⟨-, e⟩ | ⟨-, e⟩ := h.grows <;> simp [e]

theorem Interned.subset_append {r' : Registry} (h : r.Interned t p r') :
    r'.pool ⊆ r.pool ++ [p] := by
  obtain ⟨-, e⟩ | ⟨-, e⟩ := h.grows <;> simp [e]

theorem adopt_eq_or_mem (h : r.Sound) (i : Instance) :
    (r.adopt i).1 = i ∨ (r.adopt i).1 ∈ r.pool := by
  unfold Registry.adopt
  split
  · exact .inr (h.find?_eq_some_iff.1 ‹_›).1
  · exact .inl rfl

theorem Sound.known_intern (h : r.Sound) {is : List Instance} (hk : s.Known is)
    (hp : r.pool ⊆ is) (i : Instance) :
    (r.intern s i).2.2.Known (is ++ [(r.intern s i).1]) := by
  unfold Registry.intern
  split
  · exact hk.append_mem (hp (h.find?_eq_some_iff.1 ‹_›).1)
  · exact hk.copy i

/-- Each pooled instance is pooled once. -/
theorem Sound.nodup_serials (h : r.Sound) (hk : s.Known r.pool) :
    (r.pool.map Instance.serial).Nodup :=
  (List.Nodup.of_map _ h.distinct).map_on hk.eq_of_serial

end Registry

/-! ### Clients -/

/-- A registry, and what a client has got from it. -/
structure Session where
  registry : Registry
  instances : Instances
  /-- The instances that the client holds. -/
  handles : List Instance
  /-- What the client interned, with what the registry returned. -/
  answers : List (Instance × Instance)

/-- What a client does. -/
inductive Call where
  /-- Makes an instance of a declared type. -/
  | declare (name : Option String) (shape32 : Shape) (shape64 : Option Shape)
  /-- Makes a copy of an instance. -/
  | copy (i : Instance)
  /-- Interns a type by value. -/
  | intern (i : Instance)
  /-- Interns an instance. -/
  | adopt (i : Instance)
  /-- Asks for the target of a type. -/
  | target (resolver : Resolver) (i : Instance)
  /-- Asks for the targets of all pooled types. -/
  | resolveAll (resolver : Resolver)

namespace Call

/-- The instance that is to be interned. -/
def candidate? : Call → Option Instance
  | .intern i | .adopt i | .target _ i => some i
  | .declare _ _ _ | .copy _ | .resolveAll _ => none

/-- The instance that a client must hold for the call. -/
def subject? : Call → Option Instance
  | .copy i => some i
  | c => c.candidate?

theorem subject?_of_candidate? {c : Call} {i : Instance} (h : c.candidate? = some i) :
    c.subject? = some i := by
  cases c <;> first | exact h | cases h

end Call

namespace Session

/-- A client with a new registry. -/
def start : Session :=
  let (r, s) := Registry.new .empty
  ⟨r, s, [r.void, r.voidPtr], []⟩

variable (s : Session)

/-- The session after a call about an instance that the client holds. -/
def perform : Call → Session
  | .declare name shape32 shape64 =>
    let (i, is) := s.instances.make (.make (name.map .ofDeclared) shape32 shape64)
    { s with instances := is, handles := s.handles ++ [i] }
  | .copy i =>
    let (c, is) := s.instances.copy i
    { s with instances := is, handles := s.handles ++ [c] }
  | .intern i =>
    let (p, r, is) := s.registry.intern s.instances i
    ⟨r, is, s.handles ++ [p], s.answers ++ [(i, p)]⟩
  | .adopt i =>
    let (p, r) := s.registry.adopt i
    ⟨r, s.instances, s.handles ++ [p], s.answers ++ [(i, p)]⟩
  | .target resolver i =>
    let (_, r, is) := s.registry.targetOf s.instances resolver i
    { s with registry := r, instances := is }
  | .resolveAll resolver =>
    let (_, is) := s.registry.resolveAll s.instances resolver
    { s with instances := is }

/-- The session after a call. No call can be about an instance that the client does not hold. -/
def step (c : Call) : Session :=
  if ∀ i ∈ c.subject?, i ∈ s.handles then s.perform c else s

/-- The session after some calls to a new registry. -/
def run (calls : List Call) : Session := calls.foldl step start

/-- The registry is sound, the client tells its instances apart, all pooled ones are among them,
and what the registry returned is pooled and of the type that was interned. -/
structure Sound (s : Session) : Prop where
  registry : s.registry.Sound
  known : s.instances.Known s.handles
  pooled : s.registry.pool ⊆ s.handles
  answered : ∀ a ∈ s.answers, a.2 ∈ s.registry.pool ∧ a.2.type = a.1.type

theorem sound_start : start.Sound where
  registry := Registry.sound_new _
  known := ((Instances.known_nil .empty).make .void).make .voidPtr
  pooled := List.Subset.refl _
  answered := by simp [start]

variable {s} {i p : Instance} {r : Registry} {is : Instances}

/-- More instances that the client holds. -/
theorem Sound.hold (h : s.Sound) {js : List Instance} (hk : is.Known (s.handles ++ js)) :
    Sound { s with instances := is, handles := s.handles ++ js } where
  registry := h.registry
  known := hk
  pooled := List.Subset.trans h.pooled (List.subset_append_left _ _)
  answered := h.answered

/-- A type was interned, and the client gets what was returned. -/
theorem Sound.answer (h : s.Sound) (hi : s.registry.Interned i.type p r)
    (hk : is.Known (s.handles ++ [p])) :
    Sound ⟨r, is, s.handles ++ [p], s.answers ++ [(i, p)]⟩ where
  registry := hi.sound
  known := hk
  pooled := List.Subset.trans hi.subset_append (List.append_subset.2
    ⟨List.Subset.trans h.pooled (List.subset_append_left _ _), List.subset_append_right _ _⟩)
  answered := by
    intro a ha
    rcases List.mem_append.1 ha with ha | ha
    · obtain ⟨hmem, ht⟩ := h.answered a ha
      exact ⟨hi.subset hmem, ht⟩
    · rw [List.mem_singleton.1 ha]
      exact ⟨hi.mem, hi.type_eq⟩

theorem Sound.mem_adopt (h : s.Sound) (hi : i ∈ s.handles) :
    (s.registry.adopt i).1 ∈ s.handles := by
  rcases Registry.adopt_eq_or_mem h.registry i with e | hp
  · rw [e]
    exact hi
  · exact h.pooled hp

/-- Each call keeps a session sound. -/
theorem Sound.perform (h : s.Sound) {c : Call} (hc : ∀ i ∈ c.subject?, i ∈ s.handles) :
    (s.perform c).Sound := by
  cases c with
  | declare name shape32 shape64 => exact h.hold (h.known.make _)
  | copy i => exact h.hold (h.known.copy i)
  | intern i =>
    exact h.answer (h.registry.intern _ i) (h.registry.known_intern h.known h.pooled i)
  | adopt i => exact h.answer (h.registry.adopt i) (h.known.append_mem (h.mem_adopt (hc i rfl)))
  | target resolver i =>
    -- the resolver may refuse or not: either way the type was interned before it was asked
    have hi := h.registry.adopt i
    refine ⟨hi.sound, h.known.mono (Nat.le_of_eq (Instances.size_resolve _ _ _).symm), ?_, ?_⟩
    · refine List.Subset.trans hi.subset_append (List.append_subset.2 ⟨h.pooled, ?_⟩)
      exact fun p hp => List.mem_singleton.1 hp ▸ h.mem_adopt (hc i rfl)
    · exact fun a ha => ⟨hi.subset (h.answered a ha).1, (h.answered a ha).2⟩
  | resolveAll resolver =>
    exact ⟨h.registry, h.known.mono (Nat.le_of_eq (Instances.size_resolveEach _ _ _).symm),
      h.pooled, h.answered⟩

theorem Sound.step (h : s.Sound) (c : Call) : (s.step c).Sound := by
  unfold Session.step
  split_ifs with hc
  · exact h.perform hc
  · exact h

/-- **All sessions are sound.** -/
theorem sound_run (calls : List Call) : (run calls).Sound := by
  induction calls using List.reverseRecOn with
  | nil => exact sound_start
  | append_singleton calls c ih =>
    rw [run, List.foldl_append]
    exact ih.step c

/-- A call that interns a type, by a client that holds an instance of it. -/
theorem Sound.interned_step (h : s.Sound) {c : Call} (hc : c.candidate? = some i)
    (hi : i ∈ s.handles) : ∃ p, s.registry.Interned i.type p (s.step c).registry := by
  have hheld : ∀ j ∈ c.subject?, j ∈ s.handles := by
    rw [Call.subject?_of_candidate? hc]
    rintro j ⟨⟩
    exact hi
  rw [Session.step, if_pos hheld]
  cases c with
  | declare | copy | resolveAll => cases hc
  | intern j =>
    cases hc
    exact ⟨_, h.registry.intern s.instances i⟩
  | adopt j | target _ j =>
    cases hc
    exact ⟨_, h.registry.adopt i⟩

theorem registry_step_of_none {c : Call} (hc : c.candidate? = none) :
    (s.step c).registry = s.registry := by
  unfold Session.step
  split_ifs
  · cases c <;> first | rfl | cases hc
  · rfl

theorem step_of_not_mem {c : Call} (hc : c.candidate? = some i) (hi : i ∉ s.handles) :
    s.step c = s :=
  if_neg fun hheld => hi (hheld i (Call.subject?_of_candidate? hc))

theorem handles_step (c : Call) : s.handles ⊆ (s.step c).handles := by
  unfold Session.step
  split_ifs
  · cases c <;> simp [Session.perform]
  · exact List.Subset.refl _

/-- The pool after a call is the one before, with one more instance exactly when a type is interned
that was not pooled. -/
theorem Sound.pool_step (h : s.Sound) (c : Call) :
    (∃ i ∈ c.candidate?, i ∈ s.handles ∧ (∀ p ∈ s.registry.pool, p.type ≠ i.type) ∧
        ∃ x, x.type = i.type ∧ (s.step c).registry.pool = s.registry.pool ++ [x]) ∨
      (∀ i ∈ c.candidate?, i ∈ s.handles → ∃ p ∈ s.registry.pool, p.type = i.type) ∧
        (s.step c).registry.pool = s.registry.pool := by
  cases hc : c.candidate? with
  | none => exact .inr ⟨by simp, by rw [registry_step_of_none hc]⟩
  | some i =>
    by_cases hi : i ∈ s.handles
    · obtain ⟨p, hp⟩ := h.interned_step hc hi
      rcases hp.grows with ⟨hex, e⟩ | ⟨hne, e⟩
      · refine .inr ⟨?_, e⟩
        rintro j ⟨⟩ -
        exact hex
      · exact .inl ⟨i, rfl, hi, hne, p, hp.type_eq, e⟩
    · refine .inr ⟨?_, by rw [step_of_not_mem hc hi]⟩
      rintro j ⟨⟩ hj
      exact absurd hj hi

theorem Sound.nodup_serials (h : s.Sound) : (s.registry.pool.map Instance.serial).Nodup :=
  h.registry.nodup_serials (h.known.subset h.pooled)

/-- Two instances that the registry returned are the same exactly when the interned types were
equal. -/
theorem Sound.same_iff (h : s.Sound) {a b : Instance × Instance} (ha : a ∈ s.answers)
    (hb : b ∈ s.answers) : a.2.serial = b.2.serial ↔ a.1.type = b.1.type := by
  obtain ⟨hap, hat⟩ := h.answered a ha
  obtain ⟨hbp, hbt⟩ := h.answered b hb
  -- of the two returned instances, both are pooled and both are handles of the client
  rw [← hat, ← hbt]
  constructor
  · intro e
    rw [h.known.eq_of_serial _ (h.pooled hap) _ (h.pooled hbp) e]
  · intro e
    rw [List.inj_on_of_nodup_map h.registry.distinct hap hbp e]

/-- **Interning identity.** After any run of calls to a new registry:

* the pool starts with `void` and `void*`, has at most one instance of each type and each instance
  once, and the index holds the pooled instances;
* the next call leaves the pool as it is, or adds one instance of the interned type if there is
  none;
* what the registry returned at any time is pooled and of the type that was interned, and is the
  same instance at two times exactly when the types were equal: their names without blanks, and
  their shapes on both binary interfaces. -/
theorem interning_identity (calls : List Call) :
    let s := run calls
    s.registry.Sound ∧ (s.registry.pool.map Instance.serial).Nodup ∧
      (∀ c : Call,
        (∃ i ∈ c.candidate?, i ∈ s.handles ∧ (∀ p ∈ s.registry.pool, p.type ≠ i.type) ∧
            ∃ x, x.type = i.type ∧ (s.step c).registry.pool = s.registry.pool ++ [x]) ∨
          (∀ i ∈ c.candidate?, i ∈ s.handles → ∃ p ∈ s.registry.pool, p.type = i.type) ∧
            (s.step c).registry.pool = s.registry.pool) ∧
      (∀ a ∈ s.answers, a.2 ∈ s.registry.pool ∧ a.2.type = a.1.type) ∧
      (∀ a ∈ s.answers, ∀ b ∈ s.answers, a.2.serial = b.2.serial ↔ a.1.type = b.1.type) ∧
      ∀ (n n' : Option String) (a a' : Shape) (b b' : Option Shape),
        NativeType.make (n.map .ofDeclared) a b = .make (n'.map .ofDeclared) a' b' ↔
          n.map Text.removeBlanks = n'.map Text.removeBlanks ∧ a = a' ∧
            b.getD a = b'.getD a' := by
  intro s
  have h : s.Sound := sound_run calls
  refine ⟨h.registry, h.nodup_serials, h.pool_step, h.answered, ?_, ?_⟩
  · exact fun a ha b hb => h.same_iff ha hb
  · exact fun _ _ _ _ _ _ => NativeType.make_ofDeclared_eq_iff

end Session

end Bindery
