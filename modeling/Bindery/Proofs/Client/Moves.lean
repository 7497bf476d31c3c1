import Bindery.Proofs.Canonical.Additions
import Bindery.Proofs.Merger.Cases

/-!
# Clients of a merger and a registry

A client of a registry may also have a merger. Besides its calls to the registry it merges
instances, whatever it holds or none at all, and it finds the types of whole lists of observations
with the same merger and the same registry.

* `Client` is such a client, `Client.Move` what it can do, and `Client.run` any run of it;
* `MergeCall` is a merge that a client asked for, and `MergeCall.Follows` says in five cases what
  it gets;
* `Client.sound_run` : the session of every client is sound.
-/

namespace Bindery

/-! ### Merges -/

/-- A merge that a client asked for, and what it got. -/
structure MergeCall where
  left : Option Instance
  right : Option Instance
  answer : Except TypeConflict (Option Instance)

/-- What a merge gives. An absent operand gives way to the other. The first of two instances is
kept if their types are equal or its name is overridden. Otherwise the answer is an instance of
what the types are merged into, or how they disagree. -/
inductive MergeCall.Follows (overrides : Overrides) : MergeCall → Prop where
  | left_absent (b : Option Instance) : Follows overrides ⟨none, b, .ok b⟩
  | right_absent (a : Option Instance) : Follows overrides ⟨a, none, .ok a⟩
  | kept {a b : Instance} (h : a.type = b.type ∨ overrides.Lists a.type.name) :
    Follows overrides ⟨some a, some b, .ok (some a)⟩
  | merged {a b c : Instance} (hne : a.type ≠ b.type) (hl : ¬ overrides.Lists a.type.name)
    (h : NativeType.mergeParts a.type b.type = .ok c.type) :
    Follows overrides ⟨some a, some b, .ok (some c)⟩
  | failed {a b : Instance} {e : TypeConflict} (hne : a.type ≠ b.type)
    (hl : ¬ overrides.Lists a.type.name) (h : NativeType.mergeParts a.type b.type = .error e) :
    Follows overrides ⟨some a, some b, .error e⟩

namespace Merger

variable (m : Merger) (s : Instances) (a b : Option Instance)

theorem follows_merge :
    MergeCall.Follows m.overrides ⟨a, b, (m.merge s a b).map Prod.fst⟩ := by
  rcases m.merge_cases s a b with ⟨rfl, e⟩ | ⟨rfl, e⟩ |
    ⟨i, j, rfl, rfl, ⟨hkept, e⟩ | ⟨⟨hne, hl⟩, ⟨c, hc, e⟩ | ⟨d, hd, e⟩⟩⟩ <;> rw [e]
  · exact .left_absent b
  · exact .right_absent a
  · exact .kept hkept
  · exact .merged hne hl hc
  · exact .failed hne hl hd

variable {m s a b} {r : Option Instance} {m' : Merger} {s' : Instances} {is : List Instance}

/-- A merge gives one of its operands or a new instance. -/
theorem known_merge (h : s.Known is) (ha : ∀ i ∈ a, i ∈ is) (hb : ∀ i ∈ b, i ∈ is)
    (hm : m.merge s a b = .ok (r, m', s')) : s'.Known (is ++ r.toList) := by
  have hheld : ∀ x : Option Instance, (∀ i ∈ x, i ∈ is) → s.Known (is ++ x.toList) :=
    fun x hx => h.subset (List.append_subset.2
      ⟨List.Subset.refl _, fun i hi => hx i (Option.mem_toList.1 hi)⟩)
  rcases m.merge_cases s a b with ⟨rfl, e⟩ | ⟨rfl, e⟩ |
    ⟨i, j, rfl, rfl, ⟨-, e⟩ | ⟨-, ⟨c, -, e⟩ | ⟨d, -, e⟩⟩⟩ <;> rw [e] at hm <;> cases hm
  · exact hheld _ hb
  · exact hheld _ ha
  · exact hheld _ ha
  · exact h.make c

end Merger

/-! ### Clients -/

/-- A session of a client that has a merger too. -/
structure Client where
  session : Session
  merger : Merger
  /-- The merges that the client asked for. -/
  merges : List MergeCall

/-- What a client with a merger does. -/
inductive Client.Move where
  /-- Calls the registry. -/
  | call (k : Call)
  /-- Merges two instances that may be absent. -/
  | merge (left right : Option Instance)
  /-- Finds the types of some observations. -/
  | canonicalize (os : List Observation)

namespace Client

/-- A client with a new registry and a new merger. -/
def start (overrides : Overrides) : Client := ⟨.start, .new overrides, []⟩

variable (c : Client)

/-- The client holds the instance, if there is one. -/
def Holds (x : Option Instance) : Prop := ∀ i ∈ x, i ∈ c.session.handles

instance (x : Option Instance) : Decidable (c.Holds x) :=
  inferInstanceAs (Decidable (∀ i ∈ x, i ∈ c.session.handles))

/-- What the client works on. -/
def workbench : Workbench := ⟨c.session.instances, c.merger, c.session.registry⟩

/-- The client after a merge. -/
def merge (left right : Option Instance) : Client :=
  match c.merger.merge c.session.instances left right with
  | .error e => { c with merges := c.merges ++ [⟨left, right, .error e⟩] }
  | .ok (r, m, is) =>
    { session := { c.session with instances := is, handles := c.session.handles ++ r.toList }
      merger := m
      merges := c.merges ++ [⟨left, right, .ok r⟩] }

/-- The client after it found the types of some observations. -/
def canonicalize (os : List Observation) : Client :=
  let (found, w) := c.workbench.canonicalize os
  { c with
    session := { c.session with
      registry := w.registry
      instances := w.instances
      handles := c.session.handles ++ found.types }
    merger := w.merger }

/-- The client after a move. No merge can be of an instance that the client does not hold. -/
def step : Move → Client
  | .call k => { c with session := c.session.step k }
  | .merge left right => if c.Holds left ∧ c.Holds right then c.merge left right else c
  | .canonicalize os => c.canonicalize os

/-- The client after some moves. -/
def run (overrides : Overrides) (moves : List Move) : Client := moves.foldl step (start overrides)

variable {c}

theorem soundFor_workbench (h : c.session.Sound) : c.workbench.SoundFor c.session.handles :=
  ⟨h.registry, h.known, h.pooled⟩

theorem sound_merge (h : c.session.Sound) {a b : Option Instance} (ha : c.Holds a)
    (hb : c.Holds b) : (c.merge a b).session.Sound := by
  unfold merge
  split
  · exact h
  · rename_i r m is hm
    exact h.hold (Merger.known_merge h.known ha hb hm)

theorem sound_canonicalize (h : c.session.Sound) (os : List Observation) :
    (c.canonicalize os).session.Sound := by
  have hfor := soundFor_workbench h
  have hrun := hfor.typesOf (Grouping.ofObservations os).groups
  have hpool := (hfor.pool_typesOf (Grouping.ofObservations os).groups).1
  refine ⟨hrun.registry, hrun.known, hrun.pooled, fun a ha => ?_⟩
  obtain ⟨hmem, ht⟩ := h.answered a ha
  refine ⟨?_, ht⟩
  show a.2 ∈ (c.workbench.typesOf _).2.registry.pool
  rw [hpool]
  exact List.mem_append_left _ hmem

/-- Each move keeps a session sound. -/
theorem sound_step (h : c.session.Sound) (v : Move) : (c.step v).session.Sound := by
  cases v with
  | call k => exact h.step k
  | merge a b =>
    rw [step]
    split_ifs with hheld
    · exact sound_merge h hheld.1 hheld.2
    · exact h
  | canonicalize os => exact sound_canonicalize h os

/-- What holds at the start and is kept by each move of a sound client holds after any run. -/
theorem run_invariant {overrides : Overrides} {P : Client → Prop} (hstart : P (start overrides))
    (hstep : ∀ c : Client, c.session.Sound → P c → ∀ v, P (c.step v)) (moves : List Move) :
    (run overrides moves).session.Sound ∧ P (run overrides moves) := by
  induction moves using List.reverseRecOn with
  | nil => exact ⟨Session.sound_start, hstart⟩
  | append_singleton moves v ih =>
    rw [run, List.foldl_append]
    exact ⟨sound_step ih.1 v, hstep _ ih.1 ih.2 v⟩

/-- **The session of every client is sound.** -/
theorem sound_run (overrides : Overrides) (moves : List Move) :
    (run overrides moves).session.Sound :=
  (run_invariant (P := fun _ => True) trivial (fun _ _ _ _ => trivial) moves).1

end Client

end Bindery
