import Bindery.Proofs.Client.Moves

/-!
# What finding types does to a registry

A client finds the types of some observations with a registry that it has used before, in any way:
it may hold any types by then, also some that the observations are about. Here it is said what the
registry holds afterwards, and which of it the client gets.

* `Registry.Sound.holds_of_mem` : pooled instances are the pooled ones of their types;
* `Workbench.SoundFor.same_iff` : of the types of a run, equal ones are the same instance;
* `Client.registry_effect` is the main result.
-/

namespace Bindery

open Observation

theorem Registry.Sound.holds_of_mem {r : Registry} (h : r.Sound) {i : Instance} (hi : i ∈ r.pool) :
    r.holds i = true := by
  rw [holds, h.find?_eq_some_iff.2 ⟨hi, rfl⟩]
  simp

namespace Workbench

variable {w : Workbench} {is : List Instance} {overrides : Overrides} {os : List Observation}
  {k : NameKey}

/-- A name gets no type exactly if there are errors for it. -/
theorem types_alone_eq_nil_iff (hk : k ∈ keys (os.filter counts)) :
    (alone overrides os k).types = [] ↔ (alone overrides os k).errors ≠ [] := by
  rw [ne_eq, errors_alone hk, ← List.map_eq_nil_iff, types_alone hk, Option.toList_eq_nil_iff,
    Option.eq_none_iff_forall_ne_some, not_exists]

/-- Of the types of a run, equal ones are the same instance. -/
theorem SoundFor.same_iff (h : w.SoundFor is) {i j : Instance}
    (hi : i ∈ (w.canonicalize os).1.types) (hj : j ∈ (w.canonicalize os).1.types) :
    i.serial = j.serial ↔ i.type = j.type := by
  have hrun := h.typesOf (Grouping.ofObservations os).groups
  have hpooled := (h.pool_typesOf (Grouping.ofObservations os).groups).2
  constructor
  · intro e
    rw [hrun.known.eq_of_serial i (List.mem_append_right _ hi) j (List.mem_append_right _ hj) e]
  · intro e
    rw [List.inj_on_of_nodup_map hrun.registry.distinct (hpooled hi) (hpooled hj) e]

end Workbench

namespace Client

/-- **What finding types does to a registry.** Take the registry of a client after any run, any
merger, and any observations. After the types of the observations were found:

* the registry is sound, and its pool is the one before, followed by those of the types that were
  not in it, each once and in their order;
* the types are, name by name in first-seen order, the pooled instances of what the names get in
  runs of their own, and a name gets none exactly if there are errors for it;
* each of the types is the pooled instance itself, and two of them are the same instance exactly if
  they are equal;
* each pooled instance was there before or has the type of a name without errors, and the registry
  holds what it would hold had the names with errors not been observed. -/
theorem registry_effect (overrides : Overrides) (moves : List Move) (m : Merger)
    (os : List Observation) :
    let s := (run overrides moves).session
    let w : Workbench := ⟨s.instances, m, s.registry⟩
    let types := (w.canonicalize os).1.types
    let r := (w.canonicalize os).2.registry
    let alone k := ((Workbench.new m.overrides).canonicalize (ofKey k os)).1
    let good k : Bool := (alone k).errors = []
    (r.Sound ∧ r.pool = s.registry.pool ++ (types.filter (· ∉ s.registry.pool)).eraseDups) ∧
      types = (keys (os.filter counts)).flatMap
        (fun k => (alone k).types.filterMap fun i => r.find? i.type) ∧
      (∀ k ∈ keys (os.filter counts), (alone k).types = [] ↔ (alone k).errors ≠ []) ∧
      (∀ i ∈ types, r.holds i = true) ∧
      (∀ i ∈ types, ∀ j ∈ types, i.serial = j.serial ↔ i.type = j.type) ∧
      (∀ p ∈ r.pool, p ∈ s.registry.pool ∨ ∃ k ∈ keys (os.filter counts),
        (alone k).errors = [] ∧ p.type ∈ (alone k).types.map Instance.type) ∧
      (w.canonicalize (os.filter fun o => good o.key)).2.contents =
        (w.canonicalize os).2.contents := by
  intro s w types r alone good
  have hs : s.Sound := sound_run overrides moves
  have hfor : w.SoundFor s.handles := ⟨hs.registry, hs.known, hs.pooled⟩
  have hsound : r.Sound := (hfor.typesOf (Grouping.ofObservations os).groups).registry
  obtain ⟨hpool, hpooled⟩ := hfor.pool_typesOf (Grouping.ofObservations os).groups
  rw [firstSeen, List.map_id] at hpool
  refine ⟨⟨hsound, hpool⟩, hfor.types_eq os, ?_, ?_, ?_, ?_, w.contents_without_failed os⟩
  · exact fun k hk => Workbench.types_alone_eq_nil_iff hk
  · exact fun i hi => hsound.holds_of_mem (hpooled hi)
  · exact fun i hi j hj => hfor.same_iff hi hj
  · exact fun p hp => hfor.mem_pool_canonicalize hp

/-- A client finds a declaration without a name that it has found before, one with a new name, and
one whose sites disagree. -/
theorem registry_effect_again :
    let moves : List Move := [.canonicalize [⟨none, "z.h:1", 32, "i"⟩]]
    let os : List Observation :=
      [⟨none, "a.h:1", 32, "i"⟩, ⟨some "Bad", "a.h:3", 32, "q"⟩, ⟨some "Bad", "b.h:3", 32, "f"⟩,
        ⟨some "New", "a.h:5", 32, "q"⟩, ⟨none, "b.h:1", 32, "i"⟩]
    let s := (run ⟨[]⟩ moves).session
    let w : Workbench := ⟨s.instances, .new ⟨[]⟩, s.registry⟩
    let types := (w.canonicalize os).1.types
    let r := (w.canonicalize os).2.registry
    types.map Instance.serial = [2, 6, 2] ∧ r.pool.map Instance.serial = [0, 1, 2, 6] ∧
      r.pool = s.registry.pool ++ (types.filter (· ∉ s.registry.pool)).eraseDups ∧
      (∀ i ∈ types, r.holds i = true) ∧
      ∀ i ∈ types, ∀ j ∈ types, i.serial = j.serial ↔ i.type = j.type := by
  intro moves os s w types r
  obtain ⟨⟨-, hpool⟩, -, -, hholds, hsame, -⟩ := registry_effect ⟨[]⟩ moves (.new ⟨[]⟩) os
  exact ⟨by decide +kernel, by decide +kernel, hpool, hholds, hsame⟩

end Client

end Bindery
