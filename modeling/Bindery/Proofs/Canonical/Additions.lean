import Bindery.Proofs.Canonical.Registered

/-!
# What a run adds to the registry

A run interns one type for each name that gets one, in the order in which the names were first
seen. So it adds to the pool those of its types that were not there, each once and in that order,
and nothing else. A name without a type adds nothing: the registry holds what it would hold had the
name not been observed at all.

* `Workbench.SoundFor.pool_typesOf` : the pool after a run;
* `Workbench.alone` is what a name gets in a run of its own, and `Workbench.types_eq` says that the
  types of a run are the pooled instances of these;
* `Workbench.contents_without_failed` : observations of names without a type may be left out.
-/

namespace Bindery

open Observation

/-! ### The pool -/

/-- One more item behind a list and the items that it lacks. -/
theorem append_firstSeen_append_singleton {α : Type} [DecidableEq α] (pool ts : List α) (p : α) :
    pool ++ firstSeen id ((ts ++ [p]).filter (· ∉ pool)) =
      if p ∈ pool ++ firstSeen id (ts.filter (· ∉ pool)) then
        pool ++ firstSeen id (ts.filter (· ∉ pool))
      else pool ++ firstSeen id (ts.filter (· ∉ pool)) ++ [p] := by
  rw [List.filter_append, List.filter_singleton]
  by_cases hp : p ∈ pool
  · simp [hp]
  · simp only [hp, not_false_eq_true, decide_true, cond_true, firstSeen_append_singleton, id,
      List.mem_append, false_or, List.append_assoc]
    split_ifs <;> rfl

theorem Registry.Interned.pool_eq {r r' : Registry} {t : NativeType} {p : Instance}
    (h : r.Interned t p r') : r'.pool = if p ∈ r.pool then r.pool else r.pool ++ [p] := by
  obtain ⟨-, e⟩ | ⟨hne, e⟩ := h.grows
  · rw [if_pos (e ▸ h.mem), e]
  · rw [if_neg fun hp => hne p hp h.type_eq, e]

namespace Workbench

variable {w : Workbench} {is : List Instance} {os : List Observation} {overrides : Overrides}
  {k : NameKey}

/-- **A run adds to the pool** those of its types that are not there, each once, in their order.
All its types are pooled then. -/
theorem SoundFor.pool_typesOf (h : w.SoundFor is) (gs : List NameGroup) :
    (w.typesOf gs).2.registry.pool = w.registry.pool ++
        firstSeen id ((w.typesOf gs).1.types.filter (· ∉ w.registry.pool)) ∧
      (w.typesOf gs).1.types ⊆ (w.typesOf gs).2.registry.pool := by
  have hrun : (w.typesOf gs).2.registry.Sound ∧ (w.typesOf gs).2.registry.pool =
      w.registry.pool ++ firstSeen id ((w.typesOf gs).1.types.filter (· ∉ w.registry.pool)) ∧
      (w.typesOf gs).1.types ⊆ (w.typesOf gs).2.registry.pool := by
    refine typesOf_invariant (P := fun v ts => v.registry.Sound ∧
      v.registry.pool = w.registry.pool ++ firstSeen id (ts.filter (· ∉ w.registry.pool)) ∧
      ts ⊆ v.registry.pool) ?_ ?_ [] ⟨h.registry, by simp [firstSeen], by simp⟩ gs
    · intro v ts g hv
      rwa [(v.fold_value g.key.name? none g.sites).2.registry]
    · intro v ts i g _ _ hv
      rw [← (v.fold_value g.key.name? none g.sites).2.registry] at hv
      obtain ⟨hsound, hpool, hts⟩ := hv
      have hi := hsound.adopt i
      refine ⟨hi.sound, ?_, List.append_subset.2 ⟨List.Subset.trans hts hi.subset, ?_⟩⟩
      · rw [append_firstSeen_append_singleton, ← hpool]
        exact hi.pool_eq
      · exact List.cons_subset.2 ⟨hi.mem, List.nil_subset _⟩
  exact hrun.2

/-! ### The names of a run -/

/-- The types of a run, by value, whatever the widths of the observations are. -/
theorem types_eq_filterMap (w : Workbench) (os : List Observation) :
    (w.canonicalize os).1.types.map Instance.type =
      (keys (os.filter counts)).filterMap fun k => (groupOf os k).type? w.merger.overrides := by
  have hvalue := (w.typesOf_value (Grouping.ofObservations os).groups).1
  rw [Grouping.groups_eq, List.flatMap_map] at hvalue
  rw [List.filterMap_eq_flatMap_toList, canonicalize, Grouping.groups_eq]
  exact hvalue.trans (List.flatMap_congr fun k _ => NameGroup.outcome_eq_toList _ _)

/-- What a name gets in a run of its own. -/
def alone (overrides : Overrides) (os : List Observation) (k : NameKey) : Canonical :=
  ((new overrides).canonicalize (ofKey k os)).1

theorem keys_counted_ofKey (hk : k ∈ keys (os.filter counts)) :
    keys ((ofKey k os).filter counts) = [k] := by
  rw [← ofKey_filter_counts, keys_ofKey, if_pos hk]

/-- A name gets the same type in a run of its own. -/
theorem types_alone (hk : k ∈ keys (os.filter counts)) :
    (alone overrides os k).types.map Instance.type =
      ((groupOf os k).type? overrides).toList := by
  rw [alone, types_eq_filterMap, keys_counted_ofKey hk, List.filterMap_eq_flatMap_toList,
    List.flatMap_singleton, groupOf_ofKey]
  rfl

/-- A name gets a type if there are no errors for it. -/
theorem errors_alone (hk : k ∈ keys (os.filter counts)) :
    (alone overrides os k).errors = [] ↔ ∃ t, (groupOf os k).type? overrides = some t := by
  rw [alone, ← canonicalize_filter_counts, errors_eq_nil_iff _ abi_of_mem_filter_counts,
    keys_counted_ofKey hk]
  simp only [List.mem_singleton, forall_eq, groupOf_filter_counts, groupOf_ofKey]
  rfl

/-- The types of a run, by value, are those that its names get in runs of their own. -/
theorem types_eq_flatMap_alone (w : Workbench) (os : List Observation) :
    (w.canonicalize os).1.types.map Instance.type =
      (keys (os.filter counts)).flatMap fun k =>
        (alone w.merger.overrides os k).types.map Instance.type := by
  rw [types_eq_filterMap, List.filterMap_eq_flatMap_toList]
  exact List.flatMap_congr fun k hk => (types_alone hk).symm

/-- Observations of names that get no type may be left out. -/
theorem types_without_failed (w : Workbench) (os : List Observation) :
    let good k : Bool := (alone w.merger.overrides os k).errors = []
    (w.canonicalize (os.filter fun o => good o.key)).1.types.map Instance.type =
      (w.canonicalize os).1.types.map Instance.type := by
  intro good
  have hkeys : keys ((os.filter fun o => good o.key).filter counts) =
      (keys (os.filter counts)).filter good := by
    rw [keys, keys, filter_firstSeen, List.filter_filter, List.filter_filter]
    simp only [Bool.and_comm]
  have hgroup (k : NameKey) (hk : good k = true) :
      groupOf (os.filter fun o => good o.key) k = groupOf os k := by
    have hofKey : ofKey k (os.filter fun o => good o.key) = ofKey k os := by
      rw [ofKey, ofKey, List.filter_filter]
      refine List.filter_congr fun o _ => ?_
      by_cases ho : o.key = k <;> simp [ho, hk]
    rw [groupOf, hofKey, groupOf]
  rw [types_eq_filterMap, types_eq_filterMap, hkeys, List.filterMap_filter]
  refine List.filterMap_congr fun k hk => ?_
  split_ifs with hgood
  · rw [hgroup k hgood]
  · -- a name with errors has no type
    have herrors : (alone w.merger.overrides os k).errors ≠ [] := by simpa [good] using hgood
    rw [ne_eq, errors_alone hk, not_exists] at herrors
    exact (Option.eq_none_iff_forall_ne_some.2 herrors).symm

/-- The registry holds what it would hold had the names that get no type not been observed. -/
theorem contents_without_failed (w : Workbench) (os : List Observation) :
    let good k : Bool := (alone w.merger.overrides os k).errors = []
    (w.canonicalize (os.filter fun o => good o.key)).2.contents =
      (w.canonicalize os).2.contents := by
  intro good
  -- the contents depend on the types alone
  rw [contents_canonicalize, contents_canonicalize, types_without_failed]

/-! ### What a run returns -/

/-- The types of a run are the pooled instances of what its names get in runs of their own. -/
theorem SoundFor.types_eq (h : w.SoundFor is) (os : List Observation) :
    (w.canonicalize os).1.types =
      (keys (os.filter counts)).flatMap fun k =>
        (alone w.merger.overrides os k).types.filterMap fun i =>
          (w.canonicalize os).2.registry.find? i.type := by
  have hsound := (h.typesOf (Grouping.ofObservations os).groups).registry
  have hpooled := (h.pool_typesOf (Grouping.ofObservations os).groups).2
  have hfind : ∀ i ∈ (w.canonicalize os).1.types,
      (w.canonicalize os).2.registry.find? i.type = some i :=
    fun i hi => hsound.find?_eq_some_iff.2 ⟨hpooled hi, rfl⟩
  calc (w.canonicalize os).1.types
      = (w.canonicalize os).1.types.filterMap fun i =>
          (w.canonicalize os).2.registry.find? i.type := by
        rw [List.filterMap_congr hfind, List.filterMap_some]
    _ = ((w.canonicalize os).1.types.map Instance.type).filterMap
          (w.canonicalize os).2.registry.find? := by rw [List.filterMap_map]; rfl
    _ = _ := by
        rw [types_eq_flatMap_alone, List.filterMap_flatMap]
        simp only [List.filterMap_map, Function.comp_def]

/-- Each instance that a run adds to the pool has the type of a name without errors. -/
theorem SoundFor.mem_pool_canonicalize (h : w.SoundFor is) {p : Instance}
    (hp : p ∈ (w.canonicalize os).2.registry.pool) :
    p ∈ w.registry.pool ∨ ∃ k ∈ keys (os.filter counts),
      (alone w.merger.overrides os k).errors = [] ∧
        p.type ∈ (alone w.merger.overrides os k).types.map Instance.type := by
  rw [canonicalize, (h.pool_typesOf _).1, List.mem_append, mem_firstSeen] at hp
  refine hp.imp_right ?_
  rintro ⟨q, hq, rfl⟩
  have htype : q.type ∈ (w.canonicalize os).1.types.map Instance.type :=
    List.mem_map_of_mem (List.mem_filter.1 hq).1
  rw [types_eq_flatMap_alone, List.mem_flatMap] at htype
  obtain ⟨k, hk, ht⟩ := htype
  refine ⟨k, hk, (errors_alone hk).2 ?_, ht⟩
  rw [types_alone hk, Option.mem_toList] at ht
  exact ⟨_, ht⟩

end Workbench

end Bindery
