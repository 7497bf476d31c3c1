import Bindery.MixedCoder
import Bindery.Proofs.FirstSeen

/-!
# The coders of some types

Types are added to the coders one by one. What comes of it can be said at once: there is a coder for
each pair of primitives that some type has, in first-seen order, with the types of that pair.

* `MixedCoder.pairs` lists the pairs of primitives, and `MixedCoder.ofPair` is the coder of one;
* `MixedCoder.group_eq` : the coders of some types are those of their pairs;
* `MixedCoder.entries_perm` : for the same types in another order they are the same but for their
  order and that of their types;
* `MixedCoder.group_partition` : the coders share out the types with two different primitives, and
  keep their order.
-/

namespace Bindery.MixedCoder

/-- The pairs of different primitives that some types have, in first-seen order. -/
def pairs (types : List NativeType) : List (Primitive × Primitive) :=
  firstSeen id (types.filterMap NativeType.mixed?)

/-- The coder of a pair, for those of some types that have it. -/
def ofPair (naming : CoderNaming) (types : List NativeType) (pq : Primitive × Primitive) :
    MixedCoder :=
  ⟨pq.1, pq.2, naming.field pq.1 pq.2, naming.definition pq.1 pq.2,
    types.filter fun t => t.mixed? = some pq⟩

/-- The coder without its types. -/
def entry (c : MixedCoder) : (Primitive × Primitive) × String × String :=
  ((c.on32, c.on64), c.field, c.definition)

variable {naming : CoderNaming} {types : List NativeType} {t : NativeType} {p q : Primitive}
  {ks : List (Primitive × Primitive)} {k : Primitive × Primitive}

theorem mem_pairs : k ∈ pairs types ↔ ∃ t ∈ types, t.mixed? = some k := by
  simp [pairs, mem_firstSeen]

theorem nodup_pairs : (pairs types).Nodup := nodup_firstSeen id _

theorem ne_of_mem_pairs (h : k ∈ pairs types) : k.1 ≠ k.2 := by
  obtain ⟨t, -, hk⟩ := mem_pairs.1 h
  exact (t.mixed?_eq_some_iff.1 hk).2.2

theorem pairs_append_singleton (h : t.mixed? = some k) :
    pairs (types ++ [t]) = if k ∈ pairs types then pairs types else pairs types ++ [k] := by
  have hlast : pairs (types ++ [t]) = firstSeen id (types.filterMap NativeType.mixed? ++ [k]) := by
    rw [pairs, List.filterMap_append, List.filterMap_cons, h, List.filterMap_nil]
  rw [hlast, firstSeen_append_singleton]
  by_cases hk : k ∈ pairs types
  · rw [if_pos hk]
    exact if_pos hk
  · rw [if_neg hk]
    exact if_neg hk

theorem ofPair_append_of_ne (h : t.mixed? ≠ some k) :
    ofPair naming (types ++ [t]) k = ofPair naming types k := by
  simp [ofPair, h]

/-- A type is added to the coder of its pair, which is new if it is not among the given ones. -/
theorem add_map (ht : t.mixed? = some (p, q)) (hks : ks.Nodup)
    (hnew : (p, q) ∉ ks → (p, q) ∉ pairs types) :
    add naming p q t (ks.map (ofPair naming types)) =
      (if (p, q) ∈ ks then ks else ks ++ [(p, q)]).map (ofPair naming (types ++ [t])) := by
  induction ks with
  | nil =>
    have hnone : types.filter (fun u => u.mixed? = some (p, q)) = [] := by
      rw [List.filter_eq_nil_iff]
      intro u hu
      simpa using fun e => hnew (by simp) (mem_pairs.2 ⟨u, hu, e⟩)
    simp [add, first, ofPair, ht, hnone]
  | cons j ks ih =>
    obtain ⟨hj, hks⟩ := List.nodup_cons.1 hks
    have kept : ∀ i, i ≠ (p, q) → ofPair naming (types ++ [t]) i = ofPair naming types i :=
      fun i hi => ofPair_append_of_ne (by rw [ht]; exact fun e => hi (Option.some.inj e).symm)
    rw [List.map_cons, add]
    by_cases hpq : j = (p, q)
    · subst hpq
      have hrest : ks.map (ofPair naming (types ++ [t])) = ks.map (ofPair naming types) :=
        List.map_congr_left fun i hi => kept i fun e => hj (e ▸ hi)
      simp [ofPair, ht, hrest]
    · have hne : ¬ ((ofPair naming types j).on32 = p ∧ (ofPair naming types j).on64 = q) :=
        fun e => hpq (Prod.ext e.1 e.2)
      have hmem : (p, q) ∈ j :: ks ↔ (p, q) ∈ ks := by simp [Ne.symm hpq]
      rw [if_neg hne, ih hks fun hn => hnew (mt hmem.1 hn)]
      by_cases hm : (p, q) ∈ ks <;> simp [hm, Ne.symm hpq, kept j hpq]

/-- **The coders of some types are those of their pairs.** -/
theorem group_eq (naming : CoderNaming) (types : List NativeType) :
    group naming types = (pairs types).map (ofPair naming types) := by
  induction types using List.reverseRecOn with
  | nil => rfl
  | append_singleton types t ih =>
    rw [group_append_singleton, step, ih]
    cases ht : t.mixed? with
    | none =>
      have hpairs : pairs (types ++ [t]) = pairs types := by
        rw [pairs, List.filterMap_append, List.filterMap_cons, ht, List.filterMap_nil,
          List.append_nil, pairs]
      rw [hpairs]
      exact List.map_congr_left fun k _ => (ofPair_append_of_ne (by simp [ht])).symm
    | some pq =>
      obtain ⟨p, q⟩ := pq
      rw [pairs_append_singleton ht]
      exact add_map ht nodup_pairs fun h => h

/-- The same types in another order need the same coders, in another order. -/
theorem entries_perm {us : List NativeType} (h : types.Perm us) :
    ((group naming types).map entry).Perm ((group naming us).map entry) := by
  have hpairs : (pairs types).Perm (pairs us) := by
    refine (List.perm_ext_iff_of_nodup nodup_pairs nodup_pairs).2 fun k => ?_
    rw [mem_pairs, mem_pairs]
    simp only [h.mem_iff]
  have hentry : ∀ ts : List NativeType, (group naming ts).map entry =
      (pairs ts).map fun k => (k, naming.field k.1 k.2, naming.definition k.1 k.2) := by
    intro ts
    rw [group_eq, List.map_map]
    rfl
  rw [hentry, hentry]
  exact hpairs.map _

/-- The types of the coder of a pair, by their shapes. -/
theorem types_ofPair (h : k.1 ≠ k.2) :
    (ofPair naming types k).types =
      types.filter fun t => t.shape32 = .primitive k.1 ∧ t.shape64 = .primitive k.2 := by
  refine List.filter_congr fun t _ => decide_eq_decide.2 ?_
  rw [t.mixed?_eq_some_iff]
  exact ⟨fun ⟨h32, h64, _⟩ => ⟨h32, h64⟩, fun ⟨h32, h64⟩ => ⟨h32, h64, h⟩⟩

theorem mem_types_ofPair :
    t ∈ (ofPair naming types k).types ↔ t ∈ types ∧ t.mixed? = some k := by
  simp [ofPair]

/-- A type is in the coder of its pair and in no other. -/
theorem filter_group_of_mixed (ht : t ∈ types) (hk : t.mixed? = some k) :
    ((group naming types).filter fun g => t ∈ g.types) = [ofPair naming types k] := by
  have hthis : ∀ j, t ∈ (ofPair naming types j).types ↔ j = k := by
    intro j
    rw [mem_types_ofPair, hk, Option.some.injEq]
    exact ⟨fun h => h.2.symm, fun h => ⟨ht, h.symm⟩⟩
  have hone : (pairs types).filter (fun j => j = k) = [k] := by
    have hk : k ∈ pairs types := mem_pairs.2 ⟨t, ht, hk⟩
    rw [List.filter_eq, List.count_eq_one_of_mem nodup_pairs hk, List.replicate_one]
  rw [group_eq, List.filter_map]
  have hcongr : ((fun g : MixedCoder => decide (t ∈ g.types)) ∘ ofPair naming types) =
      fun j => decide (j = k) := funext fun j => decide_eq_decide.2 (hthis j)
  rw [hcongr, hone, List.map_singleton]

/-- **Grouping is a stable partition.** For all types and all namings:

* there is one coder for each pair of different primitives that some type has, in the order in which
  the pairs first occur;
* it has the field and the definition that the naming gives for its pair, and its types are those
  with these two primitives, in their order and as often as they come;
* a type with two different primitives is in exactly one coder, that of its pair, and no other type
  is in any. -/
theorem group_partition (naming : CoderNaming) (types : List NativeType) :
    let groups := group naming types
    let pair (g : MixedCoder) := (g.on32, g.on64)
    groups.map pair = firstSeen id (types.filterMap NativeType.mixed?) ∧
      (groups.map pair).Nodup ∧
      (∀ g ∈ groups, g.on32 ≠ g.on64 ∧
        g.field = naming.field g.on32 g.on64 ∧ g.definition = naming.definition g.on32 g.on64 ∧
        g.types = types.filter fun t =>
          t.shape32 = .primitive g.on32 ∧ t.shape64 = .primitive g.on64) ∧
      (∀ t ∈ types, ∀ p q, t.shape32 = .primitive p → t.shape64 = .primitive q → p ≠ q →
        ∃ g, pair g = (p, q) ∧ (groups.filter fun g => t ∈ g.types) = [g]) ∧
      ∀ t, (∃ g ∈ groups, t ∈ g.types) → t ∈ types ∧
        ∃ p q, t.shape32 = .primitive p ∧ t.shape64 = .primitive q ∧ p ≠ q := by
  intro groups pair
  have hpairs : groups.map pair = pairs types := by
    rw [show groups = _ from group_eq naming types, List.map_map]
    exact List.map_id _
  have hof : ∀ g ∈ groups, ∃ k ∈ pairs types, g = ofPair naming types k := by
    intro g hg
    rw [show groups = _ from group_eq naming types] at hg
    obtain ⟨k, hk, rfl⟩ := List.mem_map.1 hg
    exact ⟨k, hk, rfl⟩
  refine ⟨hpairs, hpairs ▸ nodup_pairs, fun g hg => ?_, fun t ht p q h32 h64 hne => ?_,
    fun t ⟨g, hg, htg⟩ => ?_⟩
  · obtain ⟨k, hk, rfl⟩ := hof g hg
    have hne := ne_of_mem_pairs hk
    exact ⟨hne, rfl, rfl, types_ofPair hne⟩
  · exact ⟨_, rfl, filter_group_of_mixed ht (t.mixed?_eq_some_iff.2 ⟨h32, h64, hne⟩)⟩
  · obtain ⟨⟨p, q⟩, -, rfl⟩ := hof g hg
    obtain ⟨ht, hk⟩ := mem_types_ofPair.1 htg
    exact ⟨ht, p, q, t.mixed?_eq_some_iff.1 hk⟩

end Bindery.MixedCoder
