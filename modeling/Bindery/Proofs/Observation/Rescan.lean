import Bindery.Proofs.Observation.Sites
import Bindery.Proofs.Shape.Absorption
import Mathlib.Logic.Relation

/-!
# Scanning again

Headers are scanned more than once: the same declaration comes again, or the same header comes again
under another path. Here it is said what that does to the observations of a run, and what becomes of
the names, their sites and the shapes seen there.

* `Observation.counts` : the observation has a width that a run takes in;
* `Observation.ofSite` lists the observations of one name at one site;
* `Observation.NewSite` says that a new site of a name repeats what was seen at another;
* `Observation.Rescan` is one declaration more, or one site more, and `Observation.Rescanned` any
  number of them;
* `Observation.NewSite.sites` : the new site comes somewhere behind the one that it repeats;
* `Observation.Rescan.keys` : the names and their order stay;
* `Grouping.ofObservations_filter_counts` : observations of other widths may be left out, and
  `Grouping.groups_eq` gives the groups of a run in which there may be some.
-/

namespace Bindery

namespace Observation

/-- The observation has a width that a run takes in. -/
def counts (o : Observation) : Bool := (Abi.ofBits? o.abi).isSome

/-- What was observed, without the name and the place. -/
def report (o : Observation) : Nat × String := (o.abi, o.encoding)

/-- The observations of one name at one site. -/
def ofSite (k : NameKey) (site : String) (os : List Observation) : List Observation :=
  os.filter fun o => o.key = k ∧ o.site = site

/-- Behind `pre` a new site of a name comes in. Its observations repeat all those of an earlier site
of that name, in any order, and may be interleaved with the observations of `post`. -/
structure NewSite (k : NameKey) (old new : String) (pre post mixed : List Observation) :
    Prop where
  seen : ∃ o ∈ pre, o.counts = true ∧ o.key = k ∧ o.site = old
  unseen : ofSite k new (pre ++ post) = []
  others : (mixed.filter fun o => ¬ (o.key = k ∧ o.site = new)) = post
  copied : ∀ r, r ∈ (ofSite k new mixed).map report ↔ r ∈ (ofSite k old (pre ++ post)).map report

/-- One declaration is scanned again, or a site is scanned again as a new one. -/
inductive Rescan : List Observation → List Observation → Prop where
  | again {os os' : List Observation} (h : Repeats os os') : Rescan os os'
  | site {k : NameKey} {old new : String} {pre post mixed : List Observation}
      (h : NewSite k old new pre post mixed) : Rescan (pre ++ post) (pre ++ mixed)

/-- Any number of declarations and sites are scanned again. -/
def Rescanned : List Observation → List Observation → Prop := Relation.ReflTransGen Rescan

/-! ### Counted observations -/

variable {os os' : List Observation} {k : NameKey} {site : String}

theorem counts_iff {o : Observation} : o.counts = true ↔ o.abi = 32 ∨ o.abi = 64 := by
  rw [counts, Option.isSome_iff_exists]
  simp only [Abi.ofBits?_eq_some_iff]
  constructor
  · rintro ⟨abi, h⟩
    cases abi with
    | bits32 => exact .inl h
    | bits64 => exact .inr h
  · exact exists_abi

theorem abi_of_mem_filter_counts : ∀ o ∈ os.filter counts, o.abi = 32 ∨ o.abi = 64 :=
  fun _ ho => counts_iff.1 (List.mem_filter.1 ho).2

theorem ofSite_append (os os' : List Observation) :
    ofSite k site (os ++ os') = ofSite k site os ++ ofSite k site os' := List.filter_append ..

theorem mem_ofSite {o : Observation} :
    o ∈ ofSite k site os ↔ o ∈ os ∧ o.key = k ∧ o.site = site := by
  simp [ofSite]

theorem ofSite_filter_counts (os : List Observation) :
    ofSite k site (os.filter counts) = (ofSite k site os).filter counts := by
  simp only [ofSite, List.filter_filter, Bool.and_comm]

theorem map_report_filter_counts (os : List Observation) :
    (os.filter counts).map report =
      (os.map report).filter fun r => (Abi.ofBits? r.1).isSome := by
  rw [List.filter_map]
  rfl

/-- The shape in a report on one binary interface. -/
def shapeOf (abi : Abi) (r : Nat × String) : Option Shape :=
  if r.1 = abi.bits then (Shape.decode r.2).toOption else none

/-- The shapes at a site depend on the reports of that site alone. -/
theorem shapesAt_ofKey (abi : Abi) (os : List Observation) :
    shapesAt (ofKey k os) site abi = ((ofSite k site os).map report).filterMap (shapeOf abi) := by
  rw [shapesAt, ofKey, ofSite, List.filterMap_map, List.filterMap_filter, List.filterMap_filter]
  refine List.filterMap_congr fun o _ => ?_
  by_cases hk : o.key = k <;> by_cases hs : o.site = site <;> by_cases ha : o.abi = abi.bits <;>
    simp [hk, hs, ha, shapeOf, report, Observation.shape]

/-! ### A new site -/

namespace NewSite

variable {old new : String} {pre post mixed : List Observation}

theorem unseen_pre (h : NewSite k old new pre post mixed) : ofSite k new pre = [] := by
  have hnil := h.unseen
  rw [ofSite_append] at hnil
  exact (List.append_eq_nil_iff.1 hnil).1

/-- The observations at all other sites stay. -/
theorem ofSite_of_ne (h : NewSite k old new pre post mixed) {j : NameKey}
    (hne : ¬ (j = k ∧ site = new)) :
    ofSite j site (pre ++ mixed) = ofSite j site (pre ++ post) := by
  rw [ofSite_append, ofSite_append, ← h.others]
  congr 1
  rw [ofSite, ofSite, List.filter_filter]
  refine List.filter_congr fun o _ => ?_
  simp only [decide_not, Bool.decide_and]
  grind

/-- At the new site there is what was seen at the old one. -/
theorem mem_ofSite_new (h : NewSite k old new pre post mixed) (r : Nat × String) :
    r ∈ (ofSite k new (pre ++ mixed)).map report ↔
      r ∈ (ofSite k old (pre ++ post)).map report := by
  rw [ofSite_append, h.unseen_pre, List.nil_append, h.copied]

/-- The new site is none of another name. -/
theorem ofKey_of_ne (h : NewSite k old new pre post mixed) {j : NameKey} (hne : j ≠ k) :
    ofKey j (pre ++ mixed) = ofKey j (pre ++ post) := by
  rw [ofKey, ofKey, List.filter_append, List.filter_append, ← h.others, List.filter_filter]
  congr 1
  refine List.filter_congr fun o _ => ?_
  simp only [decide_not, Bool.decide_and]
  grind

theorem filter_counts (h : NewSite k old new pre post mixed) :
    NewSite k old new (pre.filter counts) (post.filter counts) (mixed.filter counts) where
  seen := by
    obtain ⟨o, ho, hc, hs⟩ := h.seen
    exact ⟨o, List.mem_filter.2 ⟨ho, hc⟩, hc, hs⟩
  unseen := by rw [← List.filter_append, ofSite_filter_counts, h.unseen, List.filter_nil]
  others := by rw [← h.others, List.filter_filter, List.filter_filter]; simp only [Bool.and_comm]
  copied := fun r => by
    rw [← List.filter_append, ofSite_filter_counts, ofSite_filter_counts,
      map_report_filter_counts, map_report_filter_counts, List.mem_filter, List.mem_filter,
      h.copied]

theorem keys (h : NewSite k old new pre post mixed) :
    keys (pre ++ mixed) = keys (pre ++ post) := by
  obtain ⟨o, ho, -, hk, -⟩ := h.seen
  rw [Observation.keys, Observation.keys, firstSeen_append, firstSeen_append, ← h.others]
  congr 2
  rw [List.removeAll, List.removeAll, List.filter_map, List.filter_map, List.filter_filter]
  congr 1
  refine List.filter_congr fun p _ => ?_
  -- an observation at the new site has a key that was seen before
  have hseen : p.key = k → p.key ∈ pre.map key := fun e => e ▸ hk ▸ List.mem_map_of_mem ho
  by_cases hp : p.key ∈ pre.map key
  · simp only [Function.comp_apply, List.elem_eq_mem, hp, decide_true, Bool.not_true,
      Bool.false_and]
  · have hpk : p.key ≠ k := mt hseen hp
    simp [hpk]

/-- The new site comes somewhere behind the one that it repeats. -/
theorem sites (h : NewSite k old new pre post mixed) :
    ∃ before behind, old ∈ before ∧ new ∉ before ++ behind ∧
      sites (ofKey k (pre ++ post)) = before ++ behind ∧
      sites (ofKey k (pre ++ mixed)) = before ++ new :: behind := by
  obtain ⟨o, ho, -, hk, hs⟩ := h.seen
  have hold : old ∈ firstSeen site (ofKey k pre) :=
    (mem_firstSeen site).2 ⟨o, List.mem_filter.2 ⟨ho, by simpa using hk⟩, hs⟩
  have hnew : new ∉ firstSeen site (ofKey k pre) := by
    rw [mem_firstSeen]
    rintro ⟨p, hp, hpn⟩
    have hpk := List.mem_filter.1 hp
    have hmem : p ∈ ofSite k new pre := mem_ofSite.2 ⟨hpk.1, by simpa using hpk.2, hpn⟩
    rw [h.unseen_pre] at hmem
    cases hmem
  have hmem : new ∈ firstSeen site (ofKey k pre ++ ofKey k mixed) := by
    -- the report of `o` comes again at the new site
    have hr : report o ∈ (ofSite k old (pre ++ post)).map report :=
      List.mem_map_of_mem (mem_ofSite.2 ⟨List.mem_append_left _ ho, hk, hs⟩)
    obtain ⟨p, hp, -⟩ := List.mem_map.1 ((h.copied _).2 hr)
    obtain ⟨hpm, hpk, hpn⟩ := mem_ofSite.1 hp
    refine (mem_firstSeen site).2 ⟨p, List.mem_append_right _ ?_, hpn⟩
    exact List.mem_filter.2 ⟨hpm, by simpa using hpk⟩
  have hpost : (ofKey k mixed).filter (fun p => p.site ≠ new) = ofKey k post := by
    rw [← h.others, ofKey, ofKey, List.filter_filter, List.filter_filter]
    refine List.filter_congr fun p _ => ?_
    by_cases hpk : p.key = k <;> simp [hpk]
  have hinsert := firstSeen_insert hold hnew hmem
  rw [hpost, ofKey, ofKey, ofKey, ← List.filter_append, ← List.filter_append] at hinsert
  exact hinsert

/-- The shapes at all other sites stay. -/
theorem shapesAt_of_ne (h : NewSite k old new pre post mixed) (hs : site ≠ new) (abi : Abi) :
    shapesAt (ofKey k (pre ++ mixed)) site abi = shapesAt (ofKey k (pre ++ post)) site abi := by
  rw [shapesAt_ofKey, shapesAt_ofKey, h.ofSite_of_ne fun e => hs e.2]

/-- The shapes at the new site are those at the old one. -/
theorem mem_shapesAt_new (h : NewSite k old new pre post mixed) (abi : Abi) (t : Shape) :
    t ∈ shapesAt (ofKey k (pre ++ mixed)) new abi ↔
      t ∈ shapesAt (ofKey k (pre ++ post)) old abi := by
  rw [shapesAt_ofKey, shapesAt_ofKey]
  simp only [List.mem_filterMap, h.mem_ofSite_new]

theorem readable (h : NewSite k old new pre post mixed)
    (hr : ∀ o ∈ ofKey k (pre ++ post), ∃ t, o.shape = .ok t) :
    ∀ o ∈ ofKey k (pre ++ mixed), ∃ t, o.shape = .ok t := by
  have ofSite_readable : ∀ s, ∀ o ∈ ofSite k s (pre ++ post), ∃ t, o.shape = .ok t := by
    intro s o ho
    obtain ⟨hmem, hk, -⟩ := mem_ofSite.1 ho
    exact hr o (List.mem_filter.2 ⟨hmem, by simpa using hk⟩)
  intro o ho
  obtain ⟨hmem, hk⟩ := List.mem_filter.1 ho
  have hsite : o ∈ ofSite k o.site (pre ++ mixed) :=
    mem_ofSite.2 ⟨hmem, by simpa using hk, rfl⟩
  by_cases hs : o.site = new
  · -- the encoding was read at the old site
    rw [hs] at hsite
    have hreport := List.mem_map_of_mem (f := report) hsite
    obtain ⟨p, hp, he⟩ := List.mem_map.1 ((h.mem_ofSite_new _).1 hreport)
    obtain ⟨t, ht⟩ := ofSite_readable old p hp
    have hencoding : p.encoding = o.encoding := congrArg Prod.snd he
    exact ⟨t, by rw [Observation.shape, ← hencoding]; exact ht⟩
  · rw [h.ofSite_of_ne fun e => hs e.2] at hsite
    exact ofSite_readable _ o hsite

theorem coherent (h : NewSite k old new pre post mixed) (hc : Coherent (ofKey k (pre ++ post))) :
    Coherent (ofKey k (pre ++ mixed)) := by
  refine ⟨h.readable hc.readable, fun site abi => ?_⟩
  by_cases hs : site = new
  · rw [hs]
    exact (hc.alike old abi).subset fun t ht => (h.mem_shapesAt_new abi t).1 ht
  · rw [h.shapesAt_of_ne hs]
    exact hc.alike site abi

end NewSite

/-! ### Scanning again -/

theorem repeats_ofKey (h : Repeats os os') (k : NameKey) : Repeats (ofKey k os) (ofKey k os') :=
  h.filter _

theorem repeats_shapesAt (h : Repeats os os') (site : String) (abi : Abi) :
    Repeats (shapesAt os site abi) (shapesAt os' site abi) :=
  h.filterMap _

theorem Coherent.of_repeats (hc : Coherent os) (h : Repeats os os') : Coherent os' := by
  refine ⟨fun o ho => hc.readable o (h.mem_iff.1 ho), fun site abi => ?_⟩
  have hsub : shapesAt os' site abi ⊆ shapesAt os site abi :=
    fun _ ht => (repeats_shapesAt h site abi).mem_iff.1 ht
  exact (hc.alike site abi).subset hsub

theorem Rescan.filter_counts (h : Rescan os os') :
    Rescan (os.filter counts) (os'.filter counts) := by
  cases h with
  | again h => exact .again (h.filter _)
  | site h =>
    rw [List.filter_append, List.filter_append]
    exact .site h.filter_counts

/-- The names and their order stay. -/
theorem Rescan.keys (h : Rescan os os') : keys os' = keys os := by
  cases h with
  | again h => exact firstSeen_of_repeats key h
  | site h => exact h.keys

theorem Rescan.coherent (h : Rescan os os') (hc : Coherent (ofKey k os)) :
    Coherent (ofKey k os') := by
  cases h with
  | again h => exact hc.of_repeats (repeats_ofKey h k)
  | @site j _ _ _ _ _ h =>
    by_cases hk : k = j
    · subst hk
      exact h.coherent hc
    · rwa [h.ofKey_of_ne hk]

/-- All observations may be scanned again at the end. -/
theorem rescanned_append_self (os : List Observation) : Rescanned os (os ++ os) := by
  have key : ∀ more : List Observation, more ⊆ os → Rescanned os (os ++ more) := by
    intro more
    induction more using List.reverseRecOn with
    | nil =>
      intro _
      rw [List.append_nil]
      exact .refl
    | append_singleton more o ih =>
      intro hmore
      obtain ⟨hm, ho⟩ := List.append_subset.1 hmore
      have hseen : o ∈ os ++ more := List.mem_append_left _ (by simpa using ho)
      have hstep : Repeats (os ++ more ++ []) (os ++ more ++ [o]) := .again hseen
      rw [List.append_nil, List.append_assoc] at hstep
      exact (ih hm).tail (.again hstep)
  exact key os (List.Subset.refl os)

end Observation

/-! ### Observations of other widths -/

section OtherWidths

open Observation

variable (os : List Observation) (k : NameKey)

/-- A run passes over the observations of other widths. -/
theorem Grouping.ofObservations_filter_counts :
    ofObservations (os.filter counts) = ofObservations os := by
  rw [ofObservations, ofObservations, List.foldl_filter]
  congr 1
  funext run o
  rw [counts, observe]
  cases Abi.ofBits? o.abi <;> rfl

theorem NameGroup.ofObservations_filter_counts :
    ofObservations k (os.filter counts) = ofObservations k os := by
  rw [ofObservations, ofObservations, List.foldl_filter]
  congr 1
  funext r o
  rw [counts, take]
  cases Abi.ofBits? o.abi <;> rfl

theorem Observation.ofKey_filter_counts :
    ofKey k (os.filter counts) = (ofKey k os).filter counts := by
  simp only [ofKey, List.filter_filter, Bool.and_comm]

theorem Observation.groupOf_filter_counts : groupOf (os.filter counts) k = groupOf os k := by
  rw [groupOf, ofKey_filter_counts, NameGroup.ofObservations_filter_counts, groupOf]

/-- The groups of a run over observations of any width. -/
theorem Grouping.groups_eq :
    (ofObservations os).groups = (keys (os.filter counts)).map (groupOf os) := by
  rw [← ofObservations_filter_counts, groups_ofObservations abi_of_mem_filter_counts]
  exact List.map_congr_left fun k _ => groupOf_filter_counts os k

end OtherWidths

end Bindery
