import Bindery.Proofs.Canonical.Agreement
import Bindery.Proofs.Observation.Rescan

/-!
# Scanning the same declarations again

A run without errors stays as it is when declarations are scanned again: it has no errors, gives the
same types in the same order, and leaves the same registry behind.

* `Observation.Rescan.echoes_siteShapes` : the shapes that a name has at its sites were absorbed
  when they come again;
* `Observation.Agree.of_rescan`, `Observation.Gives.of_rescan` : so declarations that agree still
  do, and give the same type;
* `Workbench.contents` is what a registry holds, by value, and `Workbench.contents_typesOf` what a
  run makes of it;
* `Workbench.canonicalize_rescanned` : nothing changes.
-/

namespace Bindery

namespace Observation

variable {overrides : Overrides} {name : Option TypeName} {os os' : List Observation} {k : NameKey}
  {t u : NativeType}

/-! ### The sites of a name -/

theorem shapeAt_congr {site site' : String}
    (h : ∀ abi, Shape.overlayAll (shapesAt os' site' abi) =
      Shape.overlayAll (shapesAt os site abi)) (abi : Abi) :
    shapeAt os' site' abi = shapeAt os site abi := by
  cases abi with
  | bits32 => exact h .bits32
  | bits64 => rw [shapeAt, shapeAt, h .bits64, h .bits32]

theorem siteShapes_of_repeats (h : Repeats os os') (hc : Coherent os) (abi : Abi) :
    siteShapes os' abi = siteShapes os abi := by
  have hsites : sites os' = sites os := firstSeen_of_repeats site h
  rw [siteShapes, siteShapes, hsites]
  refine List.filterMap_congr fun site _ => ?_
  refine shapeAt_congr (fun abi => ?_) abi
  have hechoes := Shape.echoes_of_repeats (repeats_shapesAt h site abi)
  exact Shape.overlayAll_of_echoes hechoes (hc.alike site abi)

namespace NewSite

variable {old new : String} {pre post mixed : List Observation}

/-- The shape of the old site absorbs that of the new one. -/
theorem absorbs_shapeAt (h : NewSite k old new pre post mixed)
    (hc : Coherent (ofKey k (pre ++ post))) (abi : Abi) :
    Option.Rel Shape.Absorbs (shapeAt (ofKey k (pre ++ post)) old abi)
      (shapeAt (ofKey k (pre ++ mixed)) new abi) := by
  have hseen : ∀ abi, Option.Rel Shape.Absorbs
      (Shape.overlayAll (shapesAt (ofKey k (pre ++ post)) old abi))
      (Shape.overlayAll (shapesAt (ofKey k (pre ++ mixed)) new abi)) :=
    fun abi => Shape.overlayAll_absorbs (hc.alike old abi) (h.mem_shapesAt_new abi)
  have orElse : ∀ {a b a' b' : Option Shape}, Option.Rel Shape.Absorbs a a' →
      Option.Rel Shape.Absorbs b b' → Option.Rel Shape.Absorbs (a.or b) (a'.or b') := by
    intro a b a' b' ha hb
    cases ha with
    | none => exact hb
    | some ha => exact .some ha
  cases abi with
  | bits32 => exact hseen .bits32
  | bits64 => exact orElse (hseen .bits64) (hseen .bits32)

theorem echoes_siteShapes (h : NewSite k old new pre post mixed)
    (hc : Coherent (ofKey k (pre ++ post))) (abi : Abi) :
    Shape.Echoes (siteShapes (ofKey k (pre ++ post)) abi)
      (siteShapes (ofKey k (pre ++ mixed)) abi) := by
  obtain ⟨before, behind, hold, hnew, hsites, hsites'⟩ := h.sites
  have others : ∀ ss ⊆ before ++ behind,
      ss.filterMap (fun site => shapeAt (ofKey k (pre ++ mixed)) site abi) =
        ss.filterMap fun site => shapeAt (ofKey k (pre ++ post)) site abi := by
    intro ss hss
    refine List.filterMap_congr fun site hs => ?_
    have hne : site ≠ new := fun e => hnew (e ▸ hss hs)
    exact shapeAt_congr (fun abi => by rw [h.shapesAt_of_ne hne]) abi
  rw [siteShapes, siteShapes, hsites, hsites', List.filterMap_append, List.filterMap_append,
    List.filterMap_cons, others before (List.subset_append_left _ _),
    others behind (List.subset_append_right _ _)]
  -- the shape of the old site stands before that of the new one
  generalize hb : shapeAt (ofKey k (pre ++ mixed)) new abi = b
  generalize ha : shapeAt (ofKey k (pre ++ post)) old abi = a
  have hab := h.absorbs_shapeAt hc abi
  rw [ha, hb] at hab
  cases hab with
  | none => exact .refl _
  | some hab => exact .more (List.mem_filterMap.2 ⟨old, hold, ha⟩) hab

end NewSite

/-- The shapes of the sites of a name were absorbed when they come again. -/
theorem Rescan.echoes_siteShapes (h : Rescan os os') (hc : Coherent (ofKey k os)) (abi : Abi) :
    Shape.Echoes (siteShapes (ofKey k os) abi) (siteShapes (ofKey k os') abi) := by
  cases h with
  | again h =>
    rw [siteShapes_of_repeats (repeats_ofKey h k) hc]
    exact .refl _
  | @site j _ _ _ _ _ h =>
    by_cases hk : k = j
    · subst hk
      exact h.echoes_siteShapes hc abi
    · rw [h.ofKey_of_ne hk]
      exact .refl _

theorem Rescan.has32 (h : Rescan os os')
    (h32 : ∀ site ∈ sites (ofKey k os), shapesAt (ofKey k os) site .bits32 ≠ []) :
    ∀ site ∈ sites (ofKey k os'), shapesAt (ofKey k os') site .bits32 ≠ [] := by
  intro site hs
  cases h with
  | again h =>
    have hk := repeats_ofKey h k
    have hsites : sites (ofKey k os') = sites (ofKey k os) := firstSeen_of_repeats _ hk
    obtain ⟨t, ht⟩ := List.exists_mem_of_ne_nil _ (h32 site (hsites ▸ hs))
    exact List.ne_nil_of_mem ((repeats_shapesAt hk site .bits32).mem_iff.2 ht)
  | @site j old new _ _ _ h =>
    by_cases hk : k = j
    · subst hk
      obtain ⟨before, behind, hold, hnew, hsites, hsites'⟩ := h.sites
      rw [hsites] at h32
      by_cases hn : site = new
      · obtain ⟨t, ht⟩ := List.exists_mem_of_ne_nil _ (h32 old (List.mem_append_left _ hold))
        rw [hn]
        exact List.ne_nil_of_mem ((h.mem_shapesAt_new .bits32 t).2 ht)
      · rw [h.shapesAt_of_ne hn]
        rw [hsites', List.mem_append, List.mem_cons] at hs
        exact h32 site (List.mem_append.2 (hs.imp_right fun e => e.resolve_left hn))
    · rw [h.ofKey_of_ne hk] at hs ⊢
      exact h32 site hs

/-! ### The type of a name -/

/-- Declarations that agree still do when they are scanned again. -/
theorem Agree.of_rescan (ha : Agree overrides name (ofKey k os)) (h : Rescan os os') :
    Agree overrides name (ofKey k os') where
  toCoherent := h.coherent ha.toCoherent
  has32 := h.has32 ha.has32
  across := fun hl abi => (ha.across hl abi).of_echoes (h.echoes_siteShapes ha.toCoherent abi)

/-- Declarations that are scanned again give the type that they gave. -/
theorem Gives.of_rescan (hg : Gives overrides name (ofKey k os) t)
    (ha : Agree overrides name (ofKey k os)) (h : Rescan os os') :
    Gives overrides name (ofKey k os') t where
  name_eq := hg.name_eq
  overlay := fun hl abi => by
    rw [Shape.overlayAll_of_echoes (h.echoes_siteShapes ha.toCoherent abi) (ha.across hl abi)]
    exact hg.overlay hl abi
  first := fun hl abi => by
    rw [(h.echoes_siteShapes ha.toCoherent abi).head?]
    exact hg.first hl abi

/-- Declarations give one type. -/
theorem Gives.unique (ht : Gives overrides name os t) (hu : Gives overrides name os u) : t = u := by
  have hshape : ∀ abi, t.shape abi = u.shape abi := by
    intro abi
    by_cases hl : overrides.Lists name
    · exact Option.some.inj ((ht.first hl abi).symm.trans (hu.first hl abi))
    · exact Option.some.inj ((ht.overlay hl abi).symm.trans (hu.overlay hl abi))
  have hname : t.name = u.name := ht.name_eq.trans hu.name_eq.symm
  cases t
  cases u
  exact (NativeType.mk.injEq ..).mpr ⟨hname, hshape .bits32, hshape .bits64⟩

end Observation

/-! ### What a registry holds -/

/-- The types in both stores of a registry, and the targets settled for those in its pool. -/
structure Contents where
  index : List NativeType
  pool : List (NativeType × Option Target)
deriving DecidableEq

/-- The contents after a type was interned that no target is settled for. -/
def Contents.add (c : Contents) (t : NativeType) : Contents :=
  if t ∈ c.index then c else ⟨t :: c.index, c.pool ++ [(t, none)]⟩

namespace Workbench

open Observation

variable {w : Workbench}

/-- What the registry of a workbench holds, by value. -/
def contents (w : Workbench) : Contents where
  index := w.registry.index.entries.map Instance.type
  pool := w.registry.pool.map fun i => (i.type, w.instances.target? i)

theorem contents_adopt {i : Instance} (hi : w.instances.target? i = none) :
    (w.adopt i).2.contents = w.contents.add i.type := by
  have hmem : i.type ∈ w.contents.index ↔ w.registry.find? i.type ≠ none := by
    rw [ne_eq, Registry.find?, TypeIndex.get?_eq_none_iff]
    simp [contents]
  unfold Contents.add
  cases hf : w.registry.find? i.type with
  | some p =>
    rw [if_pos (hmem.2 (by simp [hf]))]
    simp only [adopt, Registry.adopt, hf]
  | none =>
    rw [if_neg (mt hmem.1 (by simp [hf]))]
    have hindex := w.registry.index.entries_insert hf
    simp only [adopt, Registry.adopt, hf, contents, Registry.push, hindex, List.map_cons,
      List.map_append, List.map_nil, hi]

/-- The merge of a site settles no target, and what it gives has none if what there was had none. -/
theorem targets_mergeSite (w : Workbench) {sofar : Option Instance} (t : NativeType)
    (hs : ∀ i ∈ sofar, w.instances.target? i = none) :
    (∀ j, (w.mergeSite sofar t).2.instances.target? j = w.instances.target? j) ∧
      ∀ i ∈ given? (w.mergeSite sofar t).1, w.instances.target? i = none := by
  have hmake := w.instances.target?_make t
  have hnew : w.instances.target? (w.instances.make t).1 = none := by
    rw [← hmake, Instances.target?_make_self]
  rcases w.mergeSite_cases sofar t with ⟨rfl, e⟩ | ⟨a, rfl, ⟨_, -, e⟩ | ⟨-, e⟩ | ⟨c, -, e⟩⟩ <;>
    rw [e]
  · exact ⟨hmake, by simpa using hnew⟩
  · exact ⟨hmake, by simp⟩
  · exact ⟨hmake, hs⟩
  · have hmake' := (w.instances.make t).2.target?_make c
    refine ⟨fun j => (hmake' j).trans (hmake j), ?_⟩
    rintro i ⟨⟩
    rw [← hmake, ← hmake', Instances.target?_make_self]

/-- The merge of the sites of a name settles no target, and gives a type that has none. -/
theorem targets_fold (name : Option TypeName) (w : Workbench) (sites : List SiteShapes) :
    (∀ j, (fold name w none sites).2.instances.target? j = w.instances.target? j) ∧
      ∀ i ∈ given? (fold name w none sites).1, w.instances.target? i = none := by
  refine fold_invariant (P := fun v sofar =>
    (∀ j, v.instances.target? j = w.instances.target? j) ∧
      ∀ i ∈ sofar, w.instances.target? i = none) ?_ ?_ none ⟨fun _ => rfl, by simp⟩ sites
  · exact fun h => ⟨h.1, by simp⟩
  · rintro v sofar s t - ⟨hkeep, hnone⟩
    obtain ⟨hkeep', hnone'⟩ := v.targets_mergeSite t fun i hi => (hkeep i).trans (hnone i hi)
    exact ⟨fun j => (hkeep' j).trans (hkeep j), fun i hi => (hkeep i).symm.trans (hnone' i hi)⟩

/-- The merge of the sites of a name changes nothing in the registry. -/
theorem contents_fold (name : Option TypeName) (w : Workbench) (sites : List SiteShapes) :
    (fold name w none sites).2.contents = w.contents := by
  obtain ⟨-, -, hregistry⟩ := w.fold_value name none sites
  obtain ⟨htargets, -⟩ := targets_fold name w sites
  simp only [contents, hregistry, htargets]

/-- A run adds its types to the registry. -/
theorem contents_typesOf (w : Workbench) (gs : List NameGroup) :
    (w.typesOf gs).2.contents =
      ((w.typesOf gs).1.types.map Instance.type).foldl Contents.add w.contents := by
  refine typesOf_invariant (P := fun v ts =>
    v.contents = (ts.map Instance.type).foldl Contents.add w.contents) ?_ ?_ [] rfl gs
  · intro v ts g h
    rw [contents_fold, h]
  · intro v ts i g _ hi h
    obtain ⟨htargets, hnone⟩ := targets_fold g.key.name? v g.sites
    rw [hi] at hnone
    rw [contents_adopt ((htargets i).trans (hnone i rfl)), contents_fold, h, List.map_append,
      List.foldl_append]
    exact congrArg _ (Registry.type_of_adopt _ i).symm

theorem contents_canonicalize (w : Workbench) (os : List Observation) :
    (w.canonicalize os).2.contents =
      ((w.canonicalize os).1.types.map Instance.type).foldl Contents.add w.contents :=
  w.contents_typesOf _

/-! ### The run -/

variable {os os' : List Observation} {overrides : Overrides} {k : NameKey} {t : NativeType}

/-- Observations of other widths may be left out. -/
theorem canonicalize_filter_counts (w : Workbench) (os : List Observation) :
    w.canonicalize (os.filter counts) = w.canonicalize os := by
  rw [canonicalize, canonicalize, Grouping.ofObservations_filter_counts]

theorem type?_groupOf_iff (h : ∀ o ∈ os, o.abi = 32 ∨ o.abi = 64) (hk : k ∈ keys os) :
    (groupOf os k).type? overrides = some t ↔
      Agree overrides k.name? (ofKey k os) ∧ Gives overrides k.name? (ofKey k os) t := by
  rw [type?_groupOf h]
  constructor
  · rintro ⟨hc, ht⟩
    obtain ⟨h32, hacross, hg⟩ := gives_of_foldTypes ht
    exact ⟨⟨hc, h32, hacross⟩, hg⟩
  · rintro ⟨ha, hg⟩
    obtain ⟨u, hu⟩ := exists_foldTypes (ofKey_ne_nil hk) ha
    rw [hg.unique (gives_of_foldTypes hu).2.2]
    exact ⟨ha.toCoherent, hu⟩

theorem types_canonicalize (w : Workbench) (h : ∀ o ∈ os, o.abi = 32 ∨ o.abi = 64) :
    (w.canonicalize os).1.types.map Instance.type =
      (keys os).filterMap fun k => (groupOf os k).type? w.merger.overrides := by
  rw [(w.canonicalize_value h).1, List.filterMap_eq_flatMap_toList]
  simp only [NameGroup.outcome_eq_toList]

/-- A run has no errors when all its names get a type. -/
theorem errors_eq_nil_iff (w : Workbench) (h : ∀ o ∈ os, o.abi = 32 ∨ o.abi = 64) :
    (w.canonicalize os).1.errors = [] ↔
      ∀ k ∈ keys os, ∃ t, (groupOf os k).type? w.merger.overrides = some t := by
  have hperm := (w.canonicalize_value h).2
  have hnil : (w.canonicalize os).1.errors = [] ↔
      ((keys os).flatMap fun k =>
        errorsOf os k ++ ((groupOf os k).outcome w.merger.overrides).2) = [] :=
    ⟨fun e => (e ▸ hperm).nil_eq.symm, fun e => (e ▸ hperm).eq_nil⟩
  rw [hnil, List.flatMap_eq_nil_iff]
  refine forall₂_congr fun k hk => ?_
  rw [NameGroup.type?]
  rcases outcome_groupOf w.merger.overrides h hk with ⟨t, h1, h2⟩ | ⟨h1, h2⟩
  · simp [h1, h2]
  · simp [h1, h2]

/-- One declaration or one site more. -/
theorem canonicalize_rescan (w : Workbench) (hr : Rescan os os')
    (h : ∀ o ∈ os, o.abi = 32 ∨ o.abi = 64) (h' : ∀ o ∈ os', o.abi = 32 ∨ o.abi = 64)
    (hok : (w.canonicalize os).1.errors = []) :
    (w.canonicalize os').1.errors = [] ∧
      (w.canonicalize os').1.types.map Instance.type =
        (w.canonicalize os).1.types.map Instance.type := by
  rw [errors_eq_nil_iff w h] at hok
  have same : ∀ k ∈ keys os, (groupOf os' k).type? w.merger.overrides =
      (groupOf os k).type? w.merger.overrides := by
    intro k hk
    obtain ⟨t, ht⟩ := hok k hk
    obtain ⟨ha, hg⟩ := (type?_groupOf_iff h hk).1 ht
    rw [ht, type?_groupOf_iff h' (hr.keys ▸ hk)]
    exact ⟨ha.of_rescan hr, hg.of_rescan ha hr⟩
  constructor
  · rw [errors_eq_nil_iff w h', hr.keys]
    intro k hk
    rw [same k hk]
    exact hok k hk
  · rw [types_canonicalize w h, types_canonicalize w h', hr.keys]
    exact List.filterMap_congr same

/-- **Scanning the same declarations again changes nothing.** When a run has no errors and some of
its declarations or sites are scanned again, there are still no errors, the types are the same in
the same order, and so is what the registry holds. -/
theorem canonicalize_rescanned (w : Workbench) {os os' : List Observation}
    (h : Rescanned os os') (hok : (w.canonicalize os).1.errors = []) :
    (w.canonicalize os').1.errors = [] ∧
      (w.canonicalize os').1.types.map Instance.type =
        (w.canonicalize os).1.types.map Instance.type ∧
      (w.canonicalize os').2.contents = (w.canonicalize os).2.contents := by
  have counted : ∀ (os : List Observation), ∀ o ∈ os.filter counts, o.abi = 32 ∨ o.abi = 64 :=
    fun os o ho => counts_iff.1 (List.mem_filter.1 ho).2
  have values : (w.canonicalize os').1.errors = [] ∧
      (w.canonicalize os').1.types.map Instance.type =
        (w.canonicalize os).1.types.map Instance.type := by
    induction h with
    | refl => exact ⟨hok, rfl⟩
    | @tail mid last _ hstep ih =>
      obtain ⟨hmid, htypes⟩ := ih
      rw [← w.canonicalize_filter_counts mid] at hmid htypes
      have hlast := w.canonicalize_rescan hstep.filter_counts (counted mid) (counted last) hmid
      rw [w.canonicalize_filter_counts last] at hlast
      exact ⟨hlast.1, hlast.2.trans htypes⟩
  refine ⟨values.1, values.2, ?_⟩
  -- the contents depend on the types alone
  have hcontents : ∀ os, (w.canonicalize os).2.contents =
      ((w.canonicalize os).1.types.map Instance.type).foldl Contents.add w.contents :=
    fun os => w.contents_typesOf _
  rw [hcontents, hcontents, values.2]

/-- Two sites that agree but for a tag. The first comes again, and then the second under another
path, with its shapes in another order. -/
theorem canonicalize_rescanned_rect :
    let os : List Observation :=
      [⟨some "Rect", "a.h:1", 32, "{?=i}"⟩, ⟨some "Rect", "b.h:7", 32, "{r=i}"⟩,
        ⟨some "Rect", "b.h:7", 64, "{r=i}"⟩]
    let os' : List Observation :=
      [⟨some "Rect", "a.h:1", 32, "{?=i}"⟩, ⟨some "Rect", "a.h:1", 32, "{?=i}"⟩,
        ⟨some "Rect", "b.h:7", 32, "{r=i}"⟩, ⟨some "Rect", "b.h:7", 64, "{r=i}"⟩,
        ⟨some " Rect", "c.h:7", 64, "{r=i}"⟩, ⟨some " Rect", "c.h:7", 32, "{r=i}"⟩]
    let rect := NativeType.make (some (.ofDeclared "Rect"))
      (.composite .struct (some "r") (.cons none (.primitive .int) .nil)) none
    let w := Workbench.new ⟨[]⟩
    Rescanned os os' ∧ (w.canonicalize os).1.errors = [] ∧
      (w.canonicalize os').1.errors = [] ∧
      (w.canonicalize os').1.types.map Instance.type = [rect] ∧
      (w.canonicalize os').2.contents =
        ⟨[rect, .voidPtr, .void], [(.void, none), (.voidPtr, none), (rect, none)]⟩ := by
  intro os os' rect w
  have first : Repeats (os.take 1 ++ os.drop 1) (os'.take 1 ++ os'[1] :: os.drop 1) :=
    .again (by decide)
  have copied : NewSite (.named (.ofDeclared "Rect")) "b.h:7" "c.h:7" (os'.take 4) []
      (os'.drop 4) := ⟨by decide, by decide, by decide, fun _ => List.Perm.mem_iff (by decide)⟩
  have second : Rescan (os'.take 4 ++ []) (os'.take 4 ++ os'.drop 4) := .site copied
  have h : Rescanned os os' := .tail (.single (.again first)) second
  have hok : (w.canonicalize os).1.errors = [] := by decide +kernel
  have htypes : (w.canonicalize os).1.types.map Instance.type = [rect] := by decide +kernel
  have hcontents : (w.canonicalize os).2.contents =
      ⟨[rect, .voidPtr, .void], [(.void, none), (.voidPtr, none), (rect, none)]⟩ := by
    decide +kernel
  obtain ⟨hok', htypes', hcontents'⟩ := canonicalize_rescanned w h hok
  exact ⟨h, hok, hok', htypes'.trans htypes, hcontents'.trans hcontents⟩

end Workbench

end Bindery
