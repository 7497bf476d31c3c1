import Bindery.Proofs.Canonical.Rescan
import Bindery.Proofs.NativeType.Order
import Bindery.Proofs.Registry.Interning

/-!
# What a run registers

A run makes instances, merges them, and interns one for each name that gets a type. It never asks
for a target. So its registry stays sound and its pooled instances are told apart; and from a new
registry it leaves `void`, `void*` and the types of its names, all printable and without a target.

* `Workbench.SoundFor` says that the registry is sound and some instances are told apart, and
  `Workbench.SoundFor.typesOf` that a run keeps it so; `Workbench.Sound` is that of the pooled
  instances alone;
* `Observation.printable_of_gives` : the type of a name is printable;
* `Workbench.registered_canonicalize` : what a run leaves of a new registry.
-/

namespace Bindery

/-! ### Instances told apart -/

namespace Workbench

variable {w : Workbench} {is : List Instance} {sofar : Option Instance} {i : Instance}

/-- The merge of a site gives one of the instances known before, or a new one. -/
theorem known_mergeSite (t : NativeType) (h : w.instances.Known (is ++ sofar.toList)) :
    (w.mergeSite sofar t).2.instances.Known (is ++ (given? (w.mergeSite sofar t).1).toList) := by
  have hmake : (w.instances.make t).2.Known (is ++ sofar.toList ++ [(w.instances.make t).1]) :=
    h.make t
  rcases w.mergeSite_cases sofar t with ⟨rfl, e⟩ | ⟨a, rfl, ⟨_, -, e⟩ | ⟨-, e⟩ | ⟨c, -, e⟩⟩ <;>
    rw [e]
  · exact hmake.subset (by simp)
  · exact hmake.subset (by simp)
  · exact hmake.subset (by simp)
  · exact (hmake.make c).subset (by simp)

theorem known_fold (name : Option TypeName) (h : w.instances.Known is) (sites : List SiteShapes) :
    (fold name w none sites).2.instances.Known
      (is ++ (given? (fold name w none sites).1).toList) :=
  fold_invariant (P := fun w sofar => w.instances.Known (is ++ sofar.toList))
    (fun h => h.subset (by simp)) (fun _ h => known_mergeSite _ h) none (by simpa using h) sites

/-- The registry is sound, and the given instances, all pooled ones among them, are told apart. -/
structure SoundFor (w : Workbench) (is : List Instance) : Prop where
  registry : w.registry.Sound
  known : w.instances.Known is
  pooled : w.registry.pool ⊆ is

/-- The merge of the sites of a name leaves the registry alone. -/
theorem SoundFor.fold (h : w.SoundFor is) (name : Option TypeName) (sites : List SiteShapes) :
    (fold name w none sites).2.SoundFor is := by
  obtain ⟨-, -, hregistry⟩ := w.fold_value name none sites
  have hknown := (known_fold name h.known sites).subset (List.subset_append_left _ _)
  constructor
  · rw [hregistry]
    exact h.registry
  · exact hknown
  · rw [hregistry]
    exact h.pooled

theorem SoundFor.adopt (h : w.SoundFor is) (hi : w.instances.Known (is ++ [i])) :
    (w.adopt i).2.SoundFor (is ++ [(w.adopt i).1]) where
  registry := (h.registry.adopt i).sound
  known := by
    rcases Registry.adopt_eq_or_mem h.registry i with e | hp
    · exact (congrArg (fun p => w.instances.Known (is ++ [p])) e).mpr hi
    · exact h.known.append_mem (h.pooled hp)
  pooled := List.Subset.trans (h.registry.adopt i).subset_append
    (List.append_subset.2 ⟨List.Subset.trans h.pooled (by simp), by simp [Workbench.adopt]⟩)

/-- **A run keeps a registry sound**, and tells its types from all instances before. -/
theorem SoundFor.typesOf (h : w.SoundFor is) (gs : List NameGroup) :
    (w.typesOf gs).2.SoundFor (is ++ (w.typesOf gs).1.types) := by
  refine typesOf_invariant (P := fun w ts => w.SoundFor (is ++ ts)) ?_ ?_ [] ?_ gs
  · exact fun g h => h.fold _ _
  · intro w ts i g _ hi h
    have hknown := known_fold g.key.name? h.known g.sites
    rw [hi] at hknown
    rw [← List.append_assoc]
    exact (h.fold _ _).adopt hknown
  · rwa [List.append_nil]

/-- The registry is sound, and its pooled instances are told apart. -/
structure Sound (w : Workbench) : Prop where
  registry : w.registry.Sound
  known : w.instances.Known w.registry.pool

theorem sound_new (overrides : Overrides) : (new overrides).Sound where
  registry := Registry.sound_new _
  known := ((Instances.known_nil .empty).make .void).make .voidPtr

theorem Sound.canonicalize (h : w.Sound) (os : List Observation) :
    (w.canonicalize os).2.Sound := by
  have hfor : w.SoundFor w.registry.pool := ⟨h.registry, h.known, List.Subset.refl _⟩
  have hrun := hfor.typesOf (Grouping.ofObservations os).groups
  exact ⟨hrun.registry, hrun.known.subset hrun.pooled⟩

end Workbench

/-! ### Printable types -/

theorem Shape.printable_foldl_overlay {t : Shape} {ts : List Shape} (ht : t.Printable)
    (hts : ∀ u ∈ ts, u.Printable) (he : ∀ u ∈ ts, t.erase = u.erase) :
    (ts.foldl overlay t).Printable := by
  induction ts generalizing t with
  | nil => exact ht
  | cons u ts ih =>
    obtain ⟨hu, hts⟩ := List.forall_mem_cons.1 hts
    obtain ⟨heu, he⟩ := List.forall_mem_cons.1 he
    exact ih (ht.overlay hu heu) hts fun v hv => by rw [erase_overlay, he v hv]

theorem Shape.printable_overlayAll {ts : List Shape} {t : Shape} (hts : ∀ u ∈ ts, u.Printable)
    (ha : Alike ts) (h : overlayAll ts = some t) : t.Printable := by
  cases ts with
  | nil => cases h
  | cons u ts =>
    cases h
    obtain ⟨hu, hts⟩ := List.forall_mem_cons.1 hts
    exact printable_foldl_overlay hu hts (alike_cons.1 ha)

namespace Observation

variable {overrides : Overrides} {name : Option TypeName} {os : List Observation}
  {site : String} {abi : Abi} {t : NativeType}

theorem printable_of_mem_shapesAt {u : Shape} (h : u ∈ shapesAt os site abi) : u.Printable := by
  obtain ⟨o, -, hu⟩ := List.mem_filterMap.1 h
  split at hu
  · cases hs : o.shape with
    | error e =>
      rw [hs] at hu
      cases hu
    | ok v =>
      rw [hs] at hu
      cases hu
      exact Shape.printable_of_decode hs
  · cases hu

theorem printable_of_shapeAt (hc : Coherent os) {u : Shape} (h : shapeAt os site abi = some u) :
    u.Printable := by
  have hseen : ∀ abi, Shape.overlayAll (shapesAt os site abi) = some u → u.Printable :=
    fun abi => Shape.printable_overlayAll (fun _ => printable_of_mem_shapesAt) (hc.alike site abi)
  cases abi with
  | bits32 => exact hseen .bits32 h
  | bits64 =>
    rcases Option.or_eq_some_iff.1 h with h | ⟨-, h⟩
    · exact hseen .bits64 h
    · exact hseen .bits32 h

theorem printable_of_mem_siteShapes (hc : Coherent os) {u : Shape} (h : u ∈ siteShapes os abi) :
    u.Printable := by
  obtain ⟨site, -, hu⟩ := List.mem_filterMap.1 h
  exact printable_of_shapeAt hc hu

/-- **The type of a name is printable**, as all encodings it comes from were read. -/
theorem printable_of_gives (ha : Agree overrides name os) (hg : Gives overrides name os t) :
    t.Printable := by
  have hshape : ∀ abi, (t.shape abi).Printable := by
    intro abi
    have hsites : ∀ u ∈ siteShapes os abi, u.Printable :=
      fun _ => printable_of_mem_siteShapes ha.toCoherent
    by_cases hl : overrides.Lists name
    · exact hsites _ (List.mem_of_head? (hg.first hl abi))
    · exact Shape.printable_overlayAll hsites (ha.across hl abi) (hg.overlay hl abi)
  exact ⟨hshape .bits32, hshape .bits64⟩

end Observation

/-! ### A new registry after a run -/

theorem Contents.mem_pool_foldl_add {c : Contents} {ts : List NativeType}
    {p : NativeType × Option Target} (h : p ∈ (ts.foldl add c).pool) :
    p ∈ c.pool ∨ p.1 ∈ ts ∧ p.2 = none := by
  induction ts generalizing c with
  | nil => exact .inl h
  | cons t ts ih =>
    rcases ih h with hp | ⟨ht, hn⟩
    · unfold add at hp
      split at hp
      · exact .inl hp
      · rcases List.mem_append.1 hp with hp | hp
        · exact .inl hp
        · obtain rfl := List.mem_singleton.1 hp
          exact .inr ⟨List.mem_cons_self, rfl⟩
    · exact .inr ⟨List.mem_cons_of_mem t ht, hn⟩

namespace Workbench

open Observation

/-- The types of a run are printable. -/
theorem printable_of_mem_types {w : Workbench} {os : List Observation} {i : Instance}
    (hi : i ∈ (w.canonicalize os).1.types) : i.type.Printable := by
  rw [← canonicalize_filter_counts] at hi
  have ht : i.type ∈ (w.canonicalize (os.filter counts)).1.types.map Instance.type :=
    List.mem_map_of_mem hi
  rw [types_canonicalize w abi_of_mem_filter_counts] at ht
  obtain ⟨k, hk, ht⟩ := List.mem_filterMap.1 ht
  obtain ⟨ha, hg⟩ := (type?_groupOf_iff abi_of_mem_filter_counts hk).1 ht
  exact printable_of_gives ha hg

/-- **What a run leaves of a new registry.** The workbench is sound, and each pooled instance has a
printable type and no target. -/
theorem registered_canonicalize (overrides : Overrides) (os : List Observation) :
    let w := ((new overrides).canonicalize os).2
    w.Sound ∧ ∀ i ∈ w.registry.pool, i.type.Printable ∧ w.instances.target? i = none := by
  intro w
  refine ⟨(sound_new overrides).canonicalize os, fun i hi => ?_⟩
  have hcontents : (i.type, w.instances.target? i) ∈ w.contents.pool :=
    List.mem_map_of_mem (f := fun i => (i.type, w.instances.target? i)) hi
  rw [show w.contents = _ from contents_canonicalize (new overrides) os] at hcontents
  rcases Contents.mem_pool_foldl_add hcontents with h | ⟨h, hn⟩
  · have hstart : (new overrides).contents.pool = [(.void, none), (.voidPtr, none)] := rfl
    rw [hstart] at h
    rcases List.mem_pair.1 h with h | h
    · obtain ⟨ht, hn⟩ := Prod.mk.inj h
      exact ⟨ht ▸ ⟨trivial, trivial⟩, hn⟩
    · obtain ⟨ht, hn⟩ := Prod.mk.inj h
      exact ⟨ht ▸ ⟨trivial, trivial⟩, hn⟩
  · obtain ⟨j, hj, hji⟩ := List.mem_map.1 h
    have ht : j.type = i.type := hji
    exact ⟨ht ▸ printable_of_mem_types hj, hn⟩

end Workbench

end Bindery
