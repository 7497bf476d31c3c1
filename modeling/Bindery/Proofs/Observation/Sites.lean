import Bindery.Proofs.Observation.ByName
import Bindery.Proofs.Shape.Slot

/-!
# The sites of a name

Which shapes does a name have at its sites, and when has it failed? The observations of the name
answer both without a run.

* `Observation.sites` lists the sites in first-seen order, and `Observation.shapesAt` the shapes
  read at one of them on one binary interface;
* `Observation.Coherent` says that all encodings can be read and that the shapes of each site and
  interface are alike;
* `Observation.group_of_coherent` : a name fails exactly when its observations are not coherent, and
  otherwise it has the overlay of the shapes at each site.
-/

namespace Bindery

namespace Observation

/-- The sites of some observations in first-seen order. -/
def sites (os : List Observation) : List String := firstSeen site os

/-- The shapes that are read at a site on one binary interface, in order. -/
def shapesAt (os : List Observation) (site : String) (abi : Abi) : List Shape :=
  os.filterMap fun o => if o.site = site ∧ o.abi = abi.bits then o.shape.toOption else none

/-- All encodings can be read, and the shapes of each site and binary interface are alike. -/
structure Coherent (os : List Observation) : Prop where
  readable : ∀ o ∈ os, ∃ t, o.shape = .ok t
  alike : ∀ site abi, Shape.Alike (shapesAt os site abi)

/-- A site with the overlay of the shapes seen there. -/
def overlaid (os : List Observation) (site : String) : SiteShapes :=
  ⟨site, Shape.overlayAll (shapesAt os site .bits32), Shape.overlayAll (shapesAt os site .bits64)⟩

variable {os : List Observation} {o : Observation} {abi : Abi} {t : Shape}

theorem slot_overlaid (os : List Observation) (site : String) (abi : Abi) :
    (overlaid os site).slot abi = Shape.overlayAll (shapesAt os site abi) := by
  cases abi <;> rfl

theorem sites_ne_nil (h : os ≠ []) : sites os ≠ [] := by
  obtain ⟨o, os, rfl⟩ := List.exists_cons_of_ne_nil h
  exact List.ne_nil_of_mem ((mem_firstSeen site).2 ⟨o, by simp, rfl⟩)

theorem shapesAt_of_not_mem {site : String} (h : site ∉ sites os) (abi : Abi) :
    shapesAt os site abi = [] := by
  rw [sites, mem_firstSeen] at h
  rw [shapesAt, List.filterMap_eq_nil_iff]
  exact fun o ho => if_neg fun e => h ⟨o, ho, e.1⟩

theorem overlaid_of_not_mem {site : String} (h : site ∉ sites os) :
    overlaid os site = .new site := by
  rw [overlaid, shapesAt_of_not_mem h, shapesAt_of_not_mem h]
  rfl

theorem shapesAt_append (os : List Observation) (o : Observation) (site : String) (abi : Abi) :
    shapesAt (os ++ [o]) site abi =
      shapesAt os site abi ++
        (if o.site = site ∧ o.abi = abi.bits then o.shape.toOption else none).toList := by
  rw [shapesAt, List.filterMap_append, List.filterMap_cons, List.filterMap_nil, shapesAt]
  split <;> simp [*]

theorem shapesAt_append_singleton (ha : o.abi = abi.bits) (ht : o.shape = .ok t) (site : String)
    (other : Abi) :
    shapesAt (os ++ [o]) site other =
      if site = o.site ∧ other = abi then shapesAt os site other ++ [t]
      else shapesAt os site other := by
  have hbits : o.abi = other.bits ↔ other = abi := by
    rw [ha]
    cases abi <;> cases other <;> simp [Abi.bits]
  rw [shapesAt_append]
  simp only [hbits, eq_comm (a := o.site)]
  split_ifs <;> simp [ht, Except.toOption]

theorem Coherent.of_append_singleton (h : Coherent (os ++ [o])) : Coherent os := by
  refine ⟨fun p hp => h.readable p (by simp [hp]), fun site abi a ha b hb => ?_⟩
  have sub : shapesAt os site abi ⊆ shapesAt (os ++ [o]) site abi := by
    intro x hx
    rw [shapesAt, List.filterMap_append]
    exact List.mem_append_left _ hx
  exact h.alike site abi a (sub ha) b (sub hb)

theorem coherent_append_singleton (ha : o.abi = abi.bits) (ht : o.shape = .ok t)
    (h : Coherent os) :
    Coherent (os ++ [o]) ↔ Shape.Alike (shapesAt os o.site abi ++ [t]) := by
  have hs : ∀ site other, shapesAt (os ++ [o]) site other = _ :=
    fun site other => shapesAt_append_singleton ha ht site other
  constructor
  · intro hc
    have := hc.alike o.site abi
    rwa [hs, if_pos ⟨rfl, rfl⟩] at this
  · intro hl
    refine ⟨fun p hp => ?_, fun site other => ?_⟩
    · rcases List.mem_append.1 hp with hp | hp
      · exact h.readable p hp
      · exact ⟨t, by rwa [List.mem_singleton.1 hp]⟩
    · rw [hs]
      split_ifs with he
      · rw [he.1, he.2]
        exact hl
      · exact h.alike site other

end Observation

namespace SiteShapes

open Observation

variable {os : List Observation} {t : Shape}

theorem add_eq (s : SiteShapes) (abi : Abi) (t : Shape) :
    s.add abi t =
      (s.setSlot abi (Shape.takeIn (s.slot abi) t).1, (Shape.takeIn (s.slot abi) t).2) := by
  unfold add
  cases s.slot abi with
  | none => rfl
  | some u => cases h : u.merge t <;> simp [Shape.takeIn, h]

/-- A shape alike to those before it is overlaid on them. -/
theorem add_of_alike {site : String} {abi : Abi}
    (h : Shape.Alike (shapesAt os site abi ++ [t])) :
    (overlaid os site).add abi t =
      ((overlaid os site).setSlot abi (Shape.overlayAll (shapesAt os site abi ++ [t])), none) := by
  rw [add_eq, slot_overlaid, Shape.takeIn_of_head (Shape.alike_append_singleton.1 h).2]

/-- A shape that is not alike to those before it is reported. -/
theorem add_of_not_alike {site : String} {abi : Abi} (hl : Shape.Alike (shapesAt os site abi))
    (h : ¬ Shape.Alike (shapesAt os site abi ++ [t])) :
    ∃ e, ((overlaid os site).add abi t).2 = some e := by
  have hhead : ∃ u ∈ (shapesAt os site abi).head?, u.erase ≠ t.erase := by
    by_contra hall
    exact h (Shape.alike_append_singleton.2 ⟨hl, by simpa using hall⟩)
  obtain ⟨_, e, -, -, htake⟩ := Shape.takeIn_of_not_head hhead
  rw [add_eq, slot_overlaid, htake]
  exact ⟨e, rfl⟩

end SiteShapes

namespace Observation

variable {os : List Observation} {o : Observation} {abi : Abi} {t : Shape}

theorem overlaid_append_singleton (ha : o.abi = abi.bits) (ht : o.shape = .ok t) (site : String) :
    overlaid (os ++ [o]) site =
      if site = o.site then
        (overlaid os o.site).setSlot abi (Shape.overlayAll (shapesAt os o.site abi ++ [t]))
      else overlaid os site := by
  simp only [overlaid, shapesAt_append_singleton ha ht]
  by_cases hs : site = o.site
  · subst hs
    cases abi <;> simp [SiteShapes.setSlot]
  · simp [hs]

theorem addAt_overlaid (os : List Observation) (site : String) (abi : Abi) (t : Shape) :
    SiteShapes.addAt site abi t ((sites os).map (overlaid os)) =
      ((if site ∈ sites os then sites os else sites os ++ [site]).map fun s =>
          if s = site then ((overlaid os site).add abi t).1 else overlaid os s,
        ((overlaid os site).add abi t).2) :=
  updateAt_map (fun _ => rfl) (nodup_firstSeen _ os) overlaid_of_not_mem

/-- **When a name fails, and what it has if not.** -/
theorem group_of_coherent (k : NameKey) (h : ∀ o ∈ os, o.abi = 32 ∨ o.abi = 64) :
    (Coherent os →
        (NameGroup.ofObservations k os).1 = ⟨k, (sites os).map (overlaid os), false⟩) ∧
      (¬ Coherent os → (NameGroup.ofObservations k os).1.failed = true) := by
  induction os using List.reverseRecOn with
  | nil =>
    refine ⟨fun _ => rfl, fun hn => absurd ⟨by simp, fun _ _ => ?_⟩ hn⟩
    simp [shapesAt, Shape.Alike]
  | append_singleton os o ih =>
    obtain ⟨ihc, ihn⟩ := ih fun p hp => h p (by simp [hp])
    obtain ⟨abi, ha⟩ := exists_abi (h o (by simp))
    rw [NameGroup.ofObservations_append_singleton, NameGroup.take_of_abi ha]
    by_cases hc : Coherent os
    · rw [ihc hc, NameGroup.observe]
      cases ht : o.shape with
      | error e =>
        have hn : ¬ Coherent (os ++ [o]) := by
          intro hc'
          obtain ⟨t, h'⟩ := hc'.readable o (by simp)
          rw [ht] at h'
          cases h'
        exact ⟨fun hc' => absurd hc' hn, fun _ => rfl⟩
      | ok t =>
        -- all depends on whether the new shape is alike to those at its site
        rw [coherent_append_singleton ha ht hc]
        simp only [addAt_overlaid]
        refine ⟨fun hl => ?_, fun hl => ?_⟩
        · have hsites : sites (os ++ [o]) =
              if o.site ∈ sites os then sites os else sites os ++ [o.site] :=
            firstSeen_append_singleton site os o
          simp only [SiteShapes.add_of_alike hl, hsites, NameGroup.mk.injEq, and_true, true_and]
          exact List.map_congr_left fun s _ => (overlaid_append_singleton ha ht s).symm
        · obtain ⟨e, he⟩ := SiteShapes.add_of_not_alike (hc.alike o.site abi) hl
          simp only [he]
    · -- a name that has failed stays so
      refine ⟨fun hc' => absurd hc'.of_append_singleton hc, fun _ => ?_⟩
      rw [NameGroup.failed_observe, ihn hc, Bool.true_or]

end Observation

end Bindery
