import Bindery.Canonical
import Bindery.Proofs.Observation.Sites

/-!
# Conflicts at one site

What a name has at a site on one binary interface is its slot. A shape that comes there is merged
with what the slot holds, or reported if that cannot be done. The slot does not stay as it was then:
it is empty, and the next shape is taken in whatever it is. So a shape is not compared with the
first one of its slot, but with the first one since the last conflict.

* `Grouping.slot?` is what a run has in a slot; `Grouping.slot?_observe` says what one observation
  does to it, and `Grouping.slot?_ofObservations` what it holds after all of them: the overlay of
  the shapes since the last conflict;
* `Workbench.conflicts_at_site` : which observations are reported, and what the slot holds then;
* `Workbench.conflict_not_reported` : an observation that differs from the first one of its slot
  need not be.
-/

namespace Bindery

/-! ### Entries of keyed lists -/

section Entries

variable {α κ ρ : Type} [DecidableEq κ] {key : α → κ} {fresh : κ → α} {update : α → α × ρ}

/-- The first entry with the key `k`, or a fresh one. -/
def entryAt (key : α → κ) (fresh : κ → α) (k : κ) (xs : List α) : α :=
  (xs.find? fun a => key a = k).getD (fresh k)

theorem key_entryAt (hfresh : ∀ j, key (fresh j) = j) (k : κ) (xs : List α) :
    key (entryAt key fresh k xs) = k := by
  rw [entryAt]
  cases h : xs.find? fun a => key a = k with
  | none => exact hfresh k
  | some a => simpa using List.find?_some h

theorem entryAt_cons (k : κ) (a : α) (xs : List α) :
    entryAt key fresh k (a :: xs) = if key a = k then a else entryAt key fresh k xs := by
  by_cases h : key a = k <;> simp [entryAt, h]

/-- An update changes the entry with its key and no other, and reports what that entry does. -/
theorem updateAt_entryAt (hfresh : ∀ j, key (fresh j) = j) (hkey : ∀ a, key (update a).1 = key a)
    (k : κ) (xs : List α) :
    (updateAt key fresh update k xs).2 = (update (entryAt key fresh k xs)).2 ∧
      ∀ j, entryAt key fresh j (updateAt key fresh update k xs).1 =
        if j = k then (update (entryAt key fresh k xs)).1 else entryAt key fresh j xs := by
  induction xs with
  | nil =>
    refine ⟨rfl, fun j => ?_⟩
    have hupdate : key (update (fresh k)).1 = k := (hkey _).trans (hfresh k)
    simp only [updateAt, entryAt_cons, hupdate, eq_comm (a := k)]
    rfl
  | cons a rest ih =>
    obtain ⟨hreport, hentry⟩ := ih
    by_cases ha : key a = k
    · have hupdate : key (update a).1 = k := (hkey a).trans ha
      simp only [updateAt, entryAt_cons, ha, hupdate, ↓reduceIte, true_and]
      intro j
      by_cases hj : k = j
      · simp [hj]
      · simp [hj, Ne.symm hj]
    · simp only [updateAt, entryAt_cons, ha, ↓reduceIte]
      refine ⟨hreport, fun j => ?_⟩
      rw [hentry]
      by_cases hj : j = k
      · simp [hj, ha]
      · simp [hj]

end Entries

/-! ### The slots of a run -/

namespace SiteShapes

/-- What some sites have at one of them on one binary interface. -/
def slotAt (sites : List SiteShapes) (site : String) (abi : Abi) : Option Shape :=
  (entryAt SiteShapes.site new site sites).slot abi

theorem slotAt_addAt (sites : List SiteShapes) (site : String) (abi : Abi) (t : Shape) :
    (addAt site abi t sites).2 = (Shape.takeIn (slotAt sites site abi) t).2 ∧
      ∀ site' abi', slotAt (addAt site abi t sites).1 site' abi' =
        if site' = site ∧ abi' = abi then (Shape.takeIn (slotAt sites site abi) t).1
        else slotAt sites site' abi' := by
  obtain ⟨hreport, hentry⟩ := @updateAt_entryAt _ _ _ _ SiteShapes.site new (fun s => s.add abi t)
    (fun _ => rfl) (fun s => s.site_add abi t) site sites
  refine ⟨?_, fun site' abi' => ?_⟩
  · rw [addAt, hreport, add_eq, slotAt]
  · rw [slotAt, addAt, hentry, add_eq]
    by_cases hs : site' = site
    · subst hs
      by_cases ha : abi' = abi
      · simp [ha, slot_setSlot, slotAt]
      · simp [ha, slot_setSlot_of_ne _ ha, slotAt]
    · simp [hs, slotAt]

end SiteShapes

namespace NameGroup

variable {o : Observation} {t : Shape}

/-- A shape that can be read changes its slot and no other. -/
theorem observe_of_shape (g : NameGroup) (abi : Abi) (ht : o.shape = .ok t) :
    let taken := Shape.takeIn (SiteShapes.slotAt g.sites o.site abi) t
    (g.observe abi o).2 = taken.2.map (fun e => .conflict ⟨g.key.label, abi, e⟩) ∧
      ∀ site other, SiteShapes.slotAt (g.observe abi o).1.sites site other =
        if site = o.site ∧ other = abi then taken.1 else SiteShapes.slotAt g.sites site other := by
  obtain ⟨hreport, hslot⟩ := SiteShapes.slotAt_addAt g.sites o.site abi t
  rw [observe, ht]
  cases hadd : SiteShapes.addAt o.site abi t g.sites with
  | mk sites r =>
    rw [hadd] at hreport hslot
    simp only [hadd, ← hreport]
    cases r with
    | none => exact ⟨rfl, hslot⟩
    | some e => exact ⟨rfl, hslot⟩

/-- An encoding that cannot be read changes no slot. -/
theorem sites_observe_of_error {e : DecodeError} (g : NameGroup) (abi : Abi)
    (he : o.shape = .error e) : (g.observe abi o).1.sites = g.sites := by
  rw [observe, he]
  rfl

end NameGroup

namespace Observation

/-- The shape that an observation brings for a slot. -/
def shapeFor (k : NameKey) (site : String) (abi : Abi) (o : Observation) : Option Shape :=
  if o.key = k ∧ o.site = site ∧ o.abi = abi.bits then o.shape.toOption else none

theorem shapesAt_ofKey_append_singleton (k : NameKey) (site : String) (abi : Abi)
    (os : List Observation) (o : Observation) :
    shapesAt (ofKey k (os ++ [o])) site abi =
      shapesAt (ofKey k os) site abi ++ (shapeFor k site abi o).toList := by
  rw [ofKey_append_singleton, shapeFor]
  by_cases hk : o.key = k
  · simp [hk, shapesAt_append]
  · simp [hk]

end Observation

namespace Grouping

open Observation

variable {o : Observation} {abi : Abi} {t : Shape}

/-- The group of a name in a run. -/
def group (run : Grouping) (k : NameKey) : NameGroup := entryAt NameGroup.key .new k run.groups

/-- What a run has for a name at a site on one binary interface. -/
def slot? (run : Grouping) (k : NameKey) (site : String) (abi : Abi) : Option Shape :=
  SiteShapes.slotAt (run.group k).sites site abi

theorem key_group (run : Grouping) (k : NameKey) : (run.group k).key = k :=
  key_entryAt (fun _ => rfl) k run.groups

/-- An observation changes the group of its name and no other. -/
theorem observe_of_abi (run : Grouping) (ha : o.abi = abi.bits) :
    (run.observe o).errors =
        run.errors ++ ((run.group o.key).observe abi o).2.toList ∧
      ∀ k, (run.observe o).group k =
        if k = o.key then ((run.group o.key).observe abi o).1 else run.group k := by
  obtain ⟨hreport, hentry⟩ := @updateAt_entryAt _ _ _ _ NameGroup.key .new
    (fun g => g.observe abi o) (fun _ => rfl) (fun g => g.key_observe abi o) o.key run.groups
  rw [observe, Abi.ofBits?_eq_some_iff.2 ha]
  exact ⟨congrArg (run.errors ++ Option.toList ·) hreport, hentry⟩

/-- **What one observation does to a slot.** It brings a shape for it, or leaves it as it is. -/
theorem slot?_observe (run : Grouping) (o : Observation) (k : NameKey) (site : String)
    (abi : Abi) :
    (run.observe o).slot? k site abi =
      match shapeFor k site abi o with
      | none => run.slot? k site abi
      | some t => (Shape.takeIn (run.slot? k site abi) t).1 := by
  cases hb : Abi.ofBits? o.abi with
  | none =>
    have hne : o.abi ≠ abi.bits := by
      intro e
      rw [Abi.ofBits?_eq_some_iff.2 e] at hb
      cases hb
    simp [observe, hb, shapeFor, hne]
  | some other =>
    have ha := Abi.ofBits?_eq_some_iff.1 hb
    obtain ⟨-, hgroup⟩ := run.observe_of_abi ha
    rw [slot?, hgroup]
    by_cases hk : o.key = k
    · subst hk
      rw [if_pos rfl]
      cases ht : o.shape with
      | error e =>
        rw [NameGroup.sites_observe_of_error _ _ ht]
        simp [shapeFor, ht, Except.toOption, slot?]
      | ok t =>
        obtain ⟨-, hslot⟩ := (run.group o.key).observe_of_shape other ht
        have hbits : other.bits = abi.bits ↔ abi = other := by
          cases abi <;> cases other <;> simp [Abi.bits]
        rw [hslot]
        by_cases hs : site = o.site ∧ abi = other
        · obtain ⟨rfl, rfl⟩ := hs
          simp [shapeFor, ha, ht, Except.toOption, slot?]
        · have hnone : shapeFor o.key site abi o = none := by
            refine if_neg fun h => hs ⟨h.2.1.symm, ?_⟩
            rw [← hbits, ← ha, h.2.2]
          rw [if_neg hs, hnone, slot?]
    · simp [Ne.symm hk, shapeFor, hk, slot?]

/-- A slot holds the overlay of the shapes since the last conflict. -/
theorem slot?_ofObservations (os : List Observation) (k : NameKey) (site : String) (abi : Abi) :
    (ofObservations os).slot? k site abi =
      Shape.overlayAll (Shape.sinceConflict (shapesAt (ofKey k os) site abi)) := by
  induction os using List.reverseRecOn with
  | nil => cases abi <;> rfl
  | append_singleton os o ih =>
    rw [ofObservations_append_singleton, slot?_observe, ih, shapesAt_ofKey_append_singleton]
    cases shapeFor k site abi o with
    | none => simp
    | some t =>
      rw [Option.toList_some, Shape.sinceConflict_append_singleton]
      exact Shape.takeIn_overlayAll _ t

/-- An observation that can be read is reported if its slot cannot take in the shape. -/
theorem errors_observe_of_shape (run : Grouping) (ha : o.abi = abi.bits) (ht : o.shape = .ok t) :
    (run.observe o).errors =
      run.errors ++ ((Shape.takeIn (run.slot? o.key o.site abi) t).2.map
        fun e => .conflict ⟨o.key.label, abi, e⟩).toList := by
  obtain ⟨herrors, -⟩ := run.observe_of_abi ha
  obtain ⟨hreport, -⟩ := (run.group o.key).observe_of_shape abi ht
  rw [herrors, hreport, key_group, slot?]

/-- No error is taken back. -/
theorem errors_prefix_foldl (run : Grouping) (os : List Observation) :
    run.errors <+: (os.foldl observe run).errors := by
  induction os generalizing run with
  | nil => exact List.prefix_rfl
  | cons o os ih =>
    refine List.IsPrefix.trans ?_ (ih (run.observe o))
    unfold observe
    split
    · exact List.prefix_rfl
    · exact List.prefix_append ..

end Grouping

/-! ### The conflicts of a run -/

namespace Workbench

open Observation Grouping

/-- The errors of the grouping are among those of the run. -/
theorem errors_prefix_canonicalize (w : Workbench) (os after : List Observation) :
    (ofObservations os).errors <+: (w.canonicalize (os ++ after)).1.errors := by
  have hafter : ofObservations (os ++ after) = after.foldl observe (ofObservations os) :=
    List.foldl_append
  rw [canonicalize, hafter]
  exact ((ofObservations os).errors_prefix_foldl after).trans (List.prefix_append ..)

/-- **Which observations are reported as conflicts at their site.** The slot of an observation holds
the overlay of the shapes that came there since the last conflict, which are all of them if they are
alike. If the shape of the observation is equal to the first of these but for names, or if there are
none, it is overlaid on them and nothing is reported. Otherwise one error is added to those of the
run, and never taken back, but the slot is empty after that. -/
theorem conflicts_at_site (w : Workbench) (os after : List Observation) {o : Observation}
    {abi : Abi} {t : Shape} (ha : o.abi = abi.bits) (ht : o.shape = .ok t) :
    let slot os := (ofObservations os).slot? o.key o.site abi
    let errors os := (ofObservations os).errors
    let shapes := shapesAt (ofKey o.key os) o.site abi
    let since := Shape.sinceConflict shapes
    slot os = Shape.overlayAll since ∧ (Shape.Alike shapes → since = shapes) ∧
      ((∀ u ∈ since.head?, u.erase = t.erase) →
        errors (os ++ [o]) = errors os ∧ slot (os ++ [o]) = Shape.overlayAll (since ++ [t])) ∧
      ((∃ u ∈ since.head?, u.erase ≠ t.erase) →
        ∃ u e, slot os = some u ∧ u.merge t = .error e ∧
          errors (os ++ [o]) = errors os ++ [.conflict ⟨o.key.label, abi, e⟩] ∧
          slot (os ++ [o]) = none) ∧
      errors (os ++ [o]) <+: (w.canonicalize (os ++ o :: after)).1.errors := by
  intro slot errors shapes since
  have hslot : slot os = Shape.overlayAll since := slot?_ofObservations ..
  have hbrings : shapeFor o.key o.site abi o = some t := by simp [shapeFor, ha, ht, Except.toOption]
  have hslot' : slot (os ++ [o]) = (Shape.takeIn (slot os) t).1 := by
    simp only [slot, ofObservations_append_singleton, slot?_observe, hbrings]
  have herrors' : errors (os ++ [o]) = errors os ++
      ((Shape.takeIn (slot os) t).2.map fun e => .conflict ⟨o.key.label, abi, e⟩).toList := by
    simp only [errors, ofObservations_append_singleton]
    exact errors_observe_of_shape _ ha ht
  refine ⟨hslot, Shape.sinceConflict_of_alike, fun h => ?_, fun h => ?_, ?_⟩
  · rw [herrors', hslot', hslot, Shape.takeIn_of_head h]
    exact ⟨List.append_nil _, rfl⟩
  · obtain ⟨u, e, hu, hm, htake⟩ := Shape.takeIn_of_not_head h
    refine ⟨u, e, hslot.trans hu, hm, ?_, ?_⟩
    · rw [herrors', hslot, htake]
      rfl
    · rw [hslot', hslot, htake]
  · have hprefix := w.errors_prefix_canonicalize (os ++ [o]) after
    rwa [List.append_assoc, List.singleton_append] at hprefix

/-- A second shape that is like the first but for a tag, and a third that is not. -/
theorem conflicts_at_site_tag :
    let os : List Observation := [⟨some "T", "a.h:1", 32, "{?=i}"⟩, ⟨some "T", "a.h:1", 32, "{t=i}"⟩]
    let o : Observation := ⟨some "T", "a.h:1", 32, "i"⟩
    let slot os := (ofObservations os).slot? o.key o.site .bits32
    o.abi = Abi.bits32.bits ∧ o.shape = .ok (.primitive .int) ∧
      slot os = some (.composite .struct (some "t") (.cons none (.primitive .int) .nil)) ∧
      (∃ u e, slot os = some u ∧ u.merge (.primitive .int) = .error e ∧
        (ofObservations (os ++ [o])).errors = [.conflict ⟨"T", .bits32, e⟩]) ∧
      slot (os ++ [o]) = none := by
  intro os o slot
  have ha : o.abi = Abi.bits32.bits := rfl
  have ht : o.shape = .ok (.primitive .int) := by decide
  obtain ⟨-, -, -, hreported, -⟩ := conflicts_at_site (.new ⟨[]⟩) os [] ha ht
  obtain ⟨u, e, hu, hm, herrors, hempty⟩ := hreported (by decide)
  exact ⟨ha, ht, by decide, ⟨u, e, hu, hm, herrors⟩, hempty⟩

/-- **An observation that differs from the first one of its slot need not be reported.** Two do
here, but the run has one error. -/
theorem conflict_not_reported :
    let os : List Observation :=
      [⟨some "T", "a.h:1", 32, "i"⟩, ⟨some "T", "a.h:1", 32, "f"⟩, ⟨some "T", "a.h:1", 32, "f"⟩]
    let int : Shape := .primitive .int
    let float : Shape := .primitive .float
    os.map Observation.shape = [.ok int, .ok float, .ok float] ∧ int.erase ≠ float.erase ∧
      ((Workbench.new ⟨[]⟩).canonicalize os).1.errors =
        [.conflict ⟨"T", .bits32, ⟨int, float, .primitives .int .float⟩⟩] ∧
      (ofObservations (os.take 2)).slot? (.named (.ofDeclared "T")) "a.h:1" .bits32 = none := by
  decide +kernel

end Workbench

end Bindery
