import Bindery.Proofs.Canonical.Steps
import Bindery.Proofs.Observation.ByName

/-!
# Names do not interfere

The names of a run share one list of groups, one merger and one registry. By value, though, what a
name gets depends on its own observations and on the override table alone.

* `SiteShapes.foldTypes` is the merge of the sites of a name on types instead of instances, and
  `Workbench.fold_value` ties it to `Workbench.fold`;
* `NameGroup.outcome` is what a group adds to the types and the errors of a run;
* `Workbench.typesOf_value`, `Workbench.canonicalize_value` : the results of a run are put together
  from the outcomes of its groups;
* `Workbench.canonicalize_by_name` : so a run is put together from the runs over one name each.
-/

namespace Bindery

/-! ### Merging by value -/

/-- The type that a type gives after what the types before it gave. -/
def NativeType.combine (overrides : Overrides) :
    Option NativeType → NativeType → Except TypeConflict NativeType
  | none, t => .ok t
  | some a, t => (a.reconcile overrides t).map fun c => c.getD a

/-- The type that some sites of a name give, after what the sites before them gave. -/
def SiteShapes.foldTypes (overrides : Overrides) (name : Option TypeName) :
    Option NativeType → List SiteShapes → Except TypeError (Option NativeType)
  | sofar, [] => .ok sofar
  | sofar, s :: rest =>
    match s.type name with
    | .error e => .error (.missingShape e)
    | .ok t =>
      match NativeType.combine overrides sofar t with
      | .error e => .error (.conflict e)
      | .ok c => foldTypes overrides name (some c) rest

/-- What the group of a name adds to the types and the errors of a run. -/
def NameGroup.outcome (overrides : Overrides) (g : NameGroup) : List NativeType × List TypeError :=
  if g.failed then ([], [])
  else
    match SiteShapes.foldTypes overrides g.key.name? none g.sites with
    | .error e => ([], [e])
    | .ok t => (t.toList, [])

namespace Workbench

open Observation

/-- The rules of the merge and the registry are as before. -/
structure Keeps (w w' : Workbench) : Prop where
  overrides : w'.merger.overrides = w.merger.overrides
  registry : w'.registry = w.registry

theorem overrides_note (m : Merger) (a b c : Instance) :
    (m.note a b c).overrides = m.overrides := by
  unfold Merger.note
  split <;> rfl

theorem mergeSite_eq (w : Workbench) (sofar : Option Instance) (t : NativeType) :
    ∃ w',
      (match NativeType.combine w.merger.overrides (sofar.map Instance.type) t with
        | .error e => w.mergeSite sofar t = (.error e, w')
        | .ok c => ∃ i : Instance, w.mergeSite sofar t = (.ok (some i), w') ∧ i.type = c) ∧
      w.Keeps w' := by
  rcases w.mergeSite_cases sofar t with
    ⟨rfl, e⟩ | ⟨a, rfl, ⟨d, hr, e⟩ | ⟨hr, e⟩ | ⟨c, hr, e⟩⟩ <;> rw [e]
  · exact ⟨_, ⟨_, rfl, rfl⟩, rfl, rfl⟩
  · rw [Option.map_some, NativeType.combine, hr]
    exact ⟨_, rfl, rfl, rfl⟩
  · rw [Option.map_some, NativeType.combine, hr]
    exact ⟨_, ⟨a, rfl, rfl⟩, rfl, rfl⟩
  · rw [Option.map_some, NativeType.combine, hr]
    exact ⟨_, ⟨_, rfl, rfl⟩, overrides_note _ _ _ _, rfl⟩

/-- By value, the fold over the sites of a name depends on the override table alone. -/
theorem fold_value (name : Option TypeName) (w : Workbench) (sofar : Option Instance)
    (sites : List SiteShapes) :
    (fold name w sofar sites).1.map (Option.map Instance.type) =
        SiteShapes.foldTypes w.merger.overrides name (sofar.map Instance.type) sites ∧
      w.Keeps (fold name w sofar sites).2 := by
  induction sites generalizing w sofar with
  | nil => exact ⟨rfl, rfl, rfl⟩
  | cons s rest ih =>
    rw [fold, SiteShapes.foldTypes]
    cases s.type name with
    | error e => exact ⟨rfl, rfl, rfl⟩
    | ok t =>
      obtain ⟨w', hm, hk⟩ := w.mergeSite_eq sofar t
      cases hc : NativeType.combine w.merger.overrides (sofar.map Instance.type) t with
      | error e =>
        rw [hc] at hm
        simp only [hm, hc]
        exact ⟨rfl, hk⟩
      | ok c =>
        rw [hc] at hm
        obtain ⟨i, hm, rfl⟩ := hm
        obtain ⟨hv, hk'⟩ := ih w' (some i)
        simp only [hm, hc]
        rw [hv, hk.overrides]
        exact ⟨rfl, hk'.overrides.trans hk.overrides, hk'.registry.trans hk.registry⟩

/-- The results of a run over some groups are put together from their outcomes. -/
theorem typesOf_value (w : Workbench) (gs : List NameGroup) :
    (w.typesOf gs).1.types.map Instance.type =
        gs.flatMap (fun g => (g.outcome w.merger.overrides).1) ∧
      (w.typesOf gs).1.errors = gs.flatMap fun g => (g.outcome w.merger.overrides).2 := by
  induction gs generalizing w with
  | nil => exact ⟨rfl, rfl⟩
  | cons g gs ih =>
    rw [typesOf]
    by_cases hf : g.failed
    · simp only [hf, ↓reduceIte, List.flatMap_cons, NameGroup.outcome, List.nil_append]
      exact ih w
    · obtain ⟨hv, hk⟩ := fold_value g.key.name? w none g.sites
      have ho : g.outcome w.merger.overrides =
          match (fold g.key.name? w none g.sites).1.map (Option.map Instance.type) with
          | .error e => ([], [e])
          | .ok t => (t.toList, []) := by
        rw [hv, NameGroup.outcome, if_neg hf]
        rfl
      cases hr : fold g.key.name? w none g.sites with
      | mk r w' =>
        rw [hr] at ho hk
        -- what comes later depends on the override table alone, not on what was interned
        have later : ∀ v : Workbench, v.merger = w'.merger →
            (v.typesOf gs).1.types.map Instance.type =
                gs.flatMap (fun g => (g.outcome w.merger.overrides).1) ∧
              (v.typesOf gs).1.errors =
                gs.flatMap fun g => (g.outcome w.merger.overrides).2 := by
          intro v hm
          rw [← hk.overrides, ← hm]
          exact ih v
        simp only [hf, Bool.false_eq_true, ↓reduceIte, List.flatMap_cons, ho]
        obtain e | _ | i := r
        · obtain ⟨ht, he⟩ := later w' rfl
          exact ⟨ht, by simp [he, Except.map]⟩
        · exact later w' rfl
        · obtain ⟨ht, he⟩ := later (w'.adopt i).2 rfl
          refine ⟨?_, he⟩
          simp only [List.map_cons, ht, Except.map, Option.map_some, Option.toList_some,
            List.cons_append, List.nil_append, List.cons.injEq, and_true]
          exact w'.registry.type_of_adopt i

/-- The types of a run are those of its names, in first-seen order, and its errors are those of its
names, in some order. -/
theorem canonicalize_value (w : Workbench) {os : List Observation}
    (h : ∀ o ∈ os, o.abi = 32 ∨ o.abi = 64) :
    (w.canonicalize os).1.types.map Instance.type =
        (keys os).flatMap (fun k => ((groupOf os k).outcome w.merger.overrides).1) ∧
      (w.canonicalize os).1.errors.Perm
        ((keys os).flatMap fun k =>
          errorsOf os k ++ ((groupOf os k).outcome w.merger.overrides).2) := by
  obtain ⟨ht, he⟩ := w.typesOf_value ((keys os).map (groupOf os))
  rw [List.flatMap_map] at ht he
  simp only [canonicalize, Grouping.groups_ofObservations h]
  refine ⟨ht, ?_⟩
  -- the run reports the errors of the grouping first, and then those of the merge
  rw [he]
  exact ((Grouping.errors_ofObservations h).append_right _).trans (List.flatMap_append_perm _ _ _)

theorem foldTypes_ne_none {overrides : Overrides} {name : Option TypeName}
    {sofar : Option NativeType} {sites : List SiteShapes} (h : sofar ≠ none ∨ sites ≠ []) :
    SiteShapes.foldTypes overrides name sofar sites ≠ .ok none := by
  induction sites generalizing sofar with
  | nil => simpa [SiteShapes.foldTypes] using h
  | cons s rest ih =>
    rw [SiteShapes.foldTypes]
    split
    · simp
    · split
      · simp
      · exact ih (.inl (by simp))

/-- A name that was seen gets one type and no error, or no type and an error. -/
theorem outcome_groupOf (overrides : Overrides) {os : List Observation} {k : NameKey}
    (h : ∀ o ∈ os, o.abi = 32 ∨ o.abi = 64) (hk : k ∈ keys os) :
    (∃ t, ((groupOf os k).outcome overrides).1 = [t] ∧
        errorsOf os k ++ ((groupOf os k).outcome overrides).2 = []) ∨
      ((groupOf os k).outcome overrides).1 = [] ∧
        errorsOf os k ++ ((groupOf os k).outcome overrides).2 ≠ [] := by
  unfold NameGroup.outcome
  by_cases hf : (groupOf os k).failed
  · rw [if_pos hf]
    exact .inr ⟨rfl, by simpa using failed_groupOf.1 hf⟩
  · have herr : errorsOf os k = [] := by
      by_contra hne
      exact hf (failed_groupOf.2 hne)
    have hsome : SiteShapes.foldTypes overrides (groupOf os k).key.name? none (groupOf os k).sites
        ≠ .ok none := foldTypes_ne_none (.inr (sites_groupOf_ne_nil h hk herr))
    rw [if_neg hf, herr]
    split
    · exact .inr ⟨rfl, by simp⟩
    · rename_i t ht
      cases t with
      | none => exact absurd ht hsome
      | some t => exact .inl ⟨t, rfl, rfl⟩

/-- The results of the run over the observations of one name. -/
theorem canonicalize_ofKey (w : Workbench) {os : List Observation} {k : NameKey}
    (h : ∀ o ∈ os, o.abi = 32 ∨ o.abi = 64) (hk : k ∈ keys os) :
    (w.canonicalize (ofKey k os)).1.types.map Instance.type =
        ((groupOf os k).outcome w.merger.overrides).1 ∧
      (w.canonicalize (ofKey k os)).1.errors.Perm
        (errorsOf os k ++ ((groupOf os k).outcome w.merger.overrides).2) := by
  have hv := w.canonicalize_value (abi_of_mem_ofKey (k := k) h)
  rw [keys_ofKey, if_pos hk, List.flatMap_singleton, List.flatMap_singleton] at hv
  simpa only [groupOf, errorsOf, ofKey_ofKey] using hv

/-- **Names do not interfere.** The types of a run are, name by name in first-seen order, those of
the runs over the observations of one name with a new registry and no collisions yet; its errors
are all the errors of these runs; and each of these runs gives one type and no error, or no type
and an error. -/
theorem canonicalize_by_name (w : Workbench) (os : List Observation)
    (h : ∀ o ∈ os, o.abi = 32 ∨ o.abi = 64) :
    let alone k := ((Workbench.new w.merger.overrides).canonicalize (ofKey k os)).1
    (w.canonicalize os).1.types.map Instance.type =
        (keys os).flatMap (fun k => (alone k).types.map Instance.type) ∧
      (w.canonicalize os).1.errors.Perm ((keys os).flatMap fun k => (alone k).errors) ∧
      ∀ k ∈ keys os,
        (∃ i, (alone k).types = [i] ∧ (alone k).errors = []) ∨
          (alone k).types = [] ∧ (alone k).errors ≠ [] := by
  intro alone
  have halone : ∀ k ∈ keys os,
      (alone k).types.map Instance.type = ((groupOf os k).outcome w.merger.overrides).1 ∧
        (alone k).errors.Perm
          (errorsOf os k ++ ((groupOf os k).outcome w.merger.overrides).2) :=
    fun k hk => (Workbench.new w.merger.overrides).canonicalize_ofKey h hk
  obtain ⟨ht, he⟩ := w.canonicalize_value h
  refine ⟨?_, ?_, fun k hk => ?_⟩
  · rw [ht]
    exact List.flatMap_congr fun k hk => (halone k hk).1.symm
  · exact he.trans (List.Perm.flatMap_left _ fun k hk => (halone k hk).2.symm)
  · obtain ⟨hts, hes⟩ := halone k hk
    rcases outcome_groupOf w.merger.overrides h hk with ⟨t, h1, h2⟩ | ⟨h1, h2⟩
    · rw [h1] at hts
      rw [h2] at hes
      obtain ⟨i, hi, -⟩ := List.map_eq_singleton_iff.1 hts
      exact .inl ⟨i, hi, hes.eq_nil⟩
    · rw [h1] at hts
      refine .inr ⟨List.map_eq_nil_iff.1 hts, fun hnil => h2 ?_⟩
      rw [hnil] at hes
      exact hes.symm.eq_nil

/-- One name whose sites disagree, one without a 32-bit shape, and a declaration without a name. -/
theorem canonicalize_by_name_interleaved :
    let os : List Observation :=
      [⟨some "Rect", "a.h:1", 32, "{r=i}"⟩, ⟨some "Far", "a.h:9", 64, "q"⟩,
        ⟨none, "b.h:2", 32, "i"⟩, ⟨some " Rect", "b.h:7", 32, "{?=f}"⟩]
    let w := Workbench.new ⟨[]⟩
    let rect := NameKey.named (.ofDeclared "Rect")
    let far := NameKey.named (.ofDeclared "Far")
    let nameless := NameKey.anonymous "b.h:2"
    let int := NativeType.make none (.primitive .int) none
    let conflict := TypeError.conflict
      ⟨"Rect", .bits32, ⟨.primitive .int, .primitive .float, .primitives .int .float⟩⟩
    let missing := TypeError.missingShape ⟨some (.ofDeclared "Far")⟩
    let alone k := (w.canonicalize (ofKey k os)).1
    (∀ o ∈ os, o.abi = 32 ∨ o.abi = 64) ∧ keys os = [rect, far, nameless] ∧
      ((alone rect).types = [] ∧ (alone rect).errors = [conflict]) ∧
      ((alone far).types = [] ∧ (alone far).errors = [missing]) ∧
      ((alone nameless).types.map Instance.type = [int] ∧ (alone nameless).errors = []) ∧
      (w.canonicalize os).1.types.map Instance.type = [int] ∧
      (w.canonicalize os).1.errors.Perm [conflict, missing] := by
  intro os w rect far nameless int conflict missing alone
  have habi : ∀ o ∈ os, o.abi = 32 ∨ o.abi = 64 := by decide
  have hkeys : keys os = [rect, far, nameless] := by decide +kernel
  have hrect : (alone rect).types = [] ∧ (alone rect).errors = [conflict] := by decide +kernel
  have hfar : (alone far).types = [] ∧ (alone far).errors = [missing] := by decide +kernel
  have hnameless : (alone nameless).types.map Instance.type = [int] ∧
      (alone nameless).errors = [] := by decide +kernel
  obtain ⟨htypes, herrors, -⟩ := canonicalize_by_name w os habi
  rw [hkeys] at htypes herrors
  have hints : [rect, far, nameless].flatMap (fun k => (alone k).types.map Instance.type) =
      [int] := by simp [hrect, hfar, hnameless]
  have hboth : [rect, far, nameless].flatMap (fun k => (alone k).errors) =
      [conflict, missing] := by simp [hrect, hfar, hnameless]
  exact ⟨habi, hkeys, hrect, hfar, hnameless, htypes.trans hints, hboth ▸ herrors⟩

end Workbench

end Bindery
