import Bindery.Proofs.Canonical.Rescan

/-!
# The order of the errors

A run reports the errors of all names in one list. Its names are listed as they are first seen, but
its errors are not: what goes wrong while the observations are grouped is reported at once, in the
order of the observations, and what goes wrong when the sites of a name are merged is reported
behind all of that.

* `Observation.groupingErrors` and `Observation.mergeErrors` list the errors of both stages, each
  with the name that it is about, and `Observation.blamed` puts the second list behind the first;
* `Observation.filter_blamed` : the errors for a name are those of its own observations;
* `Observation.SeenBefore` says that a name is seen before another, and `Observation.InOrder` that
  no error for the second stands before one for the first;
* `Workbench.inOrder_iff` : when that is so;
* `Workbench.errors_out_of_order` : it need not be.
-/

namespace Bindery

namespace Observation

variable {overrides : Overrides} {os : List Observation} {k k' : NameKey}

/-! ### Errors and the names that they are about -/

/-- The error that an observation causes behind others: its encoding cannot be read, or its shape
cannot be merged with those at its site. -/
def errorBehind (before : List Observation) (o : Observation) : Option TypeError :=
  (Abi.ofBits? o.abi).bind fun abi => ((groupOf before o.key).observe abi o).2

/-- The errors that observations cause behind others, each with the name of its observation. -/
def errorsBehind (before : List Observation) : List Observation → List (NameKey × TypeError)
  | [] => []
  | o :: os => ((errorBehind before o).map (o.key, ·)).toList ++ errorsBehind (before ++ [o]) os

/-- The errors of the grouping, in the order of the observations. -/
def groupingErrors (os : List Observation) : List (NameKey × TypeError) := errorsBehind [] os

/-- The errors of the merge, in the order in which the names are first seen. -/
def mergeErrors (overrides : Overrides) (os : List Observation) : List (NameKey × TypeError) :=
  (keys (os.filter counts)).flatMap fun k => ((groupOf os k).outcome overrides).2.map (k, ·)

/-- All errors, each with the name that it is about. -/
def blamed (overrides : Overrides) (os : List Observation) : List (NameKey × TypeError) :=
  groupingErrors os ++ mergeErrors overrides os

theorem errorsBehind_append_singleton (before os : List Observation) (o : Observation) :
    errorsBehind before (os ++ [o]) =
      errorsBehind before os ++ ((errorBehind (before ++ os) o).map (o.key, ·)).toList := by
  induction os generalizing before with
  | nil => simp [errorsBehind]
  | cons p os ih => simp [errorsBehind, ih]

theorem groupingErrors_append_singleton (os : List Observation) (o : Observation) :
    groupingErrors (os ++ [o]) =
      groupingErrors os ++ ((errorBehind os o).map (o.key, ·)).toList :=
  errorsBehind_append_singleton [] os o

/-- What an observation causes does not depend on other names. -/
theorem errorBehind_ofKey (before : List Observation) (o : Observation) :
    errorBehind (ofKey o.key before) o = errorBehind before o := by
  rw [errorBehind, groupOf_ofKey, errorBehind]

theorem filter_groupingErrors (os : List Observation) (k : NameKey) :
    (groupingErrors os).filter (fun e => e.1 = k) = groupingErrors (ofKey k os) := by
  induction os using List.reverseRecOn with
  | nil => rfl
  | append_singleton os o ih =>
    rw [groupingErrors_append_singleton, List.filter_append, ih, ofKey_append_singleton]
    by_cases hk : o.key = k
    · subst hk
      rw [if_pos rfl, groupingErrors_append_singleton, errorBehind_ofKey]
      cases errorBehind os o <;> simp
    · rw [if_neg hk]
      cases errorBehind os o <;> simp [hk]

theorem filter_mergeErrors (overrides : Overrides) (os : List Observation) (k : NameKey) :
    (mergeErrors overrides os).filter (fun e => e.1 = k) = mergeErrors overrides (ofKey k os) := by
  have hkeys : keys ((ofKey k os).filter counts) = (keys (os.filter counts)).filter (· = k) := by
    rw [← ofKey_filter_counts, keys, keys, filter_firstSeen, ofKey]
  rw [mergeErrors, mergeErrors, hkeys]
  induction keys (os.filter counts) with
  | nil => rfl
  | cons j ks ih =>
    rw [List.flatMap_cons, List.filter_append, ih, List.filter_cons]
    by_cases hj : j = k
    · subst hj
      simp [groupOf_ofKey, List.filter_map, Function.comp_def]
    · simp [hj, List.filter_map, Function.comp_def]

/-- The errors for a name are those of its own observations. -/
theorem filter_blamed (overrides : Overrides) (os : List Observation) (k : NameKey) :
    (blamed overrides os).filter (fun e => e.1 = k) = blamed overrides (ofKey k os) := by
  rw [blamed, List.filter_append, filter_groupingErrors, filter_mergeErrors, blamed]

/-! ### Names in order -/

/-- The first name is seen when the second is not yet. -/
def SeenBefore (k k' : NameKey) (os : List Observation) : Prop :=
  ∃ pre post, os = pre ++ post ∧ k ∈ keys pre ∧ k' ∉ keys pre

/-- No error for the second name stands before one for the first. -/
def InOrder (k k' : NameKey) (es : List (NameKey × TypeError)) : Prop :=
  es.Pairwise fun a b => ¬ (a.1 = k' ∧ b.1 = k)

theorem SeenBefore.pairwise_keys (h : SeenBefore k k' os) :
    (keys os).Pairwise fun a b => ¬ (a = k' ∧ b = k) := by
  obtain ⟨pre, post, rfl, hk, hk'⟩ := h
  have hnodup := nodup_firstSeen key (pre ++ post)
  rw [firstSeen_append, List.nodup_append] at hnodup
  rw [keys, firstSeen_append, List.pairwise_append]
  -- `k'` is not among the keys seen first, and `k` is not among the others
  have hother : ∀ b ∈ ((post.map key).removeAll (pre.map key)).eraseDups, b ≠ k :=
    fun b hb e => hnodup.2.2 k hk b hb e.symm
  refine ⟨?_, ?_, fun a _ b hb e => hother b hb e.2⟩
  · exact List.pairwise_of_forall_mem_list fun a ha b _ e => hk' (e.1 ▸ ha)
  · exact List.pairwise_of_forall_mem_list fun a _ b hb e => hother b hb e.2

/-- The errors of the merge are in order. -/
theorem inOrder_mergeErrors (h : SeenBefore k k' (os.filter counts)) :
    InOrder k k' (mergeErrors overrides os) := by
  have hkey : ∀ {j e}, e ∈ ((groupOf os j).outcome overrides).2.map (j, ·) → e.1 = j := by
    intro j e he
    obtain ⟨_, -, rfl⟩ := List.mem_map.1 he
    rfl
  refine List.pairwise_flatMap.2 ⟨fun j _ => ?_, h.pairwise_keys.imp ?_⟩
  · have hne : ¬ (j = k' ∧ j = k) := by
      obtain ⟨pre, post, -, hk, hk'⟩ := h
      rintro ⟨rfl, rfl⟩
      exact hk' hk
    refine List.pairwise_of_forall_mem_list fun a ha b hb => ?_
    rw [hkey ha, hkey hb]
    exact hne
  · intro i j hij a ha b hb
    rw [hkey ha, hkey hb]
    exact hij

theorem inOrder_append {es fs : List (NameKey × TypeError)} :
    InOrder k k' (es ++ fs) ↔
      InOrder k k' es ∧ InOrder k k' fs ∧ ((∃ e, (k', e) ∈ es) → ∀ e, (k, e) ∉ fs) := by
  rw [InOrder, List.pairwise_append]
  refine and_congr_right fun _ => and_congr_right fun _ => ?_
  constructor
  · rintro h ⟨e, he⟩ f hf
    exact h _ he _ hf ⟨rfl, rfl⟩
  · rintro h ⟨_, e⟩ he ⟨_, f⟩ hf ⟨rfl, rfl⟩
    exact h ⟨e, he⟩ f hf

end Observation

/-! ### The errors of a run -/

namespace Grouping

open Observation

/-- What one more observation adds to the errors. -/
theorem errors_observe (os : List Observation) (o : Observation) :
    ((ofObservations os).observe o).errors =
      (ofObservations os).errors ++ (errorBehind os o).toList := by
  rw [observe, errorBehind]
  cases Abi.ofBits? o.abi with
  | none => simp
  | some abi =>
    have hgroups : groupOf (os.filter counts) = groupOf os :=
      funext fun k => groupOf_filter_counts os k
    simp only [groups_eq, Option.bind_some]
    rw [← hgroups, observeIn_groupOf]

theorem errors_eq (os : List Observation) :
    (ofObservations os).errors = (groupingErrors os).map Prod.snd := by
  induction os using List.reverseRecOn with
  | nil => rfl
  | append_singleton os o ih =>
    rw [ofObservations_append_singleton, errors_observe, ih, groupingErrors_append_singleton,
      List.map_append]
    cases errorBehind os o <;> rfl

end Grouping

namespace Workbench

open Observation

/-- The errors of the grouping come first. -/
theorem errors_canonicalize (w : Workbench) (os : List Observation) :
    (w.canonicalize os).1.errors = (blamed w.merger.overrides os).map Prod.snd := by
  have hmerge := (w.typesOf_value (Grouping.ofObservations os).groups).2
  rw [Grouping.groups_eq, List.flatMap_map] at hmerge
  rw [canonicalize, Grouping.groups_eq]
  simp only [hmerge, Grouping.errors_eq, blamed, List.map_append, mergeErrors, List.map_flatMap,
    List.map_map, Function.comp_def, List.map_id']

/-- **When the errors of two names come in the order of the names.** Each error of a run is about
one name, and those for a name are the errors of a run over its own observations. When a name is
seen before another, its errors come before those of the other exactly if the errors of the grouping
do and, unless the other name has no error there, the merge of the first one does not fail. -/
theorem inOrder_iff (w : Workbench) (os : List Observation) {k k' : NameKey}
    (h : SeenBefore k k' (os.filter counts)) :
    let errors := blamed w.merger.overrides os
    (w.canonicalize os).1.errors = errors.map Prod.snd ∧
      (∀ j, (w.canonicalize (ofKey j os)).1.errors =
        (errors.filter fun e => e.1 = j).map Prod.snd) ∧
      (InOrder k k' errors ↔
        InOrder k k' (groupingErrors os) ∧
          ((∃ e, (k', e) ∈ groupingErrors os) →
            ∀ e, (k, e) ∉ mergeErrors w.merger.overrides os)) := by
  refine ⟨w.errors_canonicalize os, fun j => ?_, ?_⟩
  · rw [filter_blamed, errors_canonicalize]
  · rw [blamed, inOrder_append]
    simp only [inOrder_mergeErrors h, true_and]

/-- The second name has a bad encoding, and the first is found to have no 32-bit shape later. -/
theorem inOrder_iff_bad_and_missing :
    let os : List Observation := [⟨some "A", "a.h:1", 64, "i"⟩, ⟨some "B", "b.h:1", 32, "?"⟩]
    let a : NameKey := .named (.ofDeclared "A")
    let b : NameKey := .named (.ofDeclared "B")
    let errors := blamed ⟨[]⟩ os
    SeenBefore a b (os.filter counts) ∧ errors.map Prod.fst = [b, a] ∧
      ((Workbench.new ⟨[]⟩).canonicalize os).1.errors = errors.map Prod.snd ∧
      (InOrder a b errors ↔
        InOrder a b (groupingErrors os) ∧
          ((∃ e, (b, e) ∈ groupingErrors os) → ∀ e, (a, e) ∉ mergeErrors ⟨[]⟩ os)) := by
  intro os a b errors
  have h : SeenBefore a b (os.filter counts) := ⟨os.take 1, os.drop 1, by decide⟩
  obtain ⟨herrors, -, hiff⟩ := inOrder_iff (Workbench.new ⟨[]⟩) os h
  exact ⟨h, by decide +kernel, herrors, hiff⟩

/-- **Errors need not come in the order of the names.** The first name is seen before the second,
but its error stands behind that of the other. -/
theorem errors_out_of_order :
    let os : List Observation := [⟨some "A", "a.h:1", 64, "i"⟩, ⟨some "B", "b.h:1", 32, "?"⟩]
    let a : NameKey := .named (.ofDeclared "A")
    let b : NameKey := .named (.ofDeclared "B")
    let errors := fun os => ((Workbench.new ⟨[]⟩).canonicalize os).1.errors
    SeenBefore a b os ∧ ∃ ea eb, errors (ofKey a os) = [ea] ∧ errors (ofKey b os) = [eb] ∧
      ea ≠ eb ∧ errors os = [eb, ea] := by
  refine ⟨⟨[_], [_], rfl, by decide⟩, .missingShape ⟨some (.ofDeclared "A")⟩,
    .badEncoding "B" "b.h:1" .bits32 "?" ⟨0, .unexpectedChar '?'⟩, ?_⟩
  decide +kernel

end Workbench

end Bindery
