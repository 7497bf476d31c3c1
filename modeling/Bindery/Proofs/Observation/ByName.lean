import Bindery.Observation.Grouping
import Bindery.Proofs.FirstSeen

/-!
# Grouping name by name

A run takes in the observations of all names interleaved, in one list of groups. Here it is shown
that this makes no difference: the group of a name is what its own observations make of it.

* `NameGroup.ofObservations` takes in the observations of one name;
* `Grouping.groups_ofObservations` : the groups of a run are those of its names, in first-seen
  order;
* `Grouping.errors_ofObservations` : the errors of a run are those of its names, in some order;
* `Observation.failed_groupOf` : a name has failed exactly when there are errors for it.
-/

namespace Bindery

namespace Observation

/-- The observations of one name. -/
def ofKey (k : NameKey) (os : List Observation) : List Observation := os.filter fun o => o.key = k

/-- The keys of some observations in first-seen order. -/
def keys (os : List Observation) : List NameKey := firstSeen key os

theorem ofKey_append_singleton (k : NameKey) (os : List Observation) (o : Observation) :
    ofKey k (os ++ [o]) = if o.key = k then ofKey k os ++ [o] else ofKey k os := by
  unfold ofKey
  split_ifs with h <;> simp [h]

theorem ofKey_eq_nil {k : NameKey} {os : List Observation} (h : k ∉ keys os) : ofKey k os = [] := by
  rw [keys, mem_firstSeen] at h
  simp only [ofKey, List.filter_eq_nil_iff, decide_eq_true_eq]
  exact fun o ho e => h ⟨o, ho, e⟩

theorem ofKey_ne_nil {k : NameKey} {os : List Observation} (h : k ∈ keys os) :
    ofKey k os ≠ [] := by
  obtain ⟨o, ho, hk⟩ := (mem_firstSeen key).1 h
  exact List.ne_nil_of_mem (List.mem_filter.2 ⟨ho, by simpa using hk⟩)

theorem abi_of_mem_ofKey {k : NameKey} {os : List Observation}
    (h : ∀ o ∈ os, o.abi = 32 ∨ o.abi = 64) : ∀ o ∈ ofKey k os, o.abi = 32 ∨ o.abi = 64 :=
  fun o ho => h o (List.mem_filter.1 ho).1

theorem ofKey_ofKey (k : NameKey) (os : List Observation) : ofKey k (ofKey k os) = ofKey k os := by
  simp [ofKey]

theorem keys_append_singleton (os : List Observation) (o : Observation) :
    keys (os ++ [o]) = if o.key ∈ keys os then keys os else keys os ++ [o.key] :=
  firstSeen_append_singleton key os o

theorem keys_ofKey (k : NameKey) (os : List Observation) :
    keys (ofKey k os) = if k ∈ keys os then [k] else [] := by
  induction os using List.reverseRecOn with
  | nil => rfl
  | append_singleton os o ih =>
    rw [ofKey_append_singleton, keys_append_singleton]
    by_cases hk : o.key = k
    · subst hk
      by_cases hm : o.key ∈ keys os <;> simp [keys_append_singleton, ih, hm]
    · by_cases hm : o.key ∈ keys os <;> simp [ih, hk, hm, Ne.symm hk]

theorem exists_abi {o : Observation} (h : o.abi = 32 ∨ o.abi = 64) :
    ∃ abi : Abi, o.abi = abi.bits := by
  rcases h with h | h
  · exact ⟨.bits32, h⟩
  · exact ⟨.bits64, h⟩

end Observation

/-! ### The group of one name -/

namespace NameGroup

/-- Takes in an observation and adds the error that it makes to those before. -/
def take (r : NameGroup × List TypeError) (o : Observation) : NameGroup × List TypeError :=
  match Abi.ofBits? o.abi with
  | none => r
  | some abi => ((r.1.observe abi o).1, r.2 ++ (r.1.observe abi o).2.toList)

/-- What the given observations make of a name, and the errors met on the way. -/
def ofObservations (k : NameKey) (os : List Observation) : NameGroup × List TypeError :=
  os.foldl take (new k, [])

theorem take_of_abi {o : Observation} {abi : Abi} (h : o.abi = abi.bits)
    (r : NameGroup × List TypeError) :
    take r o = ((r.1.observe abi o).1, r.2 ++ (r.1.observe abi o).2.toList) := by
  rw [take, Abi.ofBits?_eq_some_iff.2 h]

theorem ofObservations_append_singleton (k : NameKey) (os : List Observation) (o : Observation) :
    ofObservations k (os ++ [o]) = take (ofObservations k os) o := by
  simp [ofObservations]

theorem key_ofObservations (k : NameKey) (os : List Observation) :
    (ofObservations k os).1.key = k := by
  induction os using List.reverseRecOn with
  | nil => rfl
  | append_singleton os o ih =>
    rw [ofObservations_append_singleton, take]
    split
    · exact ih
    · rw [key_observe, ih]

theorem failed_observe (g : NameGroup) (abi : Abi) (o : Observation) :
    (g.observe abi o).1.failed = (g.failed || (g.observe abi o).2.isSome) := by
  unfold observe
  split
  · simp [fail]
  · split <;> simp

theorem sites_observe_ne_nil {g : NameGroup} {abi : Abi} {o : Observation}
    (h : (g.observe abi o).2 = none) : (g.observe abi o).1.sites ≠ [] := by
  have key (t : Shape) : (SiteShapes.addAt o.site abi t g.sites).1 ≠ [] := by
    unfold SiteShapes.addAt
    cases g.sites with
    | nil => simp [updateAt]
    | cons s rest =>
      rw [updateAt]
      split <;> simp
  unfold observe at h ⊢
  split at h
  · simp at h
  · rename_i t ht
    have := key t
    split at h
    · simp_all
    · simp at h

theorem failed_iff_errors (k : NameKey) (os : List Observation) :
    (ofObservations k os).1.failed = true ↔ (ofObservations k os).2 ≠ [] := by
  induction os using List.reverseRecOn with
  | nil => simp [ofObservations, new]
  | append_singleton os o ih =>
    rw [ofObservations_append_singleton, take]
    split
    · exact ih
    · rename_i abi _
      cases he : ((ofObservations k os).1.observe abi o).2 <;> simp [failed_observe, he, ih]

theorem sites_ofObservations_ne_nil {k : NameKey} {os : List Observation} (hne : os ≠ [])
    (h : ∀ o ∈ os, o.abi = 32 ∨ o.abi = 64) (hf : (ofObservations k os).1.failed = false) :
    (ofObservations k os).1.sites ≠ [] := by
  -- without an error the last observation has put its shape at a site
  obtain ⟨init, o, rfl⟩ := (List.eq_nil_or_concat' os).resolve_left hne
  obtain ⟨abi, ha⟩ := Observation.exists_abi (h o (by simp))
  rw [ofObservations_append_singleton, take_of_abi ha] at hf ⊢
  rw [failed_observe, Bool.or_eq_false_iff] at hf
  exact sites_observe_ne_nil (by simpa using hf.2)

end NameGroup

/-! ### The groups of a run -/

namespace Observation

/-- The group of a name in a run over the given observations. -/
def groupOf (os : List Observation) (k : NameKey) : NameGroup :=
  (NameGroup.ofObservations k (ofKey k os)).1

/-- The errors for a name in a run over the given observations. -/
def errorsOf (os : List Observation) (k : NameKey) : List TypeError :=
  (NameGroup.ofObservations k (ofKey k os)).2

theorem groupOf_ofKey (os : List Observation) (k : NameKey) :
    groupOf (ofKey k os) k = groupOf os k := by
  rw [groupOf, ofKey_ofKey, groupOf]

variable {os : List Observation} {o : Observation} {abi : Abi} {k : NameKey}

theorem key_groupOf : (groupOf os k).key = k := NameGroup.key_ofObservations k _

theorem groupOf_of_not_mem (h : k ∉ keys os) : groupOf os k = .new k := by
  rw [groupOf, ofKey_eq_nil h]
  rfl

theorem errorsOf_of_not_mem (h : k ∉ keys os) : errorsOf os k = [] := by
  rw [errorsOf, ofKey_eq_nil h]
  rfl

/-- A name has failed exactly when there are errors for it. -/
theorem failed_groupOf : (groupOf os k).failed = true ↔ errorsOf os k ≠ [] :=
  NameGroup.failed_iff_errors k _

/-- A name that was seen and has not failed has a site. -/
theorem sites_groupOf_ne_nil (h : ∀ o ∈ os, o.abi = 32 ∨ o.abi = 64) (hk : k ∈ keys os)
    (hf : errorsOf os k = []) : (groupOf os k).sites ≠ [] := by
  refine NameGroup.sites_ofObservations_ne_nil (ofKey_ne_nil hk) (abi_of_mem_ofKey h) ?_
  exact Bool.eq_false_iff.2 fun hg => failed_groupOf.1 hg hf

theorem groupOf_append_singleton (h : o.abi = abi.bits) :
    groupOf (os ++ [o]) k =
      if k = o.key then ((groupOf os o.key).observe abi o).1 else groupOf os k := by
  by_cases hk : k = o.key
  · subst hk
    simp only [groupOf, ofKey_append_singleton, ↓reduceIte,
      NameGroup.ofObservations_append_singleton, NameGroup.take_of_abi h]
  · simp only [groupOf, ofKey_append_singleton, hk, Ne.symm hk, ↓reduceIte]

theorem errorsOf_append_singleton (h : o.abi = abi.bits) :
    errorsOf (os ++ [o]) k =
      if k = o.key then errorsOf os o.key ++ ((groupOf os o.key).observe abi o).2.toList
      else errorsOf os k := by
  by_cases hk : k = o.key
  · subst hk
    simp only [errorsOf, groupOf, ofKey_append_singleton, ↓reduceIte,
      NameGroup.ofObservations_append_singleton, NameGroup.take_of_abi h]
  · simp only [errorsOf, ofKey_append_singleton, hk, Ne.symm hk, ↓reduceIte]

end Observation

namespace Grouping

open Observation

variable {os : List Observation}

theorem observeIn_groupOf (abi : Abi) (o : Observation) :
    NameGroup.observeIn abi o ((keys os).map (groupOf os)) =
      ((keys (os ++ [o])).map fun k =>
          if k = o.key then ((groupOf os o.key).observe abi o).1 else groupOf os k,
        ((groupOf os o.key).observe abi o).2) := by
  rw [keys_append_singleton]
  exact updateAt_map (fun _ => key_groupOf) (nodup_firstSeen key os) groupOf_of_not_mem

/-- The groups of a run are those of its names, in first-seen order. -/
theorem groups_ofObservations (h : ∀ o ∈ os, o.abi = 32 ∨ o.abi = 64) :
    (ofObservations os).groups = (keys os).map (groupOf os) := by
  induction os using List.reverseRecOn with
  | nil => rfl
  | append_singleton os o ih =>
    obtain ⟨abi, ha⟩ := exists_abi (h o (by simp))
    rw [ofObservations_append_singleton, observe, Abi.ofBits?_eq_some_iff.2 ha]
    simp only [ih fun p hp => h p (by simp [hp]), observeIn_groupOf]
    exact List.map_congr_left fun k _ => (groupOf_append_singleton ha).symm

/-- The errors of a run are those of its names, in some order. -/
theorem errors_ofObservations (h : ∀ o ∈ os, o.abi = 32 ∨ o.abi = 64) :
    (ofObservations os).errors.Perm ((keys os).flatMap (errorsOf os)) := by
  induction os using List.reverseRecOn with
  | nil => rfl
  | append_singleton os o ih =>
    have hos : ∀ p ∈ os, p.abi = 32 ∨ p.abi = 64 := fun p hp => h p (by simp [hp])
    obtain ⟨abi, ha⟩ := exists_abi (h o (by simp))
    rw [ofObservations_append_singleton, observe, Abi.ofBits?_eq_some_iff.2 ha]
    simp only [groups_ofObservations hos, observeIn_groupOf]
    -- the run adds the new error at the end, but it belongs with those of its own name
    have hnew : o.key ∉ keys os → errorsOf os o.key = [] := errorsOf_of_not_mem
    have hstep := flatMap_append_perm_of_nodup (nodup_firstSeen key os) hnew
      ((groupOf os o.key).observe abi o).2.toList
    rw [← firstSeen_append_singleton] at hstep
    refine ((ih hos).append_right _).trans (hstep.trans (.of_eq ?_))
    exact List.flatMap_congr fun k _ => (errorsOf_append_singleton ha).symm

end Grouping

end Bindery
