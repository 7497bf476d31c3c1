import Bindery.Proofs.Canonical.Agreement

/-!
# The cases of a merge

Two types are either left as they are, because they are equal or the name of the first is
overridden, or they are merged on both binary interfaces. The 32-bit shapes come first, so the
64-bit shapes are to blame for a failure only if the 32-bit ones merge.

* `NativeType.mergeParts_eq_ok_iff_parts`, `NativeType.mergeParts_eq_error_iff` : what the merge on
  both interfaces gives, and how it fails;
* `NativeType.reconcile_eq_none_iff`, `NativeType.reconcile_of_not_kept` : when the first type is
  kept, and what happens otherwise;
* `Merger.merge_cases` : what a merge of instances does, in five cases.
-/

namespace Bindery

instance (o : Overrides) (name : Option TypeName) : Decidable (o.Lists name) :=
  inferInstanceAs (Decidable (∃ n ∈ name, ∃ e ∈ o.entries, e.name = n.text))

namespace NativeType

variable {overrides : Overrides} {a b c : NativeType} {e : TypeConflict}

/-! ### Both binary interfaces -/

/-- A type is merged part by part: its name, and its shape on each binary interface. -/
theorem mergeParts_eq_ok_iff_parts :
    mergeParts a b = .ok c ↔ preferredName a.name b.name = c.name ∧
      ∀ abi, (a.shape abi).merge (b.shape abi) = .ok (c.shape abi) := by
  simp only [mergeParts, bind_eq_ok_iff, pure_eq_ok_iff, mergeShapes_eq_ok_iff,
    ← Shape.merge_eq_ok_iff]
  constructor
  · rintro ⟨_, h32, _, h64, rfl⟩
    exact ⟨rfl, fun abi => by cases abi <;> assumption⟩
  · rintro ⟨hname, hshape⟩
    exact ⟨_, hshape .bits32, _, hshape .bits64, by rw [hname]; rfl⟩

theorem of_mergeParts (h : mergeParts a b = .ok c) :
    c.name = preferredName a.name b.name ∧
      ∀ abi, (a.shape abi).erase = (b.shape abi).erase ∧
        (a.shape abi).overlay (b.shape abi) = c.shape abi := by
  obtain ⟨hname, hshape⟩ := mergeParts_eq_ok_iff_parts.1 h
  exact ⟨hname.symm, fun abi => (Shape.merge_eq_ok_iff _ _).1 (hshape abi)⟩

theorem mergeShapes_eq_error_iff {abi : Abi} :
    mergeShapes abi a b = .error e ↔
      e.abi = abi ∧ e.name = TypeName.label (preferredName a.name b.name) ∧
        (a.shape abi).merge (b.shape abi) = .error e.cause := by
  rw [mergeShapes, Shape.mergeShared_eq]
  obtain ⟨name, width, cause⟩ := e
  cases (a.shape abi).merge (b.shape abi) with
  | ok t => simp [Except.mapError]
  | error d =>
    simp only [Except.mapError, Except.error.injEq, TypeConflict.mk.injEq]
    constructor
    · rintro ⟨rfl, rfl, rfl⟩
      exact ⟨rfl, rfl, rfl⟩
    · rintro ⟨rfl, rfl, rfl⟩
      exact ⟨rfl, rfl, rfl⟩

/-- A failure is about the 32-bit shapes if these disagree, and about the 64-bit shapes only if the
32-bit ones merge. -/
theorem mergeParts_eq_error_iff :
    mergeParts a b = .error e ↔
      e.name = TypeName.label (preferredName a.name b.name) ∧
        (a.shape e.abi).merge (b.shape e.abi) = .error e.cause ∧
        (e.abi = .bits64 → ∃ t, a.shape32.merge b.shape32 = .ok t) := by
  have hpure (d : NativeType) : (pure d : Except TypeConflict NativeType) ≠ .error e := nofun
  simp only [mergeParts, bind_eq_error_iff, hpure, and_false, exists_false, or_false,
    exists_and_right, mergeShapes_eq_ok_iff, ← Shape.merge_eq_ok_iff, mergeShapes_eq_error_iff]
  obtain ⟨name, abi, cause⟩ := e
  cases abi with
  | bits32 => simp
  | bits64 =>
    simp only [reduceCtorEq, false_and, false_or, true_and, forall_const]
    exact and_rotate

/-! ### The rule -/

theorem reconcile_of_not_kept (hne : a ≠ b) (hl : ¬ overrides.Lists a.name) :
    a.reconcile overrides b = some <$> mergeParts a b := by
  rw [reconcile, if_neg hne, Overrides.rule?_of_not_lists hl]

theorem reconcile_eq_none_iff :
    a.reconcile overrides b = .ok none ↔ a = b ∨ overrides.Lists a.name := by
  by_cases hne : a = b
  · simp [reconcile, hne]
  by_cases hl : overrides.Lists a.name
  · simp [reconcile, hne, hl, Overrides.rule?_of_lists hl]
  · rw [reconcile_of_not_kept hne hl]
    cases mergeParts a b <;> simp [hne, hl, Functor.map, Except.map]

theorem namesDiffer_iff : a.namesDiffer b = true ↔ ∃ x ∈ a.name, ∃ y ∈ b.name, x ≠ y := by
  unfold namesDiffer
  cases a.name <;> cases b.name <;> simp

end NativeType

/-! ### Instances -/

namespace Merger

variable (m : Merger) (s : Instances)

theorem note_of_name_eq {a b : Instance} (h : a.type.name = b.type.name) (c : Instance) :
    m.note a b c = m := by
  rw [note, if_neg]
  rw [NativeType.namesDiffer_iff, h]
  rintro ⟨x, hx, y, hy, hne⟩
  exact hne (Option.mem_unique hx hy)

/-- What a merge does. An absent operand gives way to the other. The first of two instances is kept
if their types are equal or its name is overridden. Otherwise there is a new instance of what the
types are merged into, and the merger takes a note; or the types disagree. -/
theorem merge_cases (a b : Option Instance) :
    (a = none ∧ m.merge s a b = .ok (b, m, s)) ∨ (b = none ∧ m.merge s a b = .ok (a, m, s)) ∨
      ∃ i j, a = some i ∧ b = some j ∧
        ((i.type = j.type ∨ m.overrides.Lists i.type.name) ∧ m.merge s a b = .ok (a, m, s) ∨
          (i.type ≠ j.type ∧ ¬ m.overrides.Lists i.type.name) ∧
            ((∃ c, NativeType.mergeParts i.type j.type = .ok c ∧ m.merge s a b =
                .ok (some (s.make c).1, m.note i j (s.make c).1, (s.make c).2)) ∨
              ∃ e, NativeType.mergeParts i.type j.type = .error e ∧ m.merge s a b = .error e)) := by
  match a, b with
  | none, b => exact .inl ⟨rfl, rfl⟩
  | some i, none => exact .inr (.inl ⟨rfl, rfl⟩)
  | some i, some j =>
    refine .inr (.inr ⟨i, j, rfl, rfl, ?_⟩)
    by_cases hkept : i.type = j.type ∨ m.overrides.Lists i.type.name
    · rw [merge, mergePair, NativeType.reconcile_eq_none_iff.2 hkept]
      exact .inl ⟨hkept, rfl⟩
    · obtain ⟨hne, hl⟩ := not_or.1 hkept
      rw [merge, mergePair, NativeType.reconcile_of_not_kept hne hl]
      refine .inr ⟨⟨hne, hl⟩, ?_⟩
      cases NativeType.mergeParts i.type j.type with
      | ok c => exact .inl ⟨c, rfl, rfl⟩
      | error e => exact .inr ⟨e, rfl, rfl⟩

theorem overrides_merge {m m' : Merger} {s s' : Instances} {a b r : Option Instance}
    (h : m.merge s a b = .ok (r, m', s')) :
    m'.overrides = m.overrides := by
  rcases m.merge_cases s a b with ⟨rfl, e⟩ | ⟨rfl, e⟩ |
    ⟨i, j, rfl, rfl, ⟨-, e⟩ | ⟨-, ⟨c, -, e⟩ | ⟨d, -, e⟩⟩⟩ <;> rw [e] at h <;> cases h
  · rfl
  · rfl
  · rfl
  · exact Workbench.overrides_note _ _ _ _

end Merger

end Bindery
