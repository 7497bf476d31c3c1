import Bindery.Proofs.Merger.Cases
import Bindery.Proofs.Shape.Band

/-!
# Merging types in any order of brackets

What two types are merged into absorbs both of them, whatever their names and whatever the override
table says. That the types of some sites may be merged in any order of brackets depends on the
names: where one name is overridden and another is not, it matters which of them stands first in a
merge. It does not when all types have one name, or when nothing is overridden.

* `NativeType.leftRegular_mergeParts` : types are merged name by name and shape by shape, and so
  obey the laws that names and shapes obey;
* `NativeType.absorbing_combine` : what two types are merged into absorbs both, with any overrides;
* `NativeType.leftRegular_combine_of_lists`, `NativeType.leftRegular_combine_of_not_lists` : all
  the laws, where all names are overridden and where none is;
* `Merger.mergeAll` merges bracketed instances, and `Merger.typeOf_mergeAll` says that by value this
  is merging their types;
* `Merger.merge_any_brackets` is the main result.
-/

namespace Bindery

namespace NativeType

variable {overrides : Overrides} {a b c : NativeType}

/-! ### Merging without overrides -/

/-- There is a type of any name and any two shapes. -/
theorem exists_type {Q : Abi → Shape → Prop} (name : Option TypeName)
    (h : ∀ abi, ∃ t, Q abi t) : ∃ t : NativeType, t.name = name ∧ ∀ abi, Q abi (t.shape abi) := by
  obtain ⟨t32, h32⟩ := h .bits32
  obtain ⟨t64, h64⟩ := h .bits64
  exact ⟨⟨name, t32, t64⟩, rfl, fun abi => by cases abi <;> assumption⟩

/-- Merging types part by part obeys the laws of a left-regular band. -/
theorem leftRegular_mergeParts : LeftRegular (fun _ => True) mergeParts where
  closed _ _ _ := trivial
  assoc {a b c d} _ _ _ := by
    have hassoc (abi : Abi) := Shape.leftRegular_merge.assoc (a := a.shape abi) (b := b.shape abi)
      (c := c.shape abi) (d := d.shape abi) trivial trivial trivial
    simp only [bind_eq_ok_iff] at hassoc
    simp only [bind_eq_ok_iff, mergeParts_eq_ok_iff_parts, preferredName]
    constructor
    · rintro ⟨u, ⟨hu, hab⟩, hd, huc⟩
      obtain ⟨v, hv, hbv⟩ := exists_type (b.name.or c.name)
        fun abi => (hassoc abi).1 ⟨_, hab abi, huc abi⟩
      refine ⟨v, ⟨hv.symm, fun abi => (hbv abi).1⟩, ?_, fun abi => (hbv abi).2⟩
      rw [hv, ← Option.or_assoc, hu, hd]
    · rintro ⟨v, ⟨hv, hbc⟩, hd, hav⟩
      obtain ⟨u, hu, hau⟩ := exists_type (a.name.or b.name)
        fun abi => (hassoc abi).2 ⟨_, hbc abi, hav abi⟩
      refine ⟨u, ⟨hu.symm, fun abi => (hau abi).1⟩, ?_, fun abi => (hau abi).2⟩
      rw [hu, Option.or_assoc, hv, hd]
  self a := mergeParts_eq_ok_iff_parts.2 ⟨Option.or_self, fun _ => Shape.merge_self _⟩
  again {a b c} h := by
    obtain ⟨hname, hshape⟩ := mergeParts_eq_ok_iff_parts.1 h
    refine mergeParts_eq_ok_iff_parts.2 ⟨?_, fun abi => Shape.leftRegular_merge.again (hshape abi)⟩
    rw [← hname, preferredName, preferredName]
    cases a.name <;> cases b.name <;> rfl

/-! ### Merging with overrides -/

theorem combine_of_not_lists (hl : ¬ overrides.Lists a.name) :
    combine overrides (some a) b = mergeParts a b := by
  rcases eq_or_ne a b with rfl | hne
  · rw [combine, reconcile, if_pos rfl, leftRegular_mergeParts.self]
    rfl
  · rw [combine, reconcile_of_not_kept hne hl]
    cases mergeParts a b <;> rfl

/-- The first type is kept if its name is overridden, and else the types are merged. -/
theorem of_combine (h : combine overrides (some a) b = .ok c) :
    (overrides.Lists a.name ∧ a = c) ∨ (¬ overrides.Lists a.name ∧ mergeParts a b = .ok c) := by
  by_cases hl : overrides.Lists a.name
  · exact .inl ⟨hl, Except.ok.inj ((combine_of_lists hl).symm.trans h)⟩
  · exact .inr ⟨hl, (combine_of_not_lists hl).symm.trans h⟩

/-- A type that is kept absorbs all types, and one that is not absorbs what it can be merged with
and stay the same. -/
theorem combine_of_absorbed (h : mergeParts c a = .ok c) :
    combine overrides (some c) a = .ok c := by
  by_cases hl : overrides.Lists c.name
  · exact combine_of_lists hl
  · rw [combine_of_not_lists hl, h]

/-- Whatever is overridden, what two types are merged into absorbs both. -/
theorem absorbing_combine (overrides : Overrides) :
    Absorbing fun a b => combine overrides (some a) b where
  self a := combine_of_absorbed (leftRegular_mergeParts.self a)
  again_left h := by
    obtain ⟨hl, rfl⟩ | ⟨-, hm⟩ := of_combine h
    · exact combine_of_lists hl
    · exact combine_of_absorbed (leftRegular_mergeParts.absorbing.again_left hm)
  again_right h := by
    obtain ⟨hl, rfl⟩ | ⟨-, hm⟩ := of_combine h
    · exact combine_of_lists hl
    · exact combine_of_absorbed (leftRegular_mergeParts.absorbing.again_right hm)
  again_result h := by
    obtain ⟨hl, rfl⟩ | ⟨hl, hm⟩ := of_combine h
    · exact combine_of_lists hl
    · rw [combine_of_not_lists hl, leftRegular_mergeParts.absorbing.again_result hm]

/-- Among types with names that are overridden the first one is kept. -/
theorem leftRegular_combine_of_lists (overrides : Overrides) :
    LeftRegular (fun a : NativeType => overrides.Lists a.name)
      fun a b => combine overrides (some a) b where
  closed ha _ h := by
    rw [combine_of_lists ha] at h
    exact Except.ok.inj h ▸ ha
  assoc ha hb _ := by
    simp [bind_eq_ok_iff, combine_of_lists ha, combine_of_lists hb]
  self := (absorbing_combine overrides).self
  again := (absorbing_combine overrides).again_left

/-- The name of a merged type is overridden only if that of an operand is. -/
theorem not_lists_of_mergeParts (h : mergeParts a b = .ok c) (ha : ¬ overrides.Lists a.name)
    (hb : ¬ overrides.Lists b.name) : ¬ overrides.Lists c.name := by
  have hname : a.name.or b.name = c.name := (mergeParts_eq_ok_iff_parts.1 h).1
  rw [← hname]
  cases hn : a.name with
  | none => simpa using hb
  | some n => simpa [hn] using ha

/-- Types with names that are not overridden are merged part by part. -/
theorem leftRegular_combine_of_not_lists (overrides : Overrides) :
    LeftRegular (fun a : NativeType => ¬ overrides.Lists a.name)
      fun a b => combine overrides (some a) b where
  closed ha hb h := by
    rw [combine_of_not_lists ha] at h
    exact not_lists_of_mergeParts h ha hb
  assoc {a b c d} ha hb hc := by
    have hassoc := leftRegular_mergeParts.assoc (a := a) (b := b) (c := c) (d := d)
      trivial trivial trivial
    simp only [bind_eq_ok_iff, combine_of_not_lists ha, combine_of_not_lists hb] at hassoc ⊢
    rw [← hassoc]
    refine exists_congr fun u => and_congr_right fun hu => ?_
    rw [combine_of_not_lists (not_lists_of_mergeParts hu ha hb)]
  self := (absorbing_combine overrides).self
  again := (absorbing_combine overrides).again_left

/-- Types that may be absent, merged by value. -/
def merge (overrides : Overrides) :
    Option NativeType → Option NativeType → Except TypeConflict (Option NativeType) :=
  withAbsent fun a b => combine overrides (some a) b

end NativeType

/-! ### Merging instances -/

namespace Merger

/-- The type that a merge of instances gives, if it gives an instance. -/
def typeOf (r : Except TypeConflict (Option Instance × Merger × Instances)) :
    Except TypeConflict (Option NativeType) :=
  r.map fun x => x.1.map Instance.type

/-- Merges bracketed instances, which may be absent. What is further to the left is merged first. -/
def mergeAll (m : Merger) (s : Instances) :
    Bracketing (Option Instance) → Except TypeConflict (Option Instance × Merger × Instances)
  | .leaf a => .ok (a, m, s)
  | .node l r => do
    let (a, m, s) ← m.mergeAll s l
    let (b, m, s) ← m.mergeAll s r
    m.merge s a b

variable {m m' : Merger} {s s' : Instances} {r : Option Instance}

/-- By value, a merge depends on the types of its operands and on the overrides alone. -/
theorem typeOf_merge (m : Merger) (s : Instances) (a b : Option Instance) :
    typeOf (m.merge s a b) =
      NativeType.merge m.overrides (a.map Instance.type) (b.map Instance.type) := by
  match a, b with
  | none, b => exact (withAbsent_none_left _).symm
  | some i, none => rfl
  | some i, some j =>
    rw [Option.map_some, Option.map_some, NativeType.merge, withAbsent, NativeType.combine,
      Merger.merge, mergePair]
    cases i.type.reconcile m.overrides j.type with
    | error e => rfl
    | ok c => cases c <;> rfl

theorem overrides_mergeAll {x : Bracketing (Option Instance)}
    (h : m.mergeAll s x = .ok (r, m', s')) : m'.overrides = m.overrides := by
  induction x generalizing m s r m' s' with
  | leaf a =>
    cases h
    rfl
  | node l r ihl ihr =>
    simp only [mergeAll, bind_eq_ok_iff, Prod.exists] at h
    obtain ⟨a, m₁, s₁, hl, b, m₂, s₂, hr, h⟩ := h
    rw [overrides_merge h, ihr hr, ihl hl]

/-- By value, what comes after a merge is a computation on types, if it uses the types alone. -/
theorem typeOf_bind {x : Except TypeConflict (Option Instance × Merger × Instances)}
    {f : Option Instance × Merger × Instances →
      Except TypeConflict (Option Instance × Merger × Instances)}
    {g : Option NativeType → Except TypeConflict (Option NativeType)}
    (h : ∀ a m s, x = .ok (a, m, s) → typeOf (f (a, m, s)) = g (a.map Instance.type)) :
    typeOf (x >>= f) = typeOf x >>= g := by
  cases x with
  | error e => rfl
  | ok y => exact h _ _ _ rfl

/-- By value, merging all of some bracketed instances is merging their types. -/
theorem typeOf_mergeAll (m : Merger) (s : Instances) (x : Bracketing (Option Instance)) :
    typeOf (m.mergeAll s x) =
      (x.map (Option.map Instance.type)).eval (NativeType.merge m.overrides) := by
  induction x generalizing m s with
  | leaf a => rfl
  | node l r ihl ihr =>
    rw [Bracketing.map, Bracketing.eval, ← ihl m s]
    refine typeOf_bind fun a m₁ s₁ hl => ?_
    -- the overrides stay, so the merges further to the right follow the same rules
    rw [← overrides_mergeAll hl, ← ihr m₁ s₁]
    refine typeOf_bind fun b m₂ s₂ hr => ?_
    rw [typeOf_merge, overrides_mergeAll hr]

/-- What types are merged into does not depend on the brackets if they all have one name, or if no
name is overridden. -/
theorem eval_merge_congr {overrides : Overrides} {x y : Bracketing (Option NativeType)}
    (hxy : x.leaves = y.leaves) (hnames : (∃ name, ∀ a ∈ x.leaves, ∀ t ∈ a, t.name = name) ∨
      overrides.entries = []) (t : Option NativeType) :
    x.eval (NativeType.merge overrides) = .ok t ↔ y.eval (NativeType.merge overrides) = .ok t := by
  have hseen : firstSeen id x.leaves = firstSeen id y.leaves := by rw [hxy]
  by_cases hall : ∀ a ∈ x.leaves, ∀ t ∈ a, overrides.Lists t.name
  · exact (NativeType.leftRegular_combine_of_lists overrides).withAbsent.eval_eq_ok_iff_of_firstSeen
      hall hseen
  · have hnone : ∀ a ∈ x.leaves, ∀ t ∈ a, ¬ overrides.Lists t.name := by
      rcases hnames with ⟨name, hname⟩ | hempty
      · -- some name is not overridden, and all names are that name
        push Not at hall
        obtain ⟨a, ha, t, ht, hl⟩ := hall
        intro b hb u hu
        rwa [hname b hb u hu, ← hname a ha t ht]
      · rintro a - t - ⟨n, -, e, he, -⟩
        rw [hempty] at he
        cases he
    exact (NativeType.leftRegular_combine_of_not_lists overrides).withAbsent
      |>.eval_eq_ok_iff_of_firstSeen hnone hseen

/-- **Types may be merged in any order of brackets.** Of instances that may be absent, merged with
any overrides:

* what two of them are merged into absorbs both, and the first of them is completed by it to the
  same;
* if they all have one name, overridden or not, or if no name is overridden, then every bracketing
  of them gives what any other gives: the same name and shapes, or no type.

Both are true by value, whatever else the merger has merged before. -/
theorem merge_any_brackets (m m' : Merger) (s s' : Instances)
    (hrules : m'.overrides = m.overrides) :
    (∀ a b c : Option Instance, typeOf (m.merge s a b) = .ok (c.map Instance.type) →
      typeOf (m'.merge s' c a) = .ok (c.map Instance.type) ∧
        typeOf (m'.merge s' c b) = .ok (c.map Instance.type) ∧
        typeOf (m'.merge s' a c) = .ok (c.map Instance.type)) ∧
      ∀ x y : Bracketing (Option Instance), x.leaves = y.leaves →
        ((∃ name, ∀ a ∈ x.leaves, ∀ i ∈ a, i.type.name = name) ∨ m.overrides.entries = []) →
        ∀ t, typeOf (m.mergeAll s x) = .ok t ↔ typeOf (m'.mergeAll s' y) = .ok t := by
  have laws := (NativeType.absorbing_combine m.overrides).withAbsent
  refine ⟨fun a b c h => ?_, fun x y hxy hnames t => ?_⟩
  · rw [typeOf_merge] at h
    simp only [typeOf_merge, hrules]
    exact ⟨laws.again_left h, laws.again_right h, laws.again_result h⟩
  · rw [typeOf_mergeAll, typeOf_mergeAll, hrules]
    refine eval_merge_congr (by rw [Bracketing.leaves_map, Bracketing.leaves_map, hxy]) ?_ t
    refine hnames.imp_left fun ⟨name, hname⟩ => ⟨name, fun a ha t ht => ?_⟩
    rw [Bracketing.leaves_map, List.mem_map] at ha
    obtain ⟨a, ha, rfl⟩ := ha
    obtain ⟨i, hi, rfl⟩ := Option.map_eq_some_iff.1 ht
    exact hname a ha i hi

/-- Three instances of one name and an absent one, in two bracketings. By the second one, the merger
has noted a collision and more instances were made. -/
theorem merge_any_brackets_point :
    let point (tag : Option String) : NativeType :=
      .make (some (.ofDeclared "Point")) (.composite .struct tag .nil) none
    let a : Instance := ⟨0, point none⟩
    let b : Instance := ⟨1, point (some "P")⟩
    let c : Instance := ⟨2, point (some "Q")⟩
    let s : Instances := ⟨#[none, none, none], []⟩
    let s' : Instances := ⟨#[none, none, none, none], []⟩
    let m : Merger := ⟨.standard, []⟩
    let m' : Merger := ⟨.standard, [⟨a, b, c⟩]⟩
    let x := Bracketing.node (.node (.leaf (some a)) (.leaf (some b)))
      (.node (.leaf none) (.leaf (some c)))
    let y := Bracketing.node (.leaf (some a))
      (.node (.leaf (some b)) (.node (.leaf none) (.leaf (some c))))
    typeOf (m.merge s (some a) (some b)) = .ok (some (point (some "P"))) ∧
      typeOf (m'.merge s' (some b) (some a)) = .ok (some (point (some "P"))) ∧
      x.leaves = y.leaves ∧
      typeOf (m.mergeAll s x) = .ok (some (point (some "P"))) ∧
      typeOf (m'.mergeAll s' y) = .ok (some (point (some "P"))) := by
  intro point a b c s s' m m' x y
  obtain ⟨habsorb, hbrackets⟩ := merge_any_brackets m m' s s' rfl
  have hmerge : typeOf (m.merge s (some a) (some b)) = .ok (some (point (some "P"))) := by
    decide +kernel
  have hx : typeOf (m.mergeAll s x) = .ok (some (point (some "P"))) := by decide +kernel
  have hnames : ∃ name, ∀ a ∈ x.leaves, ∀ i ∈ a, i.type.name = name :=
    ⟨some (.ofDeclared "Point"), by simp [x, Bracketing.leaves, a, b, c, point, NativeType.make]⟩
  exact ⟨hmerge, (habsorb (some a) (some b) (some b) hmerge).1, rfl, hx,
    (hbrackets x y rfl (.inl hnames) _).1 hx⟩

/-- Of three types the second one has a name that is overridden, and the other two have another
name. If the first two are merged first, then the third comes to be merged as well. -/
example :
    let named (name : String) (t : Shape) := some (NativeType.make (some (.ofDeclared name)) t none)
    let op := NativeType.merge (Overrides.empty.insert ⟨"B", .keepFirst, "known"⟩)
    let a := Bracketing.leaf (named "A" .object)
    let b := Bracketing.leaf (named "B" .object)
    let c := Bracketing.leaf (named "A" .classRef)
    ((Bracketing.node (.node a b) c).eval op).toOption = none ∧
      (Bracketing.node a (.node b c)).eval op = .ok (named "A" .object) := by
  decide +kernel

end Merger

end Bindery
