import Bindery.Proofs.Shape.RoundTrip
import Bindery.Registry

/-!
# The order of types

Types are sorted by the text that shows them. Here it is shown that this text tells types apart, so
that the sorted list of some types does not depend on the order in which they came.

* `Shape.Printable.eq_of_encodeOnto` : unique readability, what stands in front of a text can be
  read off in one way only;
* `NativeType.Printable.display_eq_iff` : the text that shows a type can be taken apart, as the name
  in front of it holds no blank;
* `NativeType.order` is a transitive comparison, and `NativeType.Printable.eq_of_order` says that it
  has no ties between different types;
* `NativeType.order_eq_iff_eq` : the order agrees with equality;
* `FrozenRegistry.types_sorted`, `types_sorted_of_perm`, `types_sorted_eq` : sorting by value.
-/

namespace Bindery

/-! ### Unique readability -/

/-- **Unique readability.** If two printable shapes are written in front of two texts and the
results are equal, then so are the shapes and the texts. -/
theorem Shape.Printable.eq_of_encodeOnto {t u : Shape} (ht : t.Printable) (hu : u.Printable)
    {x y : List Char} (h : t.encodeOnto x = u.encodeOnto y) : t = u ∧ x = y := by
  have hread := (ht.spells x).read _ (Nat.lt_succ_self _)
  have hread' := (hu.spells y).read _ (Nat.lt_succ_self _)
  rw [h, hread'] at hread
  simpa [eq_comm] using hread

theorem Shape.Printable.eq_of_encode_append {t u : Shape} (ht : t.Printable) (hu : u.Printable)
    {x y : String} (h : t.encode ++ x = u.encode ++ y) : t = u ∧ x = y := by
  have hchars := congrArg String.toList h
  rw [String.toList_append, String.toList_append, Shape.toList_encode, Shape.toList_encode,
    ← Shape.encodeOnto_eq, ← Shape.encodeOnto_eq] at hchars
  obtain ⟨rfl, hrest⟩ := ht.eq_of_encodeOnto hu hchars
  exact ⟨rfl, String.toList_inj.1 hrest⟩

/-! ### Names in front of a blank -/

theorem TypeName.solid_anonymous : ∀ c ∈ TypeName.anonymous.toList, Text.isBlank c = false := by
  have hall : (TypeName.anonymous.toList.all fun c => !Text.isBlank c) = true := by decide +kernel
  intro c hc
  simpa using List.all_eq_true.1 hall c hc

theorem TypeName.solid_label {n : Option TypeName} :
    ∀ c ∈ (TypeName.label n).toList, Text.isBlank c = false := by
  cases n with
  | none => exact TypeName.solid_anonymous
  | some n => exact n.solid

/-- A text without blanks ends at the first blank behind it. -/
theorem eq_of_append_blank {xs ys x y : List Char} (hxs : ∀ c ∈ xs, Text.isBlank c = false)
    (hys : ∀ c ∈ ys, Text.isBlank c = false) (h : xs ++ ' ' :: x = ys ++ ' ' :: y) :
    xs = ys ∧ x = y := by
  have hblank : ∀ cs : List Char, ∀ c ∈ (' ' :: cs).head?, (!Text.isBlank c) = false := by
    rintro cs c ⟨⟩
    decide
  have hspan : ∀ {zs : List Char}, (∀ c ∈ zs, Text.isBlank c = false) → ∀ z : List Char,
      (zs ++ ' ' :: z).takeWhile (fun c => !Text.isBlank c) = zs ∧
        (zs ++ ' ' :: z).dropWhile (fun c => !Text.isBlank c) = ' ' :: z := fun hzs z =>
    span_append (fun c hc => by simp [hzs c hc]) (' ' :: z) (hblank z)
  obtain ⟨htaken, hrest⟩ := hspan hxs x
  rw [h] at htaken hrest
  exact ⟨htaken.symm.trans (hspan hys y).1,
    List.tail_eq_of_cons_eq (hrest.symm.trans (hspan hys y).2)⟩

namespace NativeType

/-- The shapes on both binary interfaces are printable. -/
structure Printable (t : NativeType) : Prop where
  shape32 : t.shape32.Printable
  shape64 : t.shape64.Printable

variable {t u : NativeType}

theorem toList_display (t : NativeType) :
    t.display.toList = (TypeName.label t.name).toList ++
      (' ' :: '(' :: t.shape32.encodeOnto
        (' ' :: '/' :: ' ' :: t.shape64.encodeOnto [')'])) := by
  simp [display, Shape.encodeOnto_eq]

/-- Types are shown alike exactly when their names are, and they have the same shapes. -/
theorem Printable.display_eq_iff (ht : t.Printable) (hu : u.Printable) :
    t.display = u.display ↔
      TypeName.label t.name = TypeName.label u.name ∧ t.shape32 = u.shape32 ∧
        t.shape64 = u.shape64 := by
  constructor
  · intro h
    have hchars := congrArg String.toList h
    rw [toList_display, toList_display] at hchars
    obtain ⟨hname, hrest⟩ := eq_of_append_blank TypeName.solid_label TypeName.solid_label hchars
    obtain ⟨h32, hrest⟩ := ht.shape32.eq_of_encodeOnto hu.shape32 (List.cons.inj hrest).2
    obtain ⟨h64, -⟩ := ht.shape64.eq_of_encodeOnto hu.shape64 (by simpa using hrest)
    exact ⟨String.toList_inj.1 hname, h32, h64⟩
  · rintro ⟨hname, h32, h64⟩
    rw [display, display, hname, h32, h64]

/-! ### The comparison -/

instance : Std.TransCmp order :=
  inferInstanceAs (Std.TransCmp (compareLex (compareOn display)
    (compareOn fun t : NativeType => t.name.map TypeName.text)))

/-- There are no ties between different types. -/
theorem Printable.eq_of_order (ht : t.Printable) (hu : u.Printable) (h : order t u = .eq) :
    t = u := by
  obtain ⟨hdisplay, hname⟩ := Ordering.then_eq_eq.1 h
  obtain ⟨-, h32, h64⟩ := (ht.display_eq_iff hu).1 (Std.LawfulEqOrd.eq_of_compare hdisplay)
  -- an absent name is shown like a name that is spelled so, and the names tell the two apart
  have htext : t.name.map TypeName.text = u.name.map TypeName.text :=
    Std.LawfulEqOrd.eq_of_compare hname
  have hinj : Function.Injective (Option.map TypeName.text) :=
    Option.map_injective fun _ _ e => TypeName.ext e
  cases t
  cases u
  exact (NativeType.mk.injEq ..).mpr ⟨hinj htext, h32, h64⟩

/-- **The order agrees with equality.** Types with printable shapes compare as equal exactly when
they are equal. What the text that shows them leaves open is whether a type has no name or is named
like the text shown for none. Behind the name, which holds no blank, stand two encodings, and an
encoding can be read off the front of a text in one way only. -/
theorem order_eq_iff_eq (ht : t.Printable) (hu : u.Printable) :
    (order t u = .eq ↔ t = u) ∧
      (t.display = u.display ↔
        TypeName.label t.name = TypeName.label u.name ∧ t.shape32 = u.shape32 ∧
          t.shape64 = u.shape64) ∧
      (∀ (a b : Shape) (x y : String), a.Printable → b.Printable →
        a.encode ++ x = b.encode ++ y → a = b ∧ x = y) ∧
      ∀ s : String, ∀ c ∈ (TypeName.ofDeclared s).text.toList, Text.isBlank c = false := by
  refine ⟨⟨ht.eq_of_order hu, ?_⟩, ht.display_eq_iff hu,
    fun a b x y ha hb h => ha.eq_of_encode_append hb h, fun s => (TypeName.ofDeclared s).solid⟩
  rintro rfl
  exact Std.ReflCmp.compare_self

/-- A type without a name and one named like it is shown, behind a tag that looks like the text
between two encodings. -/
theorem order_eq_iff_eq_placeholder :
    let shape := Shape.composite .struct (some "i / (") (.cons (some ") (") .void .nil)
    let t : NativeType := ⟨none, shape, .void⟩
    let u : NativeType := ⟨some ⟨TypeName.anonymous, TypeName.solid_anonymous⟩, shape, .void⟩
    t.Printable ∧ u.Printable ∧ t.display = u.display ∧ order t u ≠ .eq := by
  intro shape t u
  have hshape : shape.Printable := by
    simp [shape, Shape.Printable, Members.Printable, CompositeKind.closing]
  have ht : t.Printable := ⟨hshape, trivial⟩
  have hu : u.Printable := ⟨hshape, trivial⟩
  obtain ⟨horder, hdisplay, -⟩ := order_eq_iff_eq ht hu
  have hne : t ≠ u := by simp [t, u]
  exact ⟨ht, hu, hdisplay.2 ⟨rfl, rfl, rfl⟩, fun h => hne (horder.1 h)⟩

-- a tag that is not printable may tie: this one is written like an absent tag
example :
    let bare (tag : Option String) := Shape.composite .union tag .nil
    order ⟨none, bare (some "?"), .void⟩ ⟨none, bare none, .void⟩ = .eq := by
  decide +kernel

theorem order_total (t u : NativeType) : ((order t u).isLE || (order u t).isLE) = true := by
  have hswap : order u t = (order t u).swap := Std.OrientedCmp.eq_swap
  rw [hswap]
  cases order t u <;> rfl

theorem pairwise_mergeSort (ts : List NativeType) :
    (ts.mergeSort fun a b => (order a b).isLE).Pairwise fun a b => (order a b).isLE = true :=
  List.pairwise_mergeSort (fun _ _ _ => Std.TransCmp.isLE_trans) order_total ts

/-- Ascending types with no ties between different ones are what any order of them is sorted to. -/
theorem mergeSort_eq_of_pairwise {ts us : List NativeType} (h : ts.Perm us)
    (hus : us.Pairwise fun a b => (order a b).isLE = true)
    (hties : ∀ a ∈ us, ∀ b ∈ us, order a b = .eq → a = b) :
    (ts.mergeSort fun a b => (order a b).isLE) = us := by
  have hperm := (List.mergeSort_perm ts fun a b => (order a b).isLE).trans h
  refine hperm.eq_of_pairwise (fun a b ha hb hab hba => ?_) (pairwise_mergeSort ts) hus
  exact hties a (hperm.mem_iff.1 ha) b hb (Std.OrientedCmp.isLE_antisymm hab hba)

/-- Sorting gives one list for all orders of the same types. -/
theorem mergeSort_eq_of_perm {ts us : List NativeType} (h : ts.Perm us)
    (hts : ∀ t ∈ ts, t.Printable) :
    (ts.mergeSort fun a b => (order a b).isLE) = us.mergeSort fun a b => (order a b).isLE := by
  have hperm := h.trans (List.mergeSort_perm us fun a b => (order a b).isLE).symm
  refine mergeSort_eq_of_pairwise hperm (pairwise_mergeSort us) fun a ha b hb => ?_
  exact (hts a (hperm.mem_iff.2 ha)).eq_of_order (hts b (hperm.mem_iff.2 hb))

end NativeType

namespace FrozenRegistry

variable {f g : FrozenRegistry}

theorem types_sorted (f : FrozenRegistry) :
    f.sorted.map Instance.type =
      (f.pool.map Instance.type).mergeSort fun a b => (NativeType.order a b).isLE :=
  List.map_mergeSort fun _ _ _ _ => rfl

/-- The sorted types do not depend on the order of interning. -/
theorem types_sorted_of_perm (h : (f.pool.map Instance.type).Perm (g.pool.map Instance.type))
    (hf : ∀ i ∈ f.pool, i.type.Printable) :
    f.sorted.map Instance.type = g.sorted.map Instance.type := by
  rw [types_sorted, types_sorted]
  refine NativeType.mergeSort_eq_of_perm h fun t ht => ?_
  obtain ⟨i, hi, rfl⟩ := List.mem_map.1 ht
  exact hf i hi

/-- Ascending types with no ties between different ones are the sorted types. -/
theorem types_sorted_eq {ts : List NativeType} (h : (f.pool.map Instance.type).Perm ts)
    (hts : ts.Pairwise fun a b => (NativeType.order a b).isLE = true)
    (hties : ∀ a ∈ ts, ∀ b ∈ ts, NativeType.order a b = .eq → a = b) :
    f.sorted.map Instance.type = ts := by
  rw [types_sorted, NativeType.mergeSort_eq_of_pairwise h hts hties]

end FrozenRegistry

end Bindery
