import Bindery.Except
import Bindery.Proofs.FirstSeen

/-!
# Operations that need no brackets

Some values are put together two at a time. The order in which this is done is a `Bracketing` of the
values. With an operation that may fail, the choice of a bracketing might decide whether there is a
result at all, and which.

* `Bracketing.eval` puts the values of a bracketing together, and `FoldsTo` is the same for a list,
  from the left;
* `LeftRegular` states the laws of a left-regular band for an operation that may fail, and
  `Absorbing` that operands that come again add nothing;
* `LeftRegular.eval_eq_ok_iff` : under these laws every bracketing gives what the list of its values
  gives;
* `LeftRegular.foldsTo_firstSeen` : a value that comes again adds nothing, so only the order of the
  first occurrences counts (`LeftRegular.eval_eq_ok_iff_of_firstSeen`);
* `withAbsent` lets operands be absent, and keeps all of this.
-/

namespace Bindery

variable {α β ε : Type}

/-! ### Bracketings -/

/-- A way to put some values together, two at a time and in their order. -/
inductive Bracketing (α : Type) where
  | leaf (a : α)
  | node (left right : Bracketing α)

namespace Bracketing

/-- The values from left to right. -/
def leaves : Bracketing α → List α
  | leaf a => [a]
  | node l r => l.leaves ++ r.leaves

/-- Other values, bracketed alike. -/
def map (f : α → β) : Bracketing α → Bracketing β
  | leaf a => leaf (f a)
  | node l r => node (l.map f) (r.map f)

/-- Puts the values together. -/
def eval (op : α → α → Except ε α) : Bracketing α → Except ε α
  | leaf a => .ok a
  | node l r => do
    let a ← l.eval op
    let b ← r.eval op
    op a b

theorem leaves_ne_nil (t : Bracketing α) : t.leaves ≠ [] := by
  cases t with
  | leaf a => simp [leaves]
  | node l r => simp [leaves, leaves_ne_nil l]

theorem leaves_map (f : α → β) (t : Bracketing α) : (t.map f).leaves = t.leaves.map f := by
  induction t with
  | leaf a => rfl
  | node l r ihl ihr => simp [map, leaves, ihl, ihr]

end Bracketing

/-! ### Lists from the left -/

/-- The values of the list, put together from the left, give `c`. -/
def FoldsTo (op : α → α → Except ε α) (xs : List α) (c : α) : Prop :=
  ∃ a as, xs = a :: as ∧ as.foldlM op a = .ok c

section FoldsTo

variable {op : α → α → Except ε α} {xs ys : List α} {c x : α}

theorem foldsTo_singleton : FoldsTo op [x] c ↔ x = c := by
  simp [FoldsTo, pure_eq_ok_iff]

theorem foldsTo_append (hne : xs ≠ []) :
    FoldsTo op (xs ++ ys) c ↔ ∃ u, FoldsTo op xs u ∧ ys.foldlM op u = .ok c := by
  obtain ⟨a, as, rfl⟩ := List.exists_cons_of_ne_nil hne
  simp [FoldsTo, bind_eq_ok_iff]

theorem foldsTo_append_singleton (hne : xs ≠ []) :
    FoldsTo op (xs ++ [x]) c ↔ ∃ u, FoldsTo op xs u ∧ op u x = .ok c := by
  simp [foldsTo_append hne]

end FoldsTo

/-! ### The laws -/

/-- The laws of a left-regular band, for an operation that may fail: it is associative on the
values with a property, which it keeps, and an operand that comes again adds nothing. -/
structure LeftRegular (P : α → Prop) (op : α → α → Except ε α) : Prop where
  closed : ∀ {a b c}, P a → P b → op a b = .ok c → P c
  assoc : ∀ {a b c d}, P a → P b → P c →
    ((op a b >>= fun u => op u c) = .ok d ↔ (op b c >>= op a) = .ok d)
  self : ∀ a, op a a = .ok a
  again : ∀ {a b c}, op a b = .ok c → op c a = .ok c

/-- What comes again adds nothing: an operand, or the result of the operation. -/
structure Absorbing (op : α → α → Except ε α) : Prop where
  self : ∀ a, op a a = .ok a
  again_left : ∀ {a b c}, op a b = .ok c → op c a = .ok c
  again_right : ∀ {a b c}, op a b = .ok c → op c b = .ok c
  again_result : ∀ {a b c}, op a b = .ok c → op a c = .ok c

namespace LeftRegular

variable {P : α → Prop} {op : α → α → Except ε α} {a b c x : α} {xs : List α}

/-- The second operand adds nothing when it comes again. -/
theorem again_right (h : LeftRegular P op) (ha : P a) (hb : P b) (hab : op a b = .ok c) :
    op c b = .ok c := by
  have hassoc := (h.assoc (d := c) ha hb hb).2
  rw [h.self b] at hassoc
  rw [hab] at hassoc
  exact hassoc hab

/-- The result adds nothing to the first operand but what it has from the second. -/
theorem again_result (h : LeftRegular P op) (ha : P a) (hb : P b) (hab : op a b = .ok c) :
    op a c = .ok c := by
  have hassoc := (h.assoc (d := c) ha ha hb).1
  rw [h.self a, hab] at hassoc
  exact hassoc hab

theorem absorbing (h : LeftRegular (fun _ => True) op) : Absorbing op where
  self := h.self
  again_left := h.again
  again_right := h.again_right trivial trivial
  again_result := h.again_result trivial trivial

/-- What a value has absorbed it still absorbs after one more value. -/
theorem absorbs_op (h : LeftRegular P op) (ha : P a) (hb : P b) (hx : P x)
    (hax : op a x = .ok a) (hab : op a b = .ok c) : op c x = .ok c := by
  -- `c` is `a` with `x` and `b`, and `x` comes again behind these two
  obtain ⟨v, hv, hav⟩ : ∃ v, op x b = .ok v ∧ op a v = .ok c := by
    have hassoc := (h.assoc (d := c) ha hx hb).1
    rw [hax] at hassoc
    exact bind_eq_ok_iff.1 (hassoc hab)
  have hassoc := (h.assoc (d := c) ha (h.closed hx hb hv) hx).2
  rw [h.again hv, hav] at hassoc
  exact hassoc hav

theorem closed_foldlM (h : LeftRegular P op) (ha : P a) (hxs : ∀ x ∈ xs, P x)
    (hc : xs.foldlM op a = .ok c) : P c := by
  induction xs generalizing a with
  | nil => exact pure_eq_ok_iff.1 hc ▸ ha
  | cons x xs ih =>
    obtain ⟨hx, hxs⟩ := List.forall_mem_cons.1 hxs
    rw [List.foldlM_cons, bind_eq_ok_iff] at hc
    obtain ⟨u, hu, hc⟩ := hc
    exact ih (h.closed ha hx hu) hxs hc

theorem closed_eval (h : LeftRegular P op) {t : Bracketing α} (ht : ∀ x ∈ t.leaves, P x)
    (hc : t.eval op = .ok c) : P c := by
  induction t generalizing c with
  | leaf a =>
    obtain rfl := Except.ok.inj hc
    exact ht a (by simp [Bracketing.leaves])
  | node l r ihl ihr =>
    obtain ⟨hl, hr⟩ := List.forall_mem_append.1 ht
    simp only [Bracketing.eval, bind_eq_ok_iff] at hc
    obtain ⟨u, hu, v, hv, hc⟩ := hc
    exact h.closed (ihl hl hu) (ihr hr hv) hc

/-! ### Bracketing does not matter -/

/-- Behind another value, what is bracketed can as well be put in value by value. -/
theorem eval_bind_eq_ok_iff (h : LeftRegular P op) {t : Bracketing α} (ht : ∀ x ∈ t.leaves, P x)
    (ha : P a) : (t.eval op >>= op a) = .ok c ↔ t.leaves.foldlM op a = .ok c := by
  induction t generalizing a c with
  | leaf b => simp [Bracketing.eval, Bracketing.leaves, bind_eq_ok_iff]
  | node l r ihl ihr =>
    obtain ⟨hl, hr⟩ := List.forall_mem_append.1 ht
    have hassoc {u v : α} (hu : l.eval op = .ok u) (hv : r.eval op = .ok v) :
        (op u v >>= op a) = .ok c ↔ (op a u >>= fun w => op w v) = .ok c :=
      (h.assoc ha (h.closed_eval hl hu) (h.closed_eval hr hv)).symm
    calc ((Bracketing.node l r).eval op >>= op a) = .ok c
        ↔ ∃ u, l.eval op = .ok u ∧ ∃ v, r.eval op = .ok v ∧ (op u v >>= op a) = .ok c := by
          simp only [Bracketing.eval, bind_assoc, bind_eq_ok_iff]
      _ ↔ ∃ w, (l.eval op >>= op a) = .ok w ∧ (r.eval op >>= op w) = .ok c := by
          simp only [bind_eq_ok_iff] at hassoc ⊢
          constructor
          · rintro ⟨u, hu, v, hv, hc⟩
            obtain ⟨w, hw, hc⟩ := (hassoc hu hv).1 hc
            exact ⟨w, ⟨u, hu, hw⟩, v, hv, hc⟩
          · rintro ⟨w, ⟨u, hu, hw⟩, v, hv, hc⟩
            exact ⟨u, hu, v, hv, (hassoc hu hv).2 ⟨w, hw, hc⟩⟩
      _ ↔ ∃ w, l.leaves.foldlM op a = .ok w ∧ r.leaves.foldlM op w = .ok c := by
          refine exists_congr fun w => ?_
          rw [ihl hl ha]
          exact and_congr_right fun hw => ihr hr (h.closed_foldlM ha hl hw)
      _ ↔ (Bracketing.node l r).leaves.foldlM op a = .ok c := by
          rw [Bracketing.leaves, List.foldlM_append, bind_eq_ok_iff]

/-- **Bracketing does not matter.** A bracketing gives what the list of its values gives. -/
theorem eval_eq_ok_iff (h : LeftRegular P op) {t : Bracketing α} (ht : ∀ x ∈ t.leaves, P x) :
    t.eval op = .ok c ↔ FoldsTo op t.leaves c := by
  induction t generalizing c with
  | leaf a =>
    rw [Bracketing.leaves, foldsTo_singleton]
    exact Except.ok.injEq a c ▸ Iff.rfl
  | node l r ihl ihr =>
    obtain ⟨hl, hr⟩ := List.forall_mem_append.1 ht
    rw [Bracketing.leaves, foldsTo_append l.leaves_ne_nil, Bracketing.eval, bind_eq_ok_iff]
    refine exists_congr fun u => ?_
    rw [← ihl hl]
    exact and_congr_right fun hu => h.eval_bind_eq_ok_iff hr (h.closed_eval hl hu)

/-! ### Repetition does not matter -/

theorem closed_foldsTo (h : LeftRegular P op) (hxs : ∀ x ∈ xs, P x) (hc : FoldsTo op xs c) :
    P c := by
  obtain ⟨a, as, rfl, hc⟩ := hc
  obtain ⟨ha, has⟩ := List.forall_mem_cons.1 hxs
  exact h.closed_foldlM ha has hc

/-- What some values give has absorbed each of them. -/
theorem absorbs_of_foldsTo (h : LeftRegular P op) (hxs : ∀ x ∈ xs, P x) (hc : FoldsTo op xs c)
    (hx : x ∈ xs) : op c x = .ok c := by
  induction xs using List.reverseRecOn generalizing c with
  | nil => simp at hx
  | append_singleton xs y ih =>
    obtain ⟨hxs, hy⟩ := List.forall_mem_append.1 hxs
    replace hy : P y := hy y (by simp)
    rcases eq_or_ne xs [] with rfl | hne
    · obtain rfl : x = y := by simpa using hx
      obtain rfl := foldsTo_singleton.1 hc
      exact h.self x
    · obtain ⟨u, hu, hc⟩ := (foldsTo_append_singleton hne).1 hc
      have hPu : P u := h.closed_foldsTo hxs hu
      rcases List.mem_append.1 hx with hx | hx
      · exact h.absorbs_op hPu hy (hxs x hx) (ih hxs hu hx) hc
      · obtain rfl := List.mem_singleton.1 hx
        exact h.again_right hPu hy hc

/-- **Repetition does not matter.** Only the first occurrence of each value counts. -/
theorem foldsTo_firstSeen [DecidableEq α] (h : LeftRegular P op) (hxs : ∀ x ∈ xs, P x) :
    FoldsTo op (firstSeen id xs) c ↔ FoldsTo op xs c := by
  induction xs using List.reverseRecOn generalizing c with
  | nil => rfl
  | append_singleton xs x ih =>
    obtain ⟨hxs, -⟩ := List.forall_mem_append.1 hxs
    rcases eq_or_ne xs [] with rfl | hne
    · rfl
    rw [firstSeen_append_singleton, foldsTo_append_singleton hne]
    split_ifs with hmem
    · -- the value was there before, so it changes nothing
      have hx : x ∈ xs := by simpa [mem_firstSeen] using hmem
      rw [ih hxs]
      constructor
      · exact fun hc => ⟨c, hc, h.absorbs_of_foldsTo hxs hc hx⟩
      · rintro ⟨u, hu, huc⟩
        rw [h.absorbs_of_foldsTo hxs hu hx] at huc
        exact Except.ok.inj huc ▸ hu
    · have hne' : firstSeen id xs ≠ [] := by
        obtain ⟨y, hy⟩ := List.exists_mem_of_ne_nil xs hne
        exact List.ne_nil_of_mem ((mem_firstSeen id).2 ⟨y, hy, rfl⟩)
      rw [foldsTo_append_singleton hne']
      exact exists_congr fun u => and_congr_left fun _ => ih hxs

/-- **Two bracketings whose values first occur in the same order** give the same. -/
theorem eval_eq_ok_iff_of_firstSeen [DecidableEq α] (h : LeftRegular P op) {s t : Bracketing α}
    (hs : ∀ x ∈ s.leaves, P x) (hst : firstSeen id s.leaves = firstSeen id t.leaves) :
    s.eval op = .ok c ↔ t.eval op = .ok c := by
  have ht : ∀ x ∈ t.leaves, P x := by
    intro x hx
    have hx : x ∈ firstSeen id t.leaves := (mem_firstSeen id).2 ⟨x, hx, rfl⟩
    obtain ⟨y, hy, rfl⟩ := (mem_firstSeen id).1 (hst ▸ hx)
    exact hs y hy
  rw [h.eval_eq_ok_iff hs, h.eval_eq_ok_iff ht, ← h.foldsTo_firstSeen hs, hst,
    h.foldsTo_firstSeen ht]

end LeftRegular

/-! ### Absent operands -/

/-- The operation on values that may be absent. An absent one gives way to the other. -/
def withAbsent (op : α → α → Except ε α) : Option α → Option α → Except ε (Option α)
  | none, b => .ok b
  | a, none => .ok a
  | some a, some b => some <$> op a b

section WithAbsent

variable {P : α → Prop} {op : α → α → Except ε α}

theorem withAbsent_none_left (b : Option α) : withAbsent op none b = .ok b := by
  cases b <;> rfl

theorem withAbsent_none_right (a : Option α) : withAbsent op a none = .ok a := by
  cases a <;> rfl

theorem withAbsent_some {a b c : α} :
    withAbsent op (some a) (some b) = .ok (some c) ↔ op a b = .ok c := by
  simp [withAbsent, map_eq_ok_iff]

/-- What an operation gives on values that may be absent. -/
theorem of_withAbsent {a b c : Option α} (h : withAbsent op a b = .ok c) :
    (a = none ∧ b = c) ∨ (b = none ∧ a = c) ∨
      ∃ x y z, a = some x ∧ b = some y ∧ c = some z ∧ op x y = .ok z := by
  cases a with
  | none => exact .inl ⟨rfl, Except.ok.inj ((withAbsent_none_left b).symm.trans h)⟩
  | some x =>
    cases b with
    | none => exact .inr (.inl ⟨rfl, Except.ok.inj h⟩)
    | some y =>
      obtain ⟨z, hz, rfl⟩ := map_eq_ok_iff.1 h
      exact .inr (.inr ⟨x, y, z, rfl, rfl, rfl, hz⟩)

theorem withAbsent_self (h : ∀ a, op a a = .ok a) (a : Option α) : withAbsent op a a = .ok a := by
  cases a with
  | none => rfl
  | some a => exact withAbsent_some.2 (h a)

theorem withAbsent_again (hself : ∀ a, op a a = .ok a)
    (hagain : ∀ {a b c}, op a b = .ok c → op c a = .ok c) {a b c : Option α}
    (h : withAbsent op a b = .ok c) : withAbsent op c a = .ok c := by
  obtain ⟨rfl, rfl⟩ | ⟨rfl, rfl⟩ | ⟨x, y, z, rfl, rfl, rfl, hz⟩ := of_withAbsent h
  · exact withAbsent_none_right b
  · exact withAbsent_self hself a
  · exact withAbsent_some.2 (hagain hz)

theorem Absorbing.withAbsent (h : Absorbing op) : Absorbing (withAbsent op) where
  self := withAbsent_self h.self
  again_left := withAbsent_again h.self h.again_left
  again_right {a b c} hc := by
    obtain ⟨rfl, rfl⟩ | ⟨rfl, rfl⟩ | ⟨x, y, z, rfl, rfl, rfl, hz⟩ := of_withAbsent hc
    · exact withAbsent_self h.self b
    · exact withAbsent_none_right a
    · exact withAbsent_some.2 (h.again_right hz)
  again_result {a b c} hc := by
    obtain ⟨rfl, rfl⟩ | ⟨rfl, rfl⟩ | ⟨x, y, z, rfl, rfl, rfl, hz⟩ := of_withAbsent hc
    · exact withAbsent_none_left b
    · exact withAbsent_self h.self a
    · exact withAbsent_some.2 (h.again_result hz)

theorem LeftRegular.withAbsent (h : LeftRegular P op) :
    LeftRegular (fun a => ∀ x ∈ a, P x) (withAbsent op) where
  closed {a b c} ha hb hc := by
    obtain ⟨rfl, rfl⟩ | ⟨rfl, rfl⟩ | ⟨x, y, z, rfl, rfl, rfl, hz⟩ := of_withAbsent hc
    · exact hb
    · exact ha
    · rintro _ ⟨⟩
      exact h.closed (ha x rfl) (hb y rfl) hz
  assoc {a b c d} ha hb hc := by
    match a, b, c with
    | none, b, c => simp [withAbsent_none_left, bind_eq_ok_iff]
    | some a, none, c => simp [withAbsent_none_left, withAbsent_none_right, bind_eq_ok_iff]
    | some a, some b, none => simp [withAbsent_none_right, bind_eq_ok_iff]
    | some a, some b, some c =>
      have hleft : (Bindery.withAbsent op (some a) (some b) >>= fun u =>
          Bindery.withAbsent op u (some c)) = some <$> (op a b >>= fun u => op u c) := by
        rw [Bindery.withAbsent]
        cases op a b <;> rfl
      have hright : (Bindery.withAbsent op (some b) (some c) >>=
          Bindery.withAbsent op (some a)) = some <$> (op b c >>= op a) := by
        rw [Bindery.withAbsent]
        cases op b c <;> rfl
      rw [hleft, hright, map_eq_ok_iff, map_eq_ok_iff]
      exact exists_congr fun d => and_congr_left fun _ =>
        h.assoc (ha a rfl) (hb b rfl) (hc c rfl)
  self := withAbsent_self h.self
  again := withAbsent_again h.self h.again

end WithAbsent

end Bindery
