import Bindery.Proofs.Shape.Positions
import Mathlib.Data.List.Lex

/-!
# Where shapes disagree

When two shapes cannot be merged, the error shows two parts of them and says how these differ. Here
it is shown that it shows the parts at the first position where the shapes differ in anything but
names. Positions are in pre-order: a part comes before its own parts, and these from left to right.
Of two lists of numbers that is the one that is smaller lexicographically.

* `Shape.SameLevel` says that two shapes differ at most further down, or in names;
* `Conflict.Tells` says of two shapes what the conflict says of them, and `Conflict.Tells.unique`
  that nothing else can be said;
* `Shape.FirstDisagreement` : the two parts of an error are the first ones that differ;
* `Shape.merge_eq_error_iff` : the errors of a merge are the first disagreements;
* `Shape.merge_error_first` is the main result.
-/

namespace Bindery

/-! ### One level of a shape -/

theorem CompositeKind.eq_of_shapeKind {k l : CompositeKind} (h : k.shapeKind = l.shapeKind) :
    k = l := by
  cases k <;> cases l <;> first | rfl | cases h

theorem CompositeKind.shapeKind_struct_or_union (k : CompositeKind) :
    k.shapeKind = .struct ∨ k.shapeKind = .union := by
  cases k <;> simp [shapeKind]

namespace Shape

/-- The length, if the shape is an array. -/
def length? : Shape → Option UInt32
  | .array n _ => some n
  | _ => none

/-- The number of members, if the shape is a struct or union. -/
def arity? (t : Shape) : Option Nat := t.members?.map Members.length

theorem kind_of_primitive? {t : Shape} {p : Primitive} (h : t.primitive? = some p) :
    t.kind = .primitive := by
  rw [primitive?_eq_some_iff.1 h, kind]

theorem kind_of_length? {t : Shape} {n : UInt32} (h : t.length? = some n) : t.kind = .array := by
  cases t <;> simp_all [length?, kind]

theorem kind_of_arity? {t : Shape} {n : Nat} (h : t.arity? = some n) :
    t.kind = .struct ∨ t.kind = .union := by
  cases t with
  | composite k _ _ => exact k.shapeKind_struct_or_union
  | _ => simp [arity?, members?] at h

/-- The shapes agree at their outermost level, names apart. -/
structure SameLevel (x y : Shape) : Prop where
  kind : x.kind = y.kind
  primitive : x.primitive? = y.primitive?
  length : x.length? = y.length?
  arity : x.arity? = y.arity?

theorem SameLevel.symm {x y : Shape} (h : SameLevel x y) : SameLevel y x :=
  ⟨h.kind.symm, h.primitive.symm, h.length.symm, h.arity.symm⟩

theorem sameLevel_of_erase {x y : Shape} (h : x.erase = y.erase) : SameLevel x y := by
  have harity : x.arity? = y.arity? := by
    have := @Members.length_eq_of_erase
    cases x <;> cases y <;> grind [erase, arity?, members?]
  refine ⟨?_, ?_, ?_, harity⟩ <;>
    cases x <;> cases y <;> simp_all [erase, kind, primitive?, length?]

end Shape

namespace Conflict

/-- What a conflict says of two shapes: they are of different kinds; or else they are different
primitives, arrays of different lengths, or composites with different numbers of members. -/
def Tells : Conflict → Shape → Shape → Prop
  | .kinds k l, x, y => x.kind = k ∧ y.kind = l ∧ k ≠ l
  | .primitives p q, x, y => x.primitive? = some p ∧ y.primitive? = some q ∧ p ≠ q
  | .lengths m n, x, y => x.length? = some m ∧ y.length? = some n ∧ m ≠ n
  | .arities m n, x, y => x.kind = y.kind ∧ x.arity? = some m ∧ y.arity? = some n ∧ m ≠ n

/-- The conflict seen from the other side. -/
def swap : Conflict → Conflict
  | .kinds k l => .kinds l k
  | .primitives p q => .primitives q p
  | .lengths m n => .lengths n m
  | .arities m n => .arities n m

variable {c d : Conflict} {x y : Shape}

theorem Tells.swap (h : c.Tells x y) : c.swap.Tells y x := by
  cases c <;> simp_all [Tells, Conflict.swap, Ne.symm]

theorem Tells.not_sameLevel (h : c.Tells x y) : ¬ x.SameLevel y := by
  intro hs
  obtain ⟨hk, hp, hl, ha⟩ := hs
  cases c <;> grind [Tells]

/-- Two shapes differ in one way only. -/
theorem Tells.unique (h : c.Tells x y) (h' : d.Tells x y) : c = d := by
  cases c <;> cases d <;>
    grind [Tells, → Shape.kind_of_primitive?, → Shape.kind_of_length?, → Shape.kind_of_arity?]

end Conflict

/-- The error of the merge the other way round. -/
def MergeError.swap (e : MergeError) : MergeError := ⟨e.right, e.left, e.conflict.swap⟩

/-! ### The first position of a disagreement -/

namespace Shape

/-- The error shows the parts of two shapes at a position, and how they differ. At all positions
before it the shapes have parts that agree, or neither has one. -/
structure FirstDisagreement (a b : Shape) (p : List Nat) (e : MergeError) : Prop where
  left : a.at? p = some e.left
  right : b.at? p = some e.right
  conflict : e.conflict.Tells e.left e.right
  before : ∀ q, List.Lex (· < ·) q p → Option.Rel SameLevel (a.at? q) (b.at? q)

variable {a b x y : Shape} {p q : List Nat} {e d : MergeError}

theorem sameLevel_at_of_erase (h : a.erase = b.erase) (p : List Nat) :
    Option.Rel SameLevel (a.at? p) (b.at? p) := by
  obtain ⟨ha, hb⟩ | ⟨x, y, ha, hb, hxy⟩ := at?_of_erase h p
  · rw [ha, hb]
    exact .none
  · rw [ha, hb]
    exact .some (sameLevel_of_erase hxy)

namespace FirstDisagreement

theorem symm (h : FirstDisagreement a b p e) : FirstDisagreement b a p e.swap where
  left := h.right
  right := h.left
  conflict := h.conflict.swap
  before q hq := by
    have hrel := h.before q hq
    cases ha : a.at? q <;> cases hb : b.at? q <;> rw [ha, hb] at hrel <;> cases hrel
    · exact .none
    · exact .some (SameLevel.symm ‹_›)

/-- Where the shapes disagree first, they do not agree. -/
theorem not_sameLevel (h : FirstDisagreement a b p e) :
    ¬ Option.Rel SameLevel (a.at? p) (b.at? p) := by
  rw [h.left, h.right]
  rintro ⟨hs⟩
  exact h.conflict.not_sameLevel hs

/-- Two shapes disagree first at one position only. -/
theorem unique (h : FirstDisagreement a b p e) (h' : FirstDisagreement a b q d) :
    p = q ∧ e = d := by
  obtain rfl : p = q := by
    rcases lt_trichotomy p q with hpq | hpq | hqp
    · exact absurd (h'.before p hpq) h.not_sameLevel
    · exact hpq
    · exact absurd (h.before q hqp) h'.not_sameLevel
  obtain ⟨l, r, c⟩ := e
  obtain ⟨l', r', c'⟩ := d
  obtain rfl : l = l' := Option.some.inj (h.left.symm.trans h'.left)
  obtain rfl : r = r' := Option.some.inj (h.right.symm.trans h'.right)
  obtain rfl : c = c' := h.conflict.unique h'.conflict
  exact ⟨rfl, rfl⟩

/-- Shapes that differ at their outermost level disagree there first. -/
theorem top {c : Conflict} (h : c.Tells a b) : FirstDisagreement a b [] ⟨a, b, c⟩ where
  left := at?_nil a
  right := at?_nil b
  conflict := h
  before _ hq := absurd hq List.not_lex_nil

/-- Shapes that agree at their outermost level disagree first where the first of their parts that
disagree do so. -/
theorem below {n : Nat} (h : FirstDisagreement x y p e) (hs : SameLevel a b)
    (ha : ∀ q, a.at? (n :: q) = x.at? q) (hb : ∀ q, b.at? (n :: q) = y.at? q)
    (hbefore : ∀ m < n, ∀ q, Option.Rel SameLevel (a.at? (m :: q)) (b.at? (m :: q))) :
    FirstDisagreement a b (n :: p) e where
  left := (ha p).trans h.left
  right := (hb p).trans h.right
  conflict := h.conflict
  before
    | [], _ => by
      rw [at?_nil, at?_nil]
      exact .some hs
    | m :: q, hmq => by
      rcases List.cons_lex_cons_iff.1 hmq with hm | ⟨rfl, hq⟩
      · exact hbefore m hm q
      · rw [ha, hb]
        exact h.before q hq

end FirstDisagreement

end Shape

/-! ### The error of a merge -/

mutual

/-- Two shapes that do not merge disagree first where their error says. -/
theorem Shape.exists_firstDisagreement {a b : Shape} {e : MergeError}
    (h : a.merge b = .error e) : ∃ p, Shape.FirstDisagreement a b p e := by
  by_cases hk : a.kind = b.kind
  case neg =>
    rw [Shape.merge_of_kind_ne hk] at h
    obtain rfl := Except.error.inj h
    exact ⟨[], .top ⟨rfl, rfl, hk⟩⟩
  match a with
  | .void | .object | .classRef | .selector =>
    cases b <;> first | simp at h | grind [Shape.kind, CompositeKind.shapeKind_struct_or_union]
  | .primitive p =>
    cases b with
    | primitive q =>
      rw [Shape.merge_primitive] at h
      split_ifs at h with hpq
      obtain rfl := Except.error.inj h
      exact ⟨[], .top ⟨rfl, rfl, hpq⟩⟩
    | _ => grind [Shape.kind, CompositeKind.shapeKind_struct_or_union]
  | .pointer x =>
    cases b with
    | pointer y =>
      rw [Shape.merge_pointer, map_eq_error_iff] at h
      obtain ⟨p, hp⟩ := Shape.exists_firstDisagreement h
      refine ⟨0 :: p, hp.below ⟨rfl, rfl, rfl, rfl⟩ ?_ ?_ ?_⟩ <;> simp [Shape.at?]
    | _ => grind [Shape.kind, CompositeKind.shapeKind_struct_or_union]
  | .array m x =>
    cases b with
    | array n y =>
      rw [Shape.merge_array] at h
      split_ifs at h with hmn
      · subst hmn
        obtain ⟨p, hp⟩ := Shape.exists_firstDisagreement (map_eq_error_iff.1 h)
        refine ⟨0 :: p, hp.below ⟨rfl, rfl, rfl, rfl⟩ ?_ ?_ ?_⟩ <;> simp [Shape.at?]
      · obtain rfl := Except.error.inj h
        exact ⟨[], .top ⟨rfl, rfl, hmn⟩⟩
    | _ => grind [Shape.kind, CompositeKind.shapeKind_struct_or_union]
  | .composite k s xs =>
    cases b with
    | composite l t ys =>
      obtain rfl : k = l := CompositeKind.eq_of_shapeKind hk
      rw [Shape.merge_composite, if_pos rfl] at h
      split_ifs at h with hlen
      · obtain ⟨n, x, y, p, hx, hy, hp, hbefore⟩ :=
          Members.exists_firstDisagreement (map_eq_error_iff.1 h)
        refine ⟨n :: p, hp.below ⟨hk, rfl, rfl, congrArg some hlen⟩ ?_ ?_ ?_⟩ <;>
          simpa [Shape.at?]
      · obtain rfl := Except.error.inj h
        exact ⟨[], .top ⟨hk, rfl, rfl, hlen⟩⟩
    | _ => grind [Shape.kind, CompositeKind.shapeKind_struct_or_union]

/-- The first members that disagree are at one place in their lists, and those before it agree. -/
theorem Members.exists_firstDisagreement {xs ys : Members} {e : MergeError}
    (h : xs.merge ys = .error e) :
    ∃ n x y p, (∀ q, xs.at? n q = x.at? q) ∧ (∀ q, ys.at? n q = y.at? q) ∧
      Shape.FirstDisagreement x y p e ∧
      ∀ m < n, ∀ q, Option.Rel Shape.SameLevel (xs.at? m q) (ys.at? m q) := by
  match xs, ys with
  | .nil, _ | .cons _ _ _, .nil => simp [Members.merge] at h
  | .cons name x xs, .cons name' y ys =>
    rw [Members.merge_cons, bind_eq_error_iff] at h
    rcases h with h | ⟨z, hz, h⟩
    · obtain ⟨p, hp⟩ := Shape.exists_firstDisagreement h
      exact ⟨0, x, y, p, fun _ => by simp [Members.at?], fun _ => by simp [Members.at?], hp,
        fun m hm => absurd hm m.not_lt_zero⟩
    · rw [map_eq_error_iff] at h
      obtain ⟨n, x', y', p, hx, hy, hp, hbefore⟩ := Members.exists_firstDisagreement h
      have hxy : x.erase = y.erase := ((Shape.merge_eq_ok_iff x y).1 hz).1
      refine ⟨n + 1, x', y', p, fun q => ?_, fun q => ?_, hp, fun m hm q => ?_⟩
      · rw [Members.at?, hx]
      · rw [Members.at?, hy]
      · cases m with
        | zero =>
          rw [Members.at?, Members.at?]
          exact Shape.sameLevel_at_of_erase hxy q
        | succ m =>
          rw [Members.at?, Members.at?]
          exact hbefore m (Nat.lt_of_succ_lt_succ hm) q

end

namespace Shape

variable {a b : Shape} {e : MergeError}

/-- **The errors of a merge are the first disagreements.** -/
theorem merge_eq_error_iff : a.merge b = .error e ↔ ∃ p, FirstDisagreement a b p e := by
  constructor
  · exact exists_firstDisagreement
  · rintro ⟨p, hp⟩
    cases hm : a.merge b with
    | ok c =>
      have herase : a.erase = b.erase := ((merge_eq_ok_iff a b).1 hm).1
      exact absurd (sameLevel_at_of_erase herase p) hp.not_sameLevel
    | error d =>
      obtain ⟨q, hq⟩ := exists_firstDisagreement hm
      rw [(hq.unique hp).2]

/-- **The error of a merge names the first disagreement.** Two shapes that do not merge have parts
at a common position, the two that the error shows. These differ as its conflict says, in kind, or
else in primitive, length or number of members. At every position before it in pre-order, both
shapes agree in all of these. There is only one such position and one such error, and merged the
other way round the shapes give the same error with its sides exchanged. -/
theorem merge_error_first (h : a.merge b = .error e) :
    (∃ p, a.at? p = some e.left ∧ b.at? p = some e.right ∧ e.conflict.Tells e.left e.right ∧
      (∀ q, List.Lex (· < ·) q p → Option.Rel SameLevel (a.at? q) (b.at? q)) ∧
      ∀ q d, FirstDisagreement a b q d → q = p ∧ d = e) ∧
      b.merge a = .error e.swap := by
  obtain ⟨p, hp⟩ := merge_eq_error_iff.1 h
  refine ⟨⟨p, hp.left, hp.right, hp.conflict, hp.before, fun q d hq => hq.unique hp⟩, ?_⟩
  exact merge_eq_error_iff.2 ⟨p, hp.symm⟩

/-- The types behind two pointers disagree; the tag and the member name that come before do not
matter. -/
theorem merge_error_first_pointees :
    let a := composite .struct (some "P") (.cons none (.primitive .int)
      (.cons none (.array 3 (.pointer (.primitive .char))) .nil))
    let b := composite .struct none (.cons (some "n") (.primitive .int)
      (.cons none (.array 3 (.pointer .void)) .nil))
    let e : MergeError := ⟨.primitive .char, .void, .kinds .primitive .void⟩
    a.merge b = .error e ∧
      (∃ p, a.at? p = some e.left ∧ b.at? p = some e.right ∧ e.conflict.Tells e.left e.right ∧
        (∀ q, List.Lex (· < ·) q p → Option.Rel SameLevel (a.at? q) (b.at? q)) ∧
        ∀ q d, FirstDisagreement a b q d → q = p ∧ d = e) ∧
      b.merge a = .error e.swap := by
  intro a b e
  have hm : a.merge b = .error e := rfl
  exact ⟨hm, merge_error_first hm⟩

end Shape

end Bindery
