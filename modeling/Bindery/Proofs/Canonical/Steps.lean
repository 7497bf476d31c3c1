import Bindery.Canonical

/-!
# The steps of a run

A run takes one site of a name after the other, and then one name after the other. What all these
steps keep, the run keeps. Here the steps are taken apart once, so that an invariant of a run is
shown by looking at one step.

* `Workbench.mergeSite_cases` : what the merge of one site does;
* `Workbench.fold_invariant` : what the merges of sites keep, the fold over the sites keeps;
* `Workbench.typesOf_invariant` : what the names of a run keep one by one, the run keeps.
-/

namespace Bindery

namespace Workbench

variable {w : Workbench} {name : Option TypeName}

/-- The instance that a merge gave, if it gave one. -/
def given? {ε : Type} (r : Except ε (Option Instance)) : Option Instance := r.toOption.join

@[simp]
theorem given?_ok {ε : Type} (r : Option Instance) : given? (.ok r : Except ε _) = r := rfl

@[simp]
theorem given?_error {ε : Type} (e : ε) : given? (.error e) = none := rfl

/-- What the merge of a site does. The first site of a name gives a new instance of its type. At
every other there is a conflict, or the instance so far is kept, or a new instance is made of the
type that the two are merged into, and the merger takes a note. -/
theorem mergeSite_cases (w : Workbench) (sofar : Option Instance) (t : NativeType) :
    let i := (w.instances.make t).1
    let s := (w.instances.make t).2
    (sofar = none ∧ w.mergeSite sofar t = (.ok (some i), { w with instances := s })) ∨
      ∃ a, sofar = some a ∧
        ((∃ e, a.type.reconcile w.merger.overrides t = .error e ∧
            w.mergeSite sofar t = (.error e, { w with instances := s })) ∨
          a.type.reconcile w.merger.overrides t = .ok none ∧
            w.mergeSite sofar t = (.ok (some a), { w with instances := s }) ∨
          ∃ c, a.type.reconcile w.merger.overrides t = .ok (some c) ∧
            w.mergeSite sofar t = (.ok (some (s.make c).1),
              { w with instances := (s.make c).2, merger := w.merger.note a i (s.make c).1 })) := by
  intro i s
  cases sofar with
  | none => exact .inl ⟨rfl, rfl⟩
  | some a =>
    refine .inr ⟨a, rfl, ?_⟩
    simp only [mergeSite, Merger.merge, Merger.mergePair]
    cases hr : a.type.reconcile w.merger.overrides (w.instances.make t).1.type with
    | error e => exact .inl ⟨e, hr, rfl⟩
    | ok c =>
      cases c with
      | none => exact .inr (.inl ⟨hr, rfl⟩)
      | some c => exact .inr (.inr ⟨c, hr, rfl⟩)

/-- What the merges of sites keep of a workbench and the instance so far, the fold over the sites
keeps. After a failure there is no instance any more. -/
theorem fold_invariant {P : Workbench → Option Instance → Prop}
    (hdrop : ∀ {w i}, P w i → P w none)
    (hstep : ∀ {w sofar s t}, SiteShapes.type name s = .ok t → P w sofar →
      P (w.mergeSite sofar t).2 (given? (w.mergeSite sofar t).1))
    (sofar : Option Instance) (h : P w sofar) (sites : List SiteShapes) :
    P (fold name w sofar sites).2 (given? (fold name w sofar sites).1) := by
  induction sites generalizing w sofar with
  | nil => exact h
  | cons s rest ih =>
    rw [fold]
    cases ht : s.type name with
    | error e => exact hdrop h
    | ok t =>
      have hm := hstep ht h
      cases hr : w.mergeSite sofar t with
      | mk r w' =>
        rw [hr] at hm
        simp only [hr]
        cases r with
        | error e => exact hm
        | ok merged => exact ih merged hm

/-- What the names keep of a workbench and the types so far, one by one, a run over them keeps. A
name merges its sites, and then has a type, which is interned, or has none. -/
theorem typesOf_invariant {P : Workbench → List Instance → Prop}
    (hnone : ∀ {w ts} (g : NameGroup), P w ts → P (fold g.key.name? w none g.sites).2 ts)
    (hsome : ∀ {w ts i} (g : NameGroup), g.failed = false →
      (fold g.key.name? w none g.sites).1 = .ok (some i) → P w ts →
      P ((fold g.key.name? w none g.sites).2.adopt i).2
        (ts ++ [((fold g.key.name? w none g.sites).2.adopt i).1]))
    (ts : List Instance) (h : P w ts) (gs : List NameGroup) :
    P (w.typesOf gs).2 (ts ++ (w.typesOf gs).1.types) := by
  induction gs generalizing w ts with
  | nil => simpa [typesOf] using h
  | cons g gs ih =>
    rw [typesOf]
    by_cases hf : g.failed
    · rw [if_pos hf]
      exact ih ts h
    · rw [if_neg hf]
      have hpass := hnone g h
      have hadopt := fun i hi => hsome (i := i) g (Bool.eq_false_iff.2 hf) hi h
      cases hr : fold g.key.name? w none g.sites with
      | mk r w' =>
        rw [hr] at hpass hadopt
        obtain e | _ | i := r
        · exact ih ts hpass
        · exact ih ts hpass
        · have hrest := ih _ (hadopt i rfl)
          rwa [List.append_assoc] at hrest

end Workbench

end Bindery
