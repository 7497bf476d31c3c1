import Bindery.Proofs.Output.Wrappers

/-!
# Qualified names

The name of a class with its package is put together in three places: by the header of the class, by
the mapping that refers to a wrapper, and by the table of coders. They agree in every package that
has a name. In the default package the header leaves the dot out, and the other two do not.

* `Binding.ClassHeader.dotted_of_default`, `Binding.ClassHeader.dotted_eq_qualifiedName_iff` : the
  package and the name of a class with a dot between them, against its qualified name;
* `Binding.Mapping.target_eq_ofShape` : what a type is whose target is a struct or union;
* `Binding.Mapping.target_qualified` is the main result.
-/

namespace Bindery.Binding

namespace ClassHeader

variable {h : ClassHeader}

/-- In the default package, which has no name, the dot stands in front. -/
theorem dotted_of_default (hp : h.package = "") :
    h.package ++ "." ++ h.name = "." ++ h.qualifiedName := by
  rw [qualifiedName, if_pos hp, hp, String.empty_append]

theorem dotted_eq_qualifiedName_iff :
    h.package ++ "." ++ h.name = h.qualifiedName ↔ h.package ≠ "" := by
  constructor
  · intro he hp
    have hlength := congrArg String.length ((dotted_of_default hp).symm.trans he)
    simp at hlength
  · intro hp
    rw [qualifiedName, if_neg hp]

end ClassHeader

namespace Mapping

variable {m : Mapping} {t : NativeType} {name : String}

/-- Only the 64-bit shape makes a target a struct or union. -/
theorem target_eq_ofShape (h : (m.target t).kind = .struct ∨ (m.target t).kind = .union) :
    m.target t = m.ofShape t t.shape64 ∧ ∃ k tag ms, t.shape64 = .composite k tag ms := by
  cases hmixed : t.mixed? with
  | some pq =>
    simp only [target, hmixed] at h
    rcases h with h | h <;> cases h
  | none =>
    simp only [target, hmixed] at h ⊢
    split_ifs at h ⊢
    · rcases h with h | h <;> cases h
    · refine ⟨rfl, ?_⟩
      cases hs : t.shape64 with
      | composite k tag ms => exact ⟨k, tag, ms, rfl⟩
      | void | primitive | pointer | array | object | classRef | selector =>
        rw [hs] at h
        rcases h with h | h <;> cases h

/-- A struct or union with a name of its own goes by that name, in the package of the wrappers. -/
theorem name_target (h : (m.target t).kind = .struct ∨ (m.target t).kind = .union)
    (hn : wrapperName? t = some name) : (m.target t).name = m.wrappers ++ "." ++ name := by
  obtain ⟨he, k, tag, ms, hs⟩ := target_eq_ofShape h
  rw [he, hs]
  simp only [ofShape, hn]

/-- **A struct or union goes by the qualified name of its wrapper, outside of the default package.**
Let a mapping send a type to a struct or union, and let there be a wrapper class for it in the
mapping's packages. The target's name is the qualified name of the class exactly if the package of
the wrappers has a name, and else that name with a dot in front of it. So it is with the qualified
name of the table of coders and the package of the runtime. -/
theorem target_qualified (m : Mapping) (t : NativeType) (table : CoderTable) :
    (∀ c : ClassFile, (m.target t).kind = .struct ∨ (m.target t).kind = .union →
      wrapper? t m.wrappers m.runtime = some c →
        ((m.target t).name = c.header.qualifiedName ↔ m.wrappers ≠ "") ∧
        (m.wrappers = "" → (m.target t).name = "." ++ c.header.qualifiedName)) ∧
    (CoderTable.qualifiedName table.runtime = table.header.qualifiedName ↔ table.runtime ≠ "") ∧
    (table.runtime = "" →
      CoderTable.qualifiedName table.runtime = "." ++ table.header.qualifiedName) := by
  refine ⟨fun c hkind hc => ?_, ?_, ?_⟩
  · have hwrapper := isWrapperOf_of_wrapper? hc
    rw [name_target hkind hwrapper.name, ← hwrapper.package]
    exact ⟨ClassHeader.dotted_eq_qualifiedName_iff, ClassHeader.dotted_of_default⟩
  · exact ClassHeader.dotted_eq_qualifiedName_iff (h := table.header)
  · exact ClassHeader.dotted_of_default (h := table.header)

/-- A struct in a package with a name. -/
theorem target_qualified_cgpoint :
    let m : Mapping := ⟨"runtime", "com.example"⟩
    let point : Shape := .composite .struct (some "CGPoint") (.cons none (.primitive .float) .nil)
    let t : NativeType := .make (some (.ofDeclared "CGPoint")) point none
    let table : CoderTable := ⟨"runtime", []⟩
    (∃ c, wrapper? t m.wrappers m.runtime = some c ∧ (m.target t).kind = .struct ∧
      (m.target t).name = c.header.qualifiedName) ∧
      CoderTable.qualifiedName table.runtime = table.header.qualifiedName := by
  intro m point t table
  have hkind : (m.target t).kind = .struct := by decide +kernel
  obtain ⟨c, hc⟩ : ∃ c, wrapper? t m.wrappers m.runtime = some c := ⟨_, rfl⟩
  obtain ⟨htarget, htable, -⟩ := target_qualified m t table
  exact ⟨⟨c, hc, hkind, (htarget c (.inl hkind) hc).1.2 (by decide)⟩, htable.2 (by decide)⟩

/-- The same struct in the default package: the target's name is `.CGPoint`, and the class is
`CGPoint`. -/
theorem target_unqualified_cgpoint :
    let m : Mapping := ⟨"runtime", ""⟩
    let point : Shape := .composite .struct (some "CGPoint") (.cons none (.primitive .float) .nil)
    let t : NativeType := .make (some (.ofDeclared "CGPoint")) point none
    ∃ c, wrapper? t m.wrappers m.runtime = some c ∧ (m.target t).kind = .struct ∧
      (m.target t).name = ".CGPoint" ∧ c.header.qualifiedName = "CGPoint" := by
  intro m point t
  have hkind : (m.target t).kind = .struct := by decide +kernel
  exact ⟨_, rfl, hkind, by decide +kernel, by decide +kernel⟩

end Mapping

end Bindery.Binding
