import Bindery.Proofs.Canonical.Registered
import Bindery.Proofs.Generate.Failure
import Bindery.Proofs.Output.Index
import Bindery.Proofs.Output.Locations

/-!
# The index of a run

A run that goes well has resolved every type of its registry before it writes the index. So each
entry of the index has a target, and the index can be read back as the sorted types with their
targets: nothing that was found about a type is lost.

* `generateInto_eq_ok_iff` : what a run that goes well has planned and written;
* `Manifest.targets_output` : the targets of the types of an output;
* `Output.readIndex?_index` : what is read from the index;
* `generateInto_lossless` is the main result.
-/

namespace Bindery

variable {σ : Type} {d : Destination (StateM σ)} {m : Manifest} {base : Path} {runtime : String}
  {preamble : Option String} {s s' : σ} {summary : Summary}

theorem generateInto_eq_ok_iff :
    generateInto d m base runtime preamble s = (.ok summary, s') ↔
      ∃ plan paths, Plan.ofManifest m base runtime = .ok plan ∧
        d.emitAll preamble plan.artifacts s = (.ok paths, s') ∧
        summary = ⟨plan.output.registry.pool.length, plan.collisions.length, paths⟩ := by
  unfold generateInto
  cases hp : Plan.ofManifest m base runtime with
  | error e =>
    refine iff_of_false (fun h => by cases h) ?_
    rintro ⟨plan, paths, ⟨⟩, -⟩
  | ok plan =>
    dsimp only
    rw [bind_state_eq_iff]
    constructor
    · rintro ⟨r, s₁, hr, h⟩
      cases r with
      | error e => cases h
      | ok paths =>
        cases h
        exact ⟨plan, paths, rfl, hr, rfl⟩
    · rintro ⟨_, paths, ⟨⟩, hr, rfl⟩
      exact ⟨.ok paths, s', hr, rfl⟩

/-- A run to a destination that takes everything goes well if there is a plan without a repeated
path. -/
theorem Destination.Accepts.generateInto (h : d.Accepts) {plan : Plan} (preamble : Option String)
    (hp : Plan.ofManifest m base runtime = .ok plan)
    (hr : firstRepeat [] (plan.artifacts.map Artifact.path) = none) (s : σ) :
    ∃ summary, (generateInto d m base runtime preamble s).1 = .ok summary := by
  obtain ⟨s', hemit⟩ := h.emitAll preamble hr s
  exact ⟨_, congrArg Prod.fst (generateInto_eq_ok_iff.2 ⟨plan, _, hp, hemit, rfl⟩)⟩

/-- A run that copies nothing, to a destination that takes everything, goes well if all names get a
type and no wrapper has the place of the table. -/
theorem generateInto_of_no_copies (h : d.Accepts) (preamble : Option String)
    (hcopies : m.copies = []) (hw : Binding.isPackageName m.wrapperPackage = true)
    (hr : Binding.isPackageName runtime = true) (htypes : m.typeErrors = [])
    (hfree : ¬ (m.output base runtime).TableNameTaken) (s : σ) :
    ∃ summary, (generateInto d m base runtime preamble s).1 = .ok summary := by
  obtain ⟨as, has, -⟩ := Output.artifacts_of_no_copies (o := m.output base runtime) hcopies
  obtain ⟨plan, hplan⟩ := Plan.exists_of_artifacts htypes has
  have hfirst := Output.firstRepeat_artifacts (o := m.output base runtime) hw hr
    (Plan.artifacts_of_ofManifest hplan).2 hcopies
  exact h.generateInto preamble hplan (hfirst.trans (if_neg hfree)) s

/-! ### The types of a manifest -/

namespace Manifest

theorem registered_workbench (m : Manifest) :
    m.workbench.Sound ∧ ∀ i ∈ m.workbench.registry.pool,
      i.type.Printable ∧ m.workbench.instances.target? i = none :=
  Workbench.registered_canonicalize .standard m.observations

/-- Every type of the output has the target that the mapping gives it. -/
theorem targets_output (m : Manifest) (base : Path) (runtime : String) :
    ∀ i ∈ (m.output base runtime).registry.pool,
      (m.output base runtime).instances.target? i = some ((m.mapping runtime).target i.type) := by
  obtain ⟨hsound, hpool⟩ := m.registered_workbench
  refine hsound.registry.targets_resolveAll hsound.known fun i hi t ht => ?_
  rw [(hpool i hi).2] at ht
  cases ht

end Manifest

/-! ### The index -/

namespace Output

variable {o : Output} {mapping : Binding.Mapping}

theorem entryLines_index
    (h : ∀ i ∈ o.registry.pool, o.instances.target? i = some (mapping.target i.type)) :
    Binding.entryLines o.index = (o.registry.sorted.map Instance.type).map
      fun t => Binding.indexLine t (some (mapping.target t)) := by
  rw [index_eq h, Binding.entryLines_typeIndex, List.map_map]
  rfl

/-- **The index of printable types that a mapping resolved is read as these types.** -/
theorem readIndex?_index
    (h : ∀ i ∈ o.registry.pool, o.instances.target? i = some (mapping.target i.type))
    (hprintable : ∀ i ∈ o.registry.pool, i.type.Printable) :
    Binding.readIndex? o.index = some ((o.registry.sorted.map Instance.type).map
      fun t => .ofType t (some (mapping.target t))) := by
  have htypes : ∀ t ∈ o.registry.sorted.map Instance.type, t.Printable :=
    List.forall_mem_map.2 fun i hi => hprintable i ((List.mergeSort_perm _ _).mem_iff.1 hi)
  rw [index_eq h, Binding.readIndex?_typeIndex (List.forall_mem_map.2 htypes), List.map_map]
  rfl

end Output

/-- **The index of a run is a lossless list of its registry.** When the artifacts of a manifest were
written, exactly one class with the name of the index was among them. Its entries can be read back,
each from its line and each line on its own: they are, in sorted order and each type once, the name
and both shapes of the types of the registry, and with each of them, never a bare `null`, the name
of the target that the mapping gives it. -/
theorem generateInto_lossless
    (h : (generateInto d m base runtime preamble s).1 = .ok summary) :
    ∃ plan, Plan.ofManifest m base runtime = .ok plan ∧
      plan.artifacts.filter (fun a => a.generatedName? = some Binding.indexName) =
        [.generated plan.output.index] ∧
      let types := plan.output.registry.sorted.map Instance.type
      let target t := (m.mapping runtime).target t
      types.Nodup ∧ types.Perm (plan.output.registry.pool.map Instance.type) ∧
        types.length = summary.types ∧
        Binding.entryLines plan.output.index =
          types.map (fun t => Binding.indexLine t (some (target t))) ∧
        (∀ line ∈ Binding.entryLines plan.output.index, '\n' ∉ line.toList) ∧
        Binding.readIndex? plan.output.index = some (types.map fun t =>
          ⟨t.name.map TypeName.text, t.shape32, t.shape64, some (target t).name⟩) := by
  obtain ⟨plan, paths, hp, -, hsummary⟩ := generateInto_eq_ok_iff.1 (eq_mk_of_fst_eq h)
  obtain ⟨hout, ha⟩ := Plan.artifacts_of_ofManifest hp
  obtain ⟨hsound, hpool⟩ := m.registered_workbench
  have htargets := m.targets_output base runtime
  have hperm : ((m.output base runtime).registry.sorted.map Instance.type).Perm
      ((m.output base runtime).registry.pool.map Instance.type) :=
    (List.mergeSort_perm _ _).map Instance.type
  have hlines := Output.entryLines_index (o := m.output base runtime) htargets
  refine ⟨plan, hp, ?_⟩
  rw [hout] at hsummary ⊢
  refine ⟨Output.filter_artifacts_indexName ha, hperm.nodup_iff.2 hsound.registry.distinct, hperm,
    ?_, hlines, ?_, ?_⟩
  · rw [hsummary, hperm.length_eq, List.length_map]
  · rw [hlines, List.forall_mem_map]
    exact fun t _ => Binding.newline_notMem_indexLine t _
  · exact Output.readIndex?_index htargets fun i hi => (hpool i hi).1

/-- A name with a quote and a backslash, and a struct with quotes and a comma in its encoding. -/
theorem generateInto_lossless_quotes :
    let m : Manifest := ⟨none, [⟨some "a\"b\\c", "a.h:1", 32, "\x7bp\"=\"x, \"i\x7d"⟩], []⟩
    let d : Destination (StateM Unit) := ⟨fun _ => pure true, fun _ _ => pure true,
      fun _ => pure true, fun _ => pure (), fun _ => pure (some [])⟩
    ∃ summary, (generateInto d m .empty "runtime" none ()).1 = .ok summary ∧
      ∃ plan, Plan.ofManifest m .empty "runtime" = .ok plan ∧
        Binding.readIndex? plan.output.index = some ((plan.output.registry.sorted.map
          Instance.type).map fun t => ⟨t.name.map TypeName.text, t.shape32, t.shape64,
            some ((m.mapping "runtime").target t).name⟩) := by
  intro m d
  have haccepts : d.Accepts :=
    ⟨fun _ _ => rfl, fun _ _ _ => rfl, fun _ _ => rfl, fun _ _ => ⟨[], rfl⟩⟩
  have htypes : m.typeErrors = [] := List.isEmpty_iff.1 (by decide +kernel)
  obtain ⟨as, has, -⟩ := Output.artifacts_of_no_copies (o := m.output .empty "runtime") rfl
  obtain ⟨plan, hplan⟩ := Plan.exists_of_artifacts htypes has
  have hfirst : firstRepeat [] (plan.artifacts.map Artifact.path) = none := by
    rw [Output.firstRepeat_artifacts (o := m.output .empty "runtime") (by decide) (by decide)
      (Plan.artifacts_of_ofManifest hplan).2 rfl]
    exact if_neg (by decide +kernel)
  obtain ⟨summary, hok⟩ := haccepts.generateInto none hplan hfirst ()
  obtain ⟨plan', hplan', -, -, -, -, -, -, hread⟩ := generateInto_lossless hok
  exact ⟨summary, hok, plan', hplan', hread⟩

end Bindery
