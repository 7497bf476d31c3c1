import Bindery.Proofs.Generate.Failure
import Bindery.Proofs.Output.Wrappers
import Bindery.Proofs.Path.Segments

/-!
# The paths of generated classes

The classes of a run are wrappers, the index and the table of coders. The wrappers have different
names, none of them that of the index, and all lie in one package with it; the table lies in the
package of the runtime. If that is another package, no two classes have one path. If it is the same,
the name of the table may be that of a wrapper, as only the name of the index is kept free.

* `Binding.ClassHeader.isProper_location`, `Binding.ClassHeader.location_eq_iff` : classes lie at
  one place if they have the same package and the same name;
* `Output.nodup_names_wrappers`, `Output.mem_names_wrappers_iff` : the names of the wrappers;
* `Output.TableNameTaken` says that a wrapper has the place of the table, and
  `Output.firstRepeat_artifacts` that no other path is repeated;
* `Plan.distinct_paths` is the main result.
-/

namespace Bindery

namespace Binding

variable {cs : List Char} {s package name : String} {t : NativeType}

/-! ### Places of classes -/

theorem notMem_of_isIdentifier {c : Char} (h : isIdentifier cs = true)
    (hc : isIdentifierPart c = false) : c ∉ cs := by
  have hparts : ∀ d ∈ cs, isIdentifierPart d = true := by
    cases cs with
    | nil => nofun
    | cons d cs =>
      obtain ⟨hd, hcs⟩ := Bool.and_eq_true_iff.1 h
      refine List.forall_mem_cons.2 ⟨?_, List.all_eq_true.1 hcs⟩
      simp only [isIdentifierStart, isIdentifierPart, Char.isAlphanum] at hd ⊢
      simp only [Bool.or_eq_true] at hd ⊢
      tauto
  intro hm
  rw [hparts c hm] at hc
  cases hc

/-- An identifier has no slash and no dot, and is not empty. -/
theorem isName_of_isIdentifier (h : isIdentifier s.toList = true) : Path.IsName s where
  ne_empty := by
    rintro rfl
    cases h
  ne_here := by
    rintro rfl
    revert h
    decide
  ne_up := by
    rintro rfl
    revert h
    decide
  noSlash := notMem_of_isIdentifier h (by decide)

theorem isName_fileName (h : isIdentifier name.toList = true) : Path.IsName (name ++ ".java") := by
  have hlast : (name ++ ".java").toList.getLast? = some 'a' := by
    rw [String.toList_append, List.getLast?_append]
    rfl
  constructor
  · intro he
    rw [he] at hlast
    cases hlast
  · intro he
    rw [he] at hlast
    revert hlast
    decide
  · intro he
    rw [he] at hlast
    revert hlast
    decide
  · rw [String.toList_append, List.mem_append, not_or]
    exact ⟨notMem_of_isIdentifier h (by decide), by decide⟩

theorem isIdentifier_indexName : isIdentifier indexName.toList = true := by decide

theorem isIdentifier_tableName : isIdentifier CoderTable.className.toList = true := by decide

theorem isIdentifier_of_wrapperName? (h : wrapperName? t = some name) :
    isIdentifier name.toList = true := by
  unfold wrapperName? at h
  split at h
  · obtain ⟨raw, -, rfl⟩ := Option.map_eq_some_iff.1 h
    exact isIdentifier_identifier raw
  · cases h

namespace ClassHeader

variable {h h' : ClassHeader}

theorem isProper_location (hp : isPackageName h.package = true)
    (hn : isIdentifier h.name.toList = true) : h.location.IsProper where
  package part hpart := by
    refine isName_of_isIdentifier ?_
    rw [String.toList_ofList]
    exact List.all_eq_true.1 hp part hpart
  fileName := isName_fileName hn

theorem location_eq_iff : h.location = h'.location ↔ h.package = h'.package ∧ h.name = h'.name := by
  simp [location, fileName, String.append_left_inj]

end ClassHeader

/-! ### Names of wrappers -/

theorem mem_selectWrappers {taken : List String} {c : ClassFile} {cs : List ClassFile}
    (h : c ∈ selectWrappers taken cs) :
    c ∈ cs ∧ c.header.name ≠ indexName ∧ c.header.name ∉ taken := by
  have hfilter : c ∈ (selectWrappers taken cs).filter fun d => d.header.name = c.header.name :=
    List.mem_filter.2 ⟨h, by simp⟩
  rw [filter_selectWrappers] at hfilter
  split_ifs at hfilter with htaken
  · cases hfilter
  · rw [Option.mem_toList] at hfilter
    exact ⟨List.mem_of_find?_eq_some hfilter, not_or.1 htaken⟩

theorem nodup_names_selectWrappers (taken : List String) (cs : List ClassFile) :
    ((selectWrappers taken cs).map fun c => c.header.name).Nodup := by
  induction cs generalizing taken with
  | nil => exact List.nodup_nil
  | cons c cs ih =>
    rw [selectWrappers]
    split_ifs with htaken
    · exact ih taken
    · rw [List.map_cons, List.nodup_cons]
      refine ⟨fun hm => ?_, ih _⟩
      obtain ⟨d, hd, he⟩ := List.mem_map.1 hm
      exact (mem_selectWrappers hd).2.2 (he ▸ List.mem_cons_self)

end Binding

namespace Output

variable {o : Output} {name : String}

/-- A wrapper of the output is that of a type of the registry. -/
theorem isWrapperOf_of_mem_wrappers {c : Binding.ClassFile} (h : c ∈ o.wrappers) :
    c.header.name ≠ Binding.indexName ∧
      ∃ i ∈ o.registry.pool,
        Binding.IsWrapperOf c i.type o.manifest.wrapperPackage o.runtime := by
  obtain ⟨hc, hindex, -⟩ := Binding.mem_selectWrappers h
  obtain ⟨i, hi, hw⟩ := List.mem_filterMap.1 hc
  exact ⟨hindex, i, (List.mergeSort_perm _ _).mem_iff.1 hi, Binding.isWrapperOf_of_wrapper? hw⟩

theorem nodup_names_wrappers (o : Output) :
    (o.wrappers.map fun c => c.header.name).Nodup :=
  Binding.nodup_names_selectWrappers [] _

/-- Wrappers go by the names of types, that of the index apart. -/
theorem mem_names_wrappers_iff (hname : name ≠ Binding.indexName) :
    (∃ c ∈ o.wrappers, c.header.name = name) ↔
      ∃ i ∈ o.registry.pool, Binding.wrapperName? i.type = some name := by
  constructor
  · rintro ⟨c, hc, rfl⟩
    obtain ⟨-, i, hi, hw⟩ := isWrapperOf_of_mem_wrappers hc
    exact ⟨i, hi, hw.name⟩
  · rintro ⟨i, hi, hn⟩
    obtain ⟨j, hj⟩ := exists_firstNamed? hi hn
    have hfilter := o.filter_wrappers hname
    rw [hj, Option.bind_some] at hfilter
    have hmap := Binding.map_name_wrapper? j.type o.manifest.wrapperPackage o.runtime
    rw [(mem_pool_of_firstNamed? hj).2] at hmap
    obtain ⟨c, hc, rfl⟩ := Option.map_eq_some_iff.1 hmap
    rw [hc] at hfilter
    have hmem : c ∈ o.wrappers.filter fun d => d.header.name = c.header.name := by
      rw [hfilter]
      exact List.mem_singleton_self c
    exact ⟨c, (List.mem_filter.1 hmem).1, rfl⟩

/-! ### The classes of an output -/

/-- A wrapper has the place of the table of coders: both packages are the same, and a struct or
union goes by the name of the table. -/
def TableNameTaken (o : Output) : Prop :=
  o.manifest.wrapperPackage = o.runtime ∧
    ∃ i ∈ o.registry.pool, Binding.wrapperName? i.type = some Binding.CoderTable.className

instance (o : Output) : Decidable o.TableNameTaken := inferInstanceAs (Decidable (_ ∧ _))

/-- The classes that lie in the package of the wrappers. -/
def packageClasses (o : Output) : List Binding.ClassHeader :=
  o.wrappers.map Binding.ClassFile.header ++ [o.index.header]

theorem nodup_names_packageClasses (o : Output) :
    (o.packageClasses.map Binding.ClassHeader.name).Nodup := by
  rw [packageClasses, List.map_append, List.map_map, List.nodup_append]
  refine ⟨o.nodup_names_wrappers, List.nodup_singleton _, ?_⟩
  intro name hname index hindex
  obtain ⟨c, hc, rfl⟩ := List.mem_map.1 hname
  rw [List.mem_singleton.1 hindex]
  exact (isWrapperOf_of_mem_wrappers hc).1

theorem mem_packageClasses {h : Binding.ClassHeader} (hm : h ∈ o.packageClasses) :
    h.package = o.manifest.wrapperPackage ∧ Binding.isIdentifier h.name.toList = true := by
  rcases List.mem_append.1 hm with hm | hm
  · obtain ⟨c, hc, rfl⟩ := List.mem_map.1 hm
    obtain ⟨-, i, -, hw⟩ := isWrapperOf_of_mem_wrappers hc
    exact ⟨hw.package, Binding.isIdentifier_of_wrapperName? hw.name⟩
  · rw [List.mem_singleton.1 hm]
    exact ⟨rfl, Binding.isIdentifier_indexName⟩

theorem exists_table_packageClasses :
    (∃ h ∈ o.packageClasses, h.package = o.runtime ∧ h.name = Binding.CoderTable.className) ↔
      o.TableNameTaken := by
  have hne : Binding.CoderTable.className ≠ Binding.indexName := by decide
  rw [TableNameTaken, ← mem_names_wrappers_iff hne]
  constructor
  · rintro ⟨h, hm, hpackage, hname⟩
    refine ⟨(mem_packageClasses hm).1.symm.trans hpackage, ?_⟩
    rcases List.mem_append.1 hm with hm | hm
    · obtain ⟨c, hc, rfl⟩ := List.mem_map.1 hm
      exact ⟨c, hc, hname⟩
    · rw [List.mem_singleton.1 hm] at hname
      exact absurd hname.symm hne
  · rintro ⟨hpackage, c, hc, hname⟩
    have hm : c.header ∈ o.packageClasses :=
      List.mem_append_left _ (List.mem_map_of_mem hc)
    exact ⟨c.header, hm, (mem_packageClasses hm).1.trans hpackage, hname⟩

theorem artifacts_of_no_copies (h : o.manifest.copies = []) :
    ∃ as, o.artifacts = .ok as ∧ as.map Artifact.path =
      o.packageClasses.map (fun h => h.location.path) ++ [o.coderTable.header.location.path] := by
  refine ⟨o.wrappers.map .generated ++ [.generated o.index, .coders o.coderTable], ?_, ?_⟩
  · rw [artifacts, copies, h]
    rfl
  · simp only [packageClasses, List.map_append, List.map_map, List.map_cons, List.map_nil,
      List.append_assoc]
    rfl

section Packages

variable (hw : Binding.isPackageName o.manifest.wrapperPackage = true)
  (hr : Binding.isPackageName o.runtime = true)

include hw in
theorem isProper_of_mem_packageClasses {h : Binding.ClassHeader} (hm : h ∈ o.packageClasses) :
    h.location.IsProper := by
  obtain ⟨hpackage, hname⟩ := mem_packageClasses hm
  exact Binding.ClassHeader.isProper_location (hpackage ▸ hw) hname

include hw in
theorem nodup_paths_packageClasses :
    (o.packageClasses.map fun h => h.location.path.components).Nodup := by
  have hnames := List.pairwise_map.1 o.nodup_names_packageClasses
  refine List.pairwise_map.2 (hnames.imp_of_mem fun {h h'} hm hm' hne he => hne ?_)
  have hlocation := (Location.same_path_iff (isProper_of_mem_packageClasses hw hm)
    (isProper_of_mem_packageClasses hw hm')).1 he
  exact (Binding.ClassHeader.location_eq_iff.1 hlocation).2

include hw hr in
theorem table_path_mem_iff :
    o.coderTable.header.location.path.components ∈
        o.packageClasses.map (fun h => h.location.path.components) ↔ o.TableNameTaken := by
  have htable : o.coderTable.header.location.IsProper :=
    Binding.ClassHeader.isProper_location hr Binding.isIdentifier_tableName
  rw [← exists_table_packageClasses, List.mem_map]
  refine exists_congr fun h => and_congr_right fun hm => ?_
  exact (Location.same_path_iff (isProper_of_mem_packageClasses hw hm) htable).trans
    Binding.ClassHeader.location_eq_iff

include hw hr in
/-- No path is repeated but that of the table. -/
theorem firstRepeat_artifacts {as : List Artifact} (ha : o.artifacts = .ok as)
    (hcopies : o.manifest.copies = []) :
    firstRepeat [] (as.map Artifact.path) =
      if o.TableNameTaken then some o.coderTable.header.location.path else none := by
  obtain ⟨as', ha', hpaths⟩ := artifacts_of_no_copies hcopies
  obtain rfl : as' = as := Except.ok.inj (ha'.symm.trans ha)
  have hdistinct : firstRepeat [] (o.packageClasses.map fun h => h.location.path) = none := by
    rw [firstRepeat_eq_none_iff, List.map_map]
    exact ⟨nodup_paths_packageClasses hw, nofun⟩
  rw [hpaths, firstRepeat_append_singleton hdistinct, List.map_map]
  simp only [List.not_mem_nil, or_false]
  exact if_congr (table_path_mem_iff hw hr) rfl rfl

end Packages

end Output

namespace Plan

/-- **Generated classes have different paths, unless a wrapper has the place of the table.** For a
manifest that asks for no copies, whose names all get a type, and for any two packages, equal or
not, there is a plan. No two of its artifacts have one path, unless both packages are the same and a
struct or union goes by the name of the table of coders. Writing the artifacts fails at a repeated
path in that case only; then it always does, at the path of the table and with nothing opened. -/
theorem distinct_paths (m : Manifest) (base : Path) (runtime : String) (hcopies : m.copies = [])
    (htypes : m.typeErrors = []) (hw : Binding.isPackageName m.wrapperPackage = true)
    (hr : Binding.isPackageName runtime = true) :
    ∃ plan, Plan.ofManifest m base runtime = .ok plan ∧
      ((plan.artifacts.map Artifact.path).Pairwise (fun p q => ¬p.Same q) ↔
        ¬plan.output.TableNameTaken) ∧
      ∀ (σ : Type) (d : Destination (StateM σ)) (preamble : Option String) (s s' : σ) (p : Path),
        generateInto d m base runtime preamble s = (.error (.emit (.duplicateTarget p)), s') ↔
          plan.output.TableNameTaken ∧ p = plan.output.coderTable.header.location.path ∧
            s' = s := by
  obtain ⟨as, has, -⟩ := Output.artifacts_of_no_copies (o := m.output base runtime) hcopies
  obtain ⟨plan, hplan⟩ := exists_of_artifacts htypes has
  obtain ⟨hout, ha⟩ := artifacts_of_ofManifest hplan
  have hfirst : firstRepeat [] (plan.artifacts.map Artifact.path) =
      if plan.output.TableNameTaken then some plan.output.coderTable.header.location.path
      else none := by
    rw [hout]
    exact Output.firstRepeat_artifacts (o := m.output base runtime) hw hr ha hcopies
  refine ⟨plan, hplan, ?_, fun σ d preamble s s' p => ?_⟩
  · rw [← firstRepeat_eq_none_iff_pairwise, hfirst]
    split_ifs with htaken
    · exact iff_of_false nofun fun hn => hn htaken
    · exact iff_of_true rfl htaken
  · rw [generateInto_eq_emit_error_iff hplan, Destination.emitAll_eq_duplicateTarget_iff, hfirst]
    split_ifs with htaken
    · rw [Option.some_inj, and_iff_right htaken, eq_comm (a := p)]
    · exact iff_of_false (fun h => nomatch h.1) fun h => htaken h.1

/-- Two structs in the package of the runtime, one of them with the name of the index. -/
theorem distinct_paths_one_package :
    let m : Manifest := ⟨some "runtime", [⟨some "Types", "a.h:1", 32, "{t=i}"⟩,
      ⟨some "CGPoint", "b.h:2", 32, "{CGPoint=ff}"⟩], []⟩
    m.copies = [] ∧ m.typeErrors = [] ∧ Binding.isPackageName m.wrapperPackage = true ∧
      Binding.isPackageName "runtime" = true ∧
      ∃ plan, Plan.ofManifest m .empty "runtime" = .ok plan ∧
        (plan.artifacts.map Artifact.path).Pairwise fun p q => ¬p.Same q := by
  intro m
  have htypes : m.typeErrors = [] := List.isEmpty_iff.1 (by decide +kernel)
  have hw : Binding.isPackageName m.wrapperPackage = true := by decide
  have hr : Binding.isPackageName "runtime" = true := by decide
  obtain ⟨plan, hplan, hpaths, -⟩ := distinct_paths m .empty "runtime" rfl htypes hw hr
  have hfree : ¬(m.output .empty "runtime").TableNameTaken := by decide +kernel
  rw [← (artifacts_of_ofManifest hplan).1] at hfree
  exact ⟨rfl, htypes, hw, hr, plan, hplan, hpaths.2 hfree⟩

/-- A struct with the name of the table, in the package of the runtime: nothing is written. -/
theorem equal_paths_table_name :
    let text := "[\"runtime\", [[\"MixedPrimitiveCoder\", \"a.h:1\", 32, \"{c=i}\"]], []]"
    ∃ m, Manifest.parse text ⟨"scan.json"⟩ = .ok m ∧ m.copies = [] ∧ m.typeErrors = [] ∧
      Binding.isPackageName m.wrapperPackage = true ∧ Binding.isPackageName "runtime" = true ∧
      ∀ (root : Path) (t : FileTree),
        generateInto (FileTree.destination root) m .empty "runtime" none t =
          (.error (.emit (.duplicateTarget ⟨"runtime/MixedPrimitiveCoder.java"⟩)), t) := by
  intro text
  let m : Manifest :=
    ⟨some "runtime", [⟨some "MixedPrimitiveCoder", "a.h:1", 32, "{c=i}"⟩], []⟩
  have hm : Manifest.parse text ⟨"scan.json"⟩ = .ok m := by decide +kernel
  have htypes : m.typeErrors = [] := List.isEmpty_iff.1 (by decide +kernel)
  have hw : Binding.isPackageName m.wrapperPackage = true := by decide
  have hr : Binding.isPackageName "runtime" = true := by decide
  refine ⟨m, hm, rfl, htypes, hw, hr, fun root t => ?_⟩
  obtain ⟨as, has, -⟩ := Output.artifacts_of_no_copies (o := m.output .empty "runtime") rfl
  obtain ⟨plan, hplan⟩ := exists_of_artifacts htypes has
  have hfirst := Output.firstRepeat_artifacts (o := m.output .empty "runtime") hw hr
    (artifacts_of_ofManifest hplan).2 rfl
  have htaken : (m.output .empty "runtime").TableNameTaken := by decide +kernel
  have hpath : (m.output .empty "runtime").coderTable.header.location.path =
      ⟨"runtime/MixedPrimitiveCoder.java"⟩ := by decide +kernel
  rw [if_pos htaken, hpath] at hfirst
  exact (generateInto_eq_emit_error_iff hplan).2
    (Destination.emitAll_eq_duplicateTarget_iff.2 ⟨hfirst, rfl⟩)

end Plan

end Bindery
