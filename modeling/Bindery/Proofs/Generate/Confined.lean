import Bindery.Proofs.Config.Layers
import Bindery.Proofs.FileTree.Below
import Bindery.Proofs.Output.Locations

/-!
# Where a run writes

The package and the file name of an artifact come from the package of the runtime, which is checked;
from the names of types, which are made identifiers; from the last component of a source; and from
the manifest. What the manifest says is taken as it is: a part of a package that starts with a slash
gives an absolute path, as does a file name that starts with one; and a file name may lead up. A
manifest that does none of this is confined. Its run writes below the output directory only, while
any other manifest has an artifact whose path does not stay below.

* `Manifest.Confined` says that what a manifest names does not lead out;
* `Output.staysBelow_iff` : then, and only then, all paths stay below;
* `generateInto_confined` is the main result.
-/

namespace Bindery

theorem isRelativePackage_of_isPackageName {package : String}
    (h : Binding.isPackageName package = true) : IsRelativePackage package := by
  intro part hpart hslash
  have hid : Binding.isIdentifier part = true := List.all_eq_true.1 h part hpart
  exact Binding.notMem_of_isIdentifier hid (by decide) (List.mem_of_head? hslash)

/-! ### The paths of artifacts -/

/-- What a copy says about its place does not lead out of the directory that it is put below: no
part of its package starts with a slash, and its file name, if it gives one, stays below. -/
def CopyEntry.Confined (c : CopyEntry) : Prop :=
  IsRelativePackage c.package ∧ ∀ name ∈ c.fileName, (⟨name⟩ : Path).StaysBelow

instance : DecidablePred CopyEntry.Confined := fun c =>
  inferInstanceAs (Decidable (IsRelativePackage c.package ∧ ∀ name ∈ c.fileName, _))

/-- Nothing that a manifest says about a place leads out. -/
def Manifest.Confined (m : Manifest) : Prop :=
  IsRelativePackage m.wrapperPackage ∧ ∀ c ∈ m.copies, c.Confined

instance : DecidablePred Manifest.Confined := fun m =>
  inferInstanceAs (Decidable (IsRelativePackage m.wrapperPackage ∧ ∀ c ∈ m.copies, c.Confined))

/-- A file name that is taken from the source is one, so it says nothing about the place. -/
theorem CopyEntry.staysBelow_artifact {c : CopyEntry} {base : Path} {a : Artifact}
    (h : c.artifact base = .ok a) : a.path.StaysBelow ↔ c.Confined := by
  obtain ⟨name, hname, h⟩ := bind_eq_ok_iff.1 h
  cases h
  refine Location.staysBelow_path.trans (and_congr_right fun _ => ?_)
  unfold targetFileName at hname
  cases hf : c.fileName with
  | some own =>
    rw [hf] at hname
    cases hname
    simp [Artifact.location]
  | none =>
    rw [hf, Option.none_or] at hname
    cases hs : c.source.fileName? with
    | none =>
      rw [hs] at hname
      cases hname
    | some last =>
      rw [hs] at hname
      cases hname
      exact iff_of_true (Path.isName_of_fileName? hs).staysBelow nofun

theorem CopyEntry.staysBelow_mapM {base : Path} {cs : List CopyEntry} {as : List Artifact}
    (h : cs.mapM (CopyEntry.artifact base) = .ok as) :
    (∀ a ∈ as, a.path.StaysBelow) ↔ ∀ c ∈ cs, c.Confined := by
  induction cs generalizing as with
  | nil =>
    cases h
    exact iff_of_true nofun nofun
  | cons c cs ih =>
    rw [List.mapM_cons, bind_eq_ok_iff] at h
    obtain ⟨a, ha, h⟩ := h
    obtain ⟨as, has, h⟩ := bind_eq_ok_iff.1 h
    cases h
    rw [List.forall_mem_cons, List.forall_mem_cons, staysBelow_artifact ha, ih has]

/-- A generated class stays below if its package is relative. -/
theorem Binding.ClassHeader.staysBelow_location {h : ClassHeader}
    (hn : isIdentifier h.name.toList = true) :
    h.location.path.StaysBelow ↔ IsRelativePackage h.package :=
  Location.staysBelow_path.trans (and_iff_left (isName_fileName hn).staysBelow)

namespace Output

variable {o : Output} {as : List Artifact}

theorem staysBelow_wrapper (h : IsRelativePackage o.manifest.wrapperPackage)
    {c : Binding.ClassFile} (hc : c ∈ o.wrappers) : c.header.location.path.StaysBelow := by
  obtain ⟨-, i, -, hw⟩ := isWrapperOf_of_mem_wrappers hc
  refine (Binding.ClassHeader.staysBelow_location ?_).2 (hw.package ▸ h)
  exact Binding.isIdentifier_of_wrapperName? hw.name

theorem staysBelow_index :
    o.index.header.location.path.StaysBelow ↔ IsRelativePackage o.manifest.wrapperPackage :=
  Binding.ClassHeader.staysBelow_location Binding.isIdentifier_indexName

theorem staysBelow_coderTable (hr : Binding.isPackageName o.runtime = true) :
    o.coderTable.header.location.path.StaysBelow :=
  (Binding.ClassHeader.staysBelow_location Binding.isIdentifier_tableName).2
    (isRelativePackage_of_isPackageName hr)

/-- **All paths of an output stay below exactly if what its manifest names does not lead out.** -/
theorem staysBelow_iff (hr : Binding.isPackageName o.runtime = true)
    (ha : o.artifacts = .ok as) :
    (∀ a ∈ as, a.path.StaysBelow) ↔ o.manifest.Confined := by
  obtain ⟨copies, hc, h⟩ := bind_eq_ok_iff.1 ha
  cases h
  simp only [List.forall_mem_append, List.forall_mem_cons, List.forall_mem_map]
  rw [CopyEntry.staysBelow_mapM hc]
  constructor
  · rintro ⟨⟨hcopies, -⟩, hindex, -⟩
    exact ⟨staysBelow_index.1 hindex, hcopies⟩
  · rintro ⟨hpackage, hcopies⟩
    exact ⟨⟨hcopies, fun c hc => staysBelow_wrapper hpackage hc⟩, staysBelow_index.2 hpackage,
      staysBelow_coderTable hr, nofun⟩

end Output

/-! ### Runs -/

/-- **A run writes below its output directory if what its manifest names does not lead out.** For
every configuration and every manifest, all paths of artifacts are relative and without `..` exactly
if no part of a package that the manifest names starts with a slash, and no file name that it gives
to a copy is absolute or has a `..`. For such a manifest, a file that is opened for an artifact lies
below the output directory; and a run, also one that fails on the way, leaves all files that do not
lie there as they were. -/
theorem generateInto_confined {args : List String} {env : String → Option String} {c : Config}
    (hconfig : Config.ofArgs args env = .ok c) (m : Manifest) (base : Path)
    (preamble : Option String) :
    (∀ plan, Plan.ofManifest m base c.runtime = .ok plan →
      ((∀ a ∈ plan.artifacts, a.path.StaysBelow) ↔ m.Confined) ∧
      (m.Confined → ∀ a ∈ plan.artifacts, ∀ t t' : FileTree,
        (FileTree.destination c.outDir).openSink a.path t = (true, t') →
          ∃ place ∈ t'.below c.outDir, t'.locate? (c.outDir.push a.path) = some place ∧
            t'.node? place = some (.file []) ∧ t.Grows {place} t')) ∧
    (m.Confined → ∀ t : FileTree,
      let run := generateInto (FileTree.destination c.outDir) m base c.runtime preamble t
      ∀ q ∉ run.2.below c.outDir, ∀ bytes,
        run.2.node? q = some (.file bytes) ↔ t.node? q = some (.file bytes)) := by
  have hpaths : ∀ plan, Plan.ofManifest m base c.runtime = .ok plan →
      ((∀ a ∈ plan.artifacts, a.path.StaysBelow) ↔ m.Confined) := by
    intro plan hp
    exact Output.staysBelow_iff (o := m.output base c.runtime)
      (Config.isPackageName_runtime hconfig) (Plan.artifacts_of_ofManifest hp).2
  refine ⟨fun plan hp => ⟨hpaths plan hp, ?_⟩, ?_⟩
  · intro hm a ha t t' ho
    obtain ⟨place, hl, hn, hg⟩ := FileTree.createBelow?_spec (FileTree.openSink_eq_true_iff.1 ho)
    have hbelow : place ∈ t'.below c.outDir :=
      FileTree.mem_below_of_locate?_push ((hpaths plan hp).2 hm a ha) hl (by simp [hn])
    exact ⟨place, hbelow, hl, hn, hg⟩
  · intro hm t run q hq bytes
    have hkept : FileTree.GrowsBelow c.outDir t run.2 :=
      (FileTree.related_below c.outDir).generateInto (fun plan hp => (hpaths plan hp).2 hm) t
    exact hkept.file q bytes hq

/-- A copy to a directory of its own, and a wrapper. -/
theorem generateInto_confined_build :
    let c : Config := ⟨⟨"scan.json"⟩, ⟨"build"⟩, "rt", none, false⟩
    let m : Manifest := ⟨some "app.gen", [⟨some "CGPoint", "a.h:1", 32, "{CGPoint=ff}"⟩],
      [⟨⟨"../rt/A.java"⟩, "p.q", none⟩, ⟨⟨"B.java"⟩, "p", some "sub/C.java"⟩]⟩
    Config.ofArgs ["-o", "build", "--runtime-package=rt", "scan.json", "--no-parallel"]
        (fun _ => none) = .ok c ∧
      m.Confined ∧
      (∃ plan, Plan.ofManifest m ⟨"in"⟩ c.runtime = .ok plan ∧
        ∀ a ∈ plan.artifacts, a.path.StaysBelow) ∧
      ∀ t : FileTree,
        let run := generateInto (FileTree.destination c.outDir) m ⟨"in"⟩ c.runtime none t
        ∀ q ∉ run.2.below c.outDir, ∀ bytes,
          run.2.node? q = some (.file bytes) ↔ t.node? q = some (.file bytes) := by
  intro c m
  have hc : Config.ofArgs ["-o", "build", "--runtime-package=rt", "scan.json", "--no-parallel"]
      (fun _ => none) = .ok c := by decide +kernel
  have hm : m.Confined := by decide
  have htypes : m.typeErrors = [] := List.isEmpty_iff.1 (by decide +kernel)
  have hchecked : m.Checked := Manifest.check_eq_ok_iff.1 (by decide +kernel)
  obtain ⟨plan, hp⟩ := Plan.exists_ofManifest htypes hchecked ⟨"in"⟩ c.runtime
  obtain ⟨hpaths, hrun⟩ := generateInto_confined hc m ⟨"in"⟩ none
  exact ⟨hc, hm, ⟨plan, hp, (hpaths plan hp).1.2 hm⟩, hrun hm⟩

/-- A copy whose file name leads up is made beside the output directory. -/
theorem generateInto_leads_out :
    let text := "[null, [], [[\"rt/A.java\", \"p\", \"../../A.java\"]]]"
    let c : Config := ⟨⟨"scan.json"⟩, ⟨"generated"⟩, "org.nbind.runtime", none, true⟩
    let t : FileTree := ⟨[(["w"], .directory)], ["w"]⟩
    Config.ofArgs ["scan.json"] (fun _ => none) = .ok c ∧
      ∃ m, Manifest.parse text c.manifest = .ok m ∧
        ∃ plan, Plan.ofManifest m .empty c.runtime = .ok plan ∧
          ∃ a ∈ plan.artifacts, a.path = ⟨"p/../../A.java"⟩ ∧ ¬a.path.StaysBelow ∧
            let opened := (FileTree.destination c.outDir).openSink a.path t
            opened.1 = true ∧ opened.2.node? ["w", "A.java"] = some (.file []) ∧
              ["w", "A.java"] ∉ opened.2.below c.outDir := by
  intro text c t
  let m : Manifest := ⟨none, [], [⟨⟨"rt/A.java"⟩, "p", some "../../A.java"⟩]⟩
  let a : Artifact := .copied ⟨"rt/A.java"⟩ ⟨"p", "../../A.java"⟩
  have hc : Config.ofArgs ["scan.json"] (fun _ => none) = .ok c := by decide +kernel
  have hm : Manifest.parse text c.manifest = .ok m := by decide +kernel
  have htypes : m.typeErrors = [] := List.isEmpty_iff.1 (by decide +kernel)
  obtain ⟨plan, hp⟩ :=
    Plan.exists_ofManifest htypes (Manifest.checked_of_parse hm) .empty c.runtime
  have hcopies : (m.output .empty c.runtime).copies = .ok [a] := by decide +kernel
  have ha : a ∈ plan.artifacts := by
    have hall := (Plan.artifacts_of_ofManifest hp).2
    rw [Output.artifacts, hcopies] at hall
    rw [← Except.ok.inj hall]
    exact List.mem_cons_self
  refine ⟨hc, m, hm, plan, hp, a, ha, by decide +kernel, by decide +kernel, ?_⟩
  intro opened
  have htop : opened.2.follow? c.outDir = some ["w", "generated"] := by decide +kernel
  refine ⟨by decide +kernel, by decide +kernel, ?_⟩
  rintro ⟨top, ht, hprefix, -⟩
  obtain rfl : ["w", "generated"] = top := Option.some.inj (htop.symm.trans ht)
  revert hprefix
  decide

end Bindery
