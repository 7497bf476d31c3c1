import Bindery.FileTree
import Mathlib.Data.Set.Basic

/-!
# How a file tree grows

To write a file, directories are made and the file is put in its place. A directory never goes
away, so a path keeps leading to the place where it once led, and no other file is touched. If the
file cannot be made, nothing is but directories.

* `FileTree.Grows` compares two trees, up to the files at some places;
* `FileTree.Grows.locate?` : paths lead to the same places as before;
* `FileTree.makeAlong_grows`, `FileTree.makeAbove_grows` : directories that are made, and stay;
* `FileTree.createBelow?_spec`, `FileTree.append?_eq_some_iff` : what is done to one file.
-/

namespace Bindery.FileTree

variable {t t' t'' : FileTree} {places places' : Set Place} {place next at_ : Place} {p root : Path}
  {s : String}

/-- Directories are kept, and files are the same outside some places. -/
structure Grows (t : FileTree) (places : Set Place) (t' : FileTree) : Prop where
  workDir : t'.workDir = t.workDir
  directory : ∀ q, t.node? q = some .directory → t'.node? q = some .directory
  file : ∀ q bytes, q ∉ places → (t'.node? q = some (.file bytes) ↔ t.node? q = some (.file bytes))

/-! ### Directories and files -/

theorem isDirectory_iff : t.isDirectory place = true ↔ t.node? place = some .directory := by
  unfold isDirectory
  split
  · simp [*]
  · next h => simpa using h

theorem isDirectory_eq_false_iff :
    t.isDirectory place = false ↔ t.node? place ≠ some .directory := by
  rw [Ne, ← isDirectory_iff, Bool.not_eq_true]

theorem node?_nil : t.node? [] = some .directory := if_pos rfl

theorem ne_nil_of_not_directory (h : t.node? place ≠ some .directory) : place ≠ [] := by
  rintro rfl
  exact h node?_nil

theorem read?_eq_some_iff {bytes : Bytes} :
    t.read? p = some bytes ↔ ∃ q, t.locate? p = some q ∧ t.node? q = some (.file bytes) := by
  simp only [← Option.bind_eq_some_iff, read?]
  split
  · next h => simp [h]
  · next h => exact iff_of_false nofun (h bytes)

namespace Grows

theorem refl (t : FileTree) : t.Grows ∅ t := ⟨rfl, fun _ h => h, fun _ _ _ => Iff.rfl⟩

theorem mono (h : t.Grows places t') (hp : places ⊆ places') : t.Grows places' t' :=
  ⟨h.workDir, h.directory, fun q bytes hq => h.file q bytes fun hm => hq (hp hm)⟩

theorem trans (h : t.Grows places t') (h' : t'.Grows places' t'') :
    t.Grows (places ∪ places') t'' where
  workDir := h'.workDir.trans h.workDir
  directory q hq := h'.directory q (h.directory q hq)
  file q bytes hq :=
    (h'.file q bytes fun hm => hq (.inr hm)).trans (h.file q bytes fun hm => hq (.inl hm))

/-- A directory is made where there is nothing. -/
theorem put_directory (h : t.node? place = none) : t.Grows ∅ (t.put place .directory) := by
  have hne : place ≠ [] := ne_nil_of_not_directory (t := t) (by simp [h])
  refine ⟨rfl, fun q hq => ?_, fun q bytes _ => ?_⟩
  · rw [node?_put t hne]
    split <;> trivial
  · rw [node?_put t hne]
    split
    · next hq => simp [hq, h]
    · rfl

/-- A file is put where there is no directory. -/
theorem put_file (h : t.node? place ≠ some .directory) (bytes : Bytes) :
    t.Grows {place} (t.put place (.file bytes)) := by
  have hne : place ≠ [] := ne_nil_of_not_directory h
  refine ⟨rfl, fun q hq => ?_, fun q bytes hq => ?_⟩
  · have hqp : q ≠ place := by
      rintro rfl
      exact h hq
    rwa [node?_put t hne, if_neg hqp]
  · have hqp : q ≠ place := hq
    rw [node?_put t hne, if_neg hqp]

/-! ### Paths in a tree that has grown -/

theorem step (h : t.Grows places t') (hs : t.step at_ s = some next) :
    t'.step at_ s = some next := by
  unfold FileTree.step at hs ⊢
  split at hs
  · next hd => rwa [if_pos (isDirectory_iff.2 (h.directory at_ (isDirectory_iff.1 hd)))]
  · cases hs

theorem foldlM_step (h : t.Grows places t') {segments : List String}
    (hs : segments.foldlM t.step at_ = some place) :
    segments.foldlM t'.step at_ = some place := by
  induction segments generalizing at_ with
  | nil => exact hs
  | cons s segments ih =>
    obtain ⟨next, hn, hs⟩ := Option.bind_eq_some_iff.1 hs
    exact Option.bind_eq_some_iff.2 ⟨next, h.step hn, ih hs⟩

/-- A path leads where it led before. -/
theorem locate? (h : t.Grows places t') (hp : t.locate? p = some place) :
    t'.locate? p = some place := by
  unfold FileTree.locate? at hp ⊢
  split at hp
  · next ha =>
    rw [if_pos ha, startOf, h.workDir]
    exact h.foldlM_step hp
  · cases hp

end Grows

/-! ### Making directories -/

theorem stepMaking_grows (h : t.stepMaking at_ s = some (next, t')) : t.Grows ∅ t' := by
  obtain ⟨q, -, h⟩ := Option.bind_eq_some_iff.1 h
  split at h
  · cases h
    exact .refl t
  · cases h
  · next hq =>
    cases h
    exact .put_directory hq

/-- Directories are made up to a segment that leads nowhere, and they stay. -/
theorem makeAlong_grows (t : FileTree) (at_ : Place) (segments : List String) :
    t.Grows ∅ (t.makeAlong at_ segments).2 := by
  induction segments generalizing t at_ with
  | nil => exact .refl t
  | cons s segments ih =>
    unfold makeAlong
    split
    · next next t₁ hs => exact ((stepMaking_grows hs).trans (ih t₁ next)).mono (by simp)
    · exact .refl t

theorem makeDirs_grows (t : FileTree) (p : Path) : t.Grows ∅ (t.makeDirs p).2 := by
  unfold makeDirs
  split_ifs
  · exact .refl t
  · exact makeAlong_grows t _ _
  · exact .refl t

theorem makeDirs?_grows (h : t.makeDirs? p = some t') : t.Grows ∅ t' := by
  have hg := makeDirs_grows t p
  unfold makeDirs? at h
  split at h
  · next hd =>
    cases h
    rwa [hd] at hg
  · cases h

theorem makeAbove_grows (t : FileTree) (p : Path) : t.Grows ∅ (t.makeAbove p) := by
  unfold makeAbove
  split
  · exact makeDirs_grows t _
  · exact .refl t

/-- A file is in the way, and the directory that was made before stays. -/
example :
    let t : FileTree := ⟨[(["w"], .directory), (["w", "f"], .file [])], ["w"]⟩
    let opened := (destination ⟨"out"⟩).openSink ⟨"../f/A.java"⟩ t
    opened.1 = false ∧ opened.2.nodes = t.nodes ++ [(["w", "out"], .directory)] := by
  decide +kernel

/-! ### Writing a file -/

theorem create?_eq_some_iff :
    t.create? p = some t' ↔
      ∃ place, t.locate? p = some place ∧ t.node? place ≠ some .directory ∧
        t.put place (.file []) = t' := by
  unfold create?
  simp only [Option.bind_eq_bind, Option.bind_eq_some_iff, ← isDirectory_eq_false_iff]
  refine exists_congr fun place => and_congr_right fun _ => ?_
  cases t.isDirectory place <;> simp

theorem append?_eq_some_iff {bytes : Bytes} :
    t.append? p bytes = some t' ↔
      ∃ place old, t.locate? p = some place ∧ t.node? place = some (.file old) ∧
        t.put place (.file (old ++ bytes)) = t' := by
  unfold append?
  simp only [Option.bind_eq_bind, Option.bind_eq_some_iff]
  refine exists_congr fun place => ?_
  split
  · next h => simp [h]
  · next h => simpa using fun _ old hold => absurd hold (h old)

/-- The directories above a path are made before the file. -/
theorem create?_of_createBelow? (h : t.createBelow? root p = some t') :
    ∃ t₁, t.Grows ∅ t₁ ∧ t₁.create? (root.push p) = some t' := by
  unfold createBelow? at h
  cases hp : (root.push p).parent? with
  | some parent =>
    simp only [hp] at h
    obtain ⟨t₁, hd, hc⟩ := Option.bind_eq_some_iff.1 h
    exact ⟨t₁, makeDirs?_grows hd, hc⟩
  | none =>
    simp only [hp] at h
    exact ⟨t, .refl t, h⟩

/-- An empty file is made where the path leads, and nothing else is touched. -/
theorem createBelow?_spec (h : t.createBelow? root p = some t') :
    ∃ place, t'.locate? (root.push p) = some place ∧ t'.node? place = some (.file []) ∧
      t.Grows {place} t' := by
  obtain ⟨t₁, h₁, hc⟩ := create?_of_createBelow? h
  obtain ⟨place, hl, hn, rfl⟩ := create?_eq_some_iff.1 hc
  have h₂ : t₁.Grows {place} (t₁.put place (.file [])) := .put_file hn []
  refine ⟨place, h₂.locate? hl, ?_, (h₁.trans h₂).mono (by simp)⟩
  rw [node?_put t₁ (ne_nil_of_not_directory hn), if_pos rfl]

end Bindery.FileTree
