import Bindery.Proofs.Emission.Steps
import Bindery.Proofs.FileTree.Growth

/-!
# Emission to a file tree

An emission that goes well leaves every artifact in the file that its path leads to, and all other
files as they were. A copy is read when its turn comes, after its own file was made and after all
artifacts before it were written, so it is a copy of what its source held at first only if its
source is none of these files; and what is written stays only if no later path leads to the same
file.

* `Artifact.HasContent` says which bytes an artifact is to hold, by the tree before the emission;
* `FileTree.SamePlace` says that two paths lead to one place;
* `FileTree.emit_spec` is what one artifact does to the tree, and `FileTree.emitEach_grows` what
  several of them do;
* `FileTree.emitAll_faithful` is the main result.
-/

namespace Bindery

/-- The file that an artifact is a copy of. -/
def Artifact.source? : Artifact → Option Path
  | .copied source _ => some source
  | .generated _ | .coders _ => none

/-- The bytes are those that an artifact is to hold: the text of its class, or what lay, before,
in the place that the source of the copy leads to. -/
def Artifact.HasContent (preamble : Option String) (before after : FileTree) (bytes : Bytes) :
    Artifact → Prop
  | .copied source _ =>
    ∃ q, before.node? q = some (.file bytes) ∧ after.locate? source = some q ∧
      ∀ q', before.locate? source = some q' → q' = q
  | .generated c => bytes = .ofText (c.render preamble)
  | .coders t => bytes = .ofText (t.classFile.render preamble)

namespace FileTree

variable {t t₁ t' : FileTree} {root p : Path} {preamble : Option String} {a : Artifact}
  {as : List Artifact} {ps : List Path} {bytes : Bytes} {places places' : Set Place}

/-- The two paths lead to one place. -/
def SamePlace (t : FileTree) (p q : Path) : Prop := ∃ place ∈ t.locate? p, place ∈ t.locate? q

instance (t : FileTree) (p q : Path) : Decidable (t.SamePlace p q) :=
  inferInstanceAs (Decidable (∃ place ∈ t.locate? p, place ∈ t.locate? q))

/-- The places that the paths of some artifacts lead to. -/
def targets (t : FileTree) (root : Path) (as : List Artifact) : Set Place :=
  {q | ∃ a ∈ as, t.locate? (root.push a.path) = some q}

/-! ### One artifact -/

theorem attempt_eq_true_iff (f : FileTree → Option FileTree) (left : FileTree → FileTree) :
    attempt f left t = (true, t') ↔ f t = some t' := by
  unfold attempt
  cases f t with
  | none => exact iff_of_false nofun nofun
  | some t₁ => exact ⟨fun h => congrArg some (Prod.mk.inj h).2, fun h => by cases h; rfl⟩

theorem openSink_eq_true_iff :
    (destination root).openSink p t = (true, t') ↔ t.createBelow? root p = some t' :=
  attempt_eq_true_iff (createBelow? · root p) (makeAbove · (root.push p))

theorem write_eq_true_iff :
    (destination root).write p bytes t = (true, t') ↔ t.append? (root.push p) bytes = some t' :=
  attempt_eq_true_iff (append? · (root.push p) bytes) id

theorem content_spec
    (h : (destination root).content preamble a t = (.ok bytes, t')) :
    t' = t ∧ a.HasContent preamble t t bytes := by
  cases a with
  | copied source l =>
    obtain ⟨r, _, ⟨⟩, h⟩ := bind_state_eq_iff.1 h
    cases hr : t.read? source with
    | none =>
      simp only [hr] at h
      cases h
    | some old =>
      simp only [hr] at h
      cases h
      obtain ⟨q, hq, hn⟩ := read?_eq_some_iff.1 hr
      exact ⟨rfl, q, hn, hq, fun q' hq' => Option.some.inj (hq'.symm.trans hq)⟩
  | generated c =>
    cases h
    exact ⟨rfl, rfl⟩
  | coders table =>
    cases h
    exact ⟨rfl, rfl⟩

/-- **What one artifact does to the tree.** An empty file is made in its place, the content is found
in the tree as it is then, and put into the file. -/
theorem emit_spec (h : (destination root).emit preamble a t = (.ok p, t')) :
    p = a.path ∧ ∃ place bytes t₁,
      t.Grows {place} t₁ ∧ t₁.node? place = some (.file []) ∧ a.HasContent preamble t₁ t₁ bytes ∧
      t₁.Grows {place} t' ∧ t'.locate? (root.push a.path) = some place ∧
      t'.node? place = some (.file bytes) := by
  obtain ⟨rfl, t₁, t₂, ho, hf, ⟨⟩⟩ := Destination.emit_eq_ok_iff.1 h
  obtain ⟨place, hl, hn, hg⟩ := createBelow?_spec (openSink_eq_true_iff.1 ho)
  obtain ⟨bytes, s₁, s₂, hc, hw, ⟨⟩⟩ := Destination.fill_eq_ok_iff.1 hf
  obtain ⟨rfl, hb⟩ := content_spec hc
  obtain ⟨place', old, hl', hn', rfl⟩ := append?_eq_some_iff.1 (write_eq_true_iff.1 hw)
  -- the file that takes the bytes is the one just made
  obtain rfl : place' = place := Option.some.inj (hl'.symm.trans hl)
  obtain rfl : old = [] := by simpa [hn] using hn'.symm
  have hd : s₁.node? place' ≠ some .directory := by simp [hn]
  have hg' : s₁.Grows {place'} (s₁.put place' (.file bytes)) := .put_file hd bytes
  refine ⟨rfl, place', bytes, s₁, hg, hn, hb, hg', hg'.locate? hl, ?_⟩
  rw [node?_put s₁ (ne_nil_of_not_directory hd), if_pos rfl, List.nil_append]

/-! ### A whole run -/

theorem emitEach_eq_paths (h : (destination root).emitEach preamble as t = (.ok ps, t')) :
    ps = as.map Artifact.path := by
  induction as generalizing t ps with
  | nil =>
    cases h
    rfl
  | cons a as ih =>
    obtain ⟨p, ps, t₁, ha, has, rfl⟩ := Destination.emitEach_cons_eq_ok_iff.1 h
    obtain ⟨rfl, -⟩ := emit_spec ha
    rw [ih has, List.map_cons]

/-- Only the files are touched that the paths of the artifacts lead to. -/
theorem emitEach_grows (h : (destination root).emitEach preamble as t = (.ok ps, t')) :
    t.Grows (t'.targets root as) t' := by
  induction as generalizing t ps with
  | nil =>
    cases h
    exact (Grows.refl _).mono (Set.empty_subset _)
  | cons a as ih =>
    obtain ⟨p, ps, t₁, ha, has, -⟩ := Destination.emitEach_cons_eq_ok_iff.1 h
    obtain ⟨-, place, bytes, t₀, h₀, -, -, h₁, hl, -⟩ := emit_spec ha
    have hrest : t₁.Grows (t'.targets root as) t' := ih has
    refine ((h₀.trans h₁).trans hrest).mono ?_
    rintro q ((rfl | rfl) | ⟨b, hb, hq⟩)
    · exact ⟨a, List.mem_cons_self, hrest.locate? hl⟩
    · exact ⟨a, List.mem_cons_self, hrest.locate? hl⟩
    · exact ⟨b, List.mem_cons_of_mem a hb, hq⟩

/-- The content found while a tree is written is the one by the tree at first, unless the source is
one of the files that were touched until then. -/
theorem hasContent_of_grows (h : t.Grows places t₁) (h' : t₁.Grows places' t')
    (hb : a.HasContent preamble t₁ t₁ bytes)
    (hs : ∀ source ∈ a.source?, ∀ q ∈ t'.locate? source, q ∉ places) :
    a.HasContent preamble t t' bytes := by
  cases a with
  | copied source l =>
    obtain ⟨q, hn, hq, -⟩ := hb
    have hq' : t'.locate? source = some q := h'.locate? hq
    refine ⟨q, (h.file q bytes (hs source rfl q hq')).1 hn, hq', fun r hr => ?_⟩
    exact Option.some.inj ((h.locate? hr).symm.trans hq)
  | generated c => exact hb
  | coders table => exact hb

/-- One artifact of a run: the file that its path leads to, and the tree from which the content of
the file was taken. -/
theorem emitEach_at {before after : List Artifact}
    (h : (destination root).emitEach preamble (before ++ a :: after) t = (.ok ps, t')) :
    ∃ place bytes t₁,
      t.Grows (t'.targets root (before ++ [a])) t₁ ∧ t₁.node? place = some (.file []) ∧
      a.HasContent preamble t₁ t₁ bytes ∧ t₁.Grows (t'.targets root (a :: after)) t' ∧
      t'.locate? (root.push a.path) = some place ∧
      (place ∉ t'.targets root after → t'.node? place = some (.file bytes)) := by
  obtain ⟨qs, rs, t₁, hbefore, h, -⟩ := Destination.emitEach_append_eq_ok h
  obtain ⟨p, rs, t₃, ha, hafter, -⟩ := Destination.emitEach_cons_eq_ok_iff.1 h
  obtain ⟨-, place, bytes, t₂, h₂, hn, hb, h₃, hl, hn₃⟩ := emit_spec ha
  have hg₁ : t.Grows (t₁.targets root before) t₁ := emitEach_grows hbefore
  have hg₃ : t₃.Grows (t'.targets root after) t' := emitEach_grows hafter
  have hl' : t'.locate? (root.push a.path) = some place := hg₃.locate? hl
  refine ⟨place, bytes, t₂, (hg₁.trans h₂).mono ?_, hn, hb, (h₃.trans hg₃).mono ?_, hl',
    fun hp => (hg₃.file place bytes hp).2 hn₃⟩
  · rintro q (⟨b, hm, hq⟩ | rfl)
    · exact ⟨b, List.mem_append_left _ hm, hg₃.locate? (h₃.locate? (h₂.locate? hq))⟩
    · exact ⟨a, List.mem_append_right _ List.mem_cons_self, hl'⟩
  · rintro q (rfl | ⟨b, hm, hq⟩)
    · exact ⟨a, List.mem_cons_self, hl'⟩
    · exact ⟨b, List.mem_cons_of_mem a hm, hq⟩

/-- **An emission that goes well is faithful, up to files with two uses.** The paths given are those
of the artifacts. An artifact whose path leads to another file than all paths after it is in that
file: with the content it is to hold, if its source is none of the files written so far, its own
included; and empty, if its source is its own file. All files that no path of an artifact leads to
are as before. -/
theorem emitAll_faithful (h : (destination root).emitAll preamble as t = (.ok ps, t')) :
    ps = as.map Artifact.path ∧
    (∀ before a after, as = before ++ a :: after →
      (∀ b ∈ after, ¬t'.SamePlace (root.push a.path) (root.push b.path)) →
      ((∀ source ∈ a.source?, ∀ b ∈ before ++ [a], ¬t'.SamePlace source (root.push b.path)) →
        ∃ bytes, t'.read? (root.push a.path) = some bytes ∧ a.HasContent preamble t t' bytes) ∧
      ∀ source ∈ a.source?, t'.SamePlace source (root.push a.path) →
        t'.read? (root.push a.path) = some []) ∧
    ∀ q bytes, (∀ a ∈ as, t'.locate? (root.push a.path) ≠ some q) →
      (t'.node? q = some (.file bytes) ↔ t.node? q = some (.file bytes)) := by
  have heach := Destination.emitEach_of_emitAll h
  refine ⟨emitEach_eq_paths heach, ?_, fun q bytes hq => (emitEach_grows heach).file q bytes ?_⟩
  · rintro before a after rfl htarget
    obtain ⟨place, bytes, t₁, hg, hn, hb, hg', hl, hread⟩ := emitEach_at heach
    have hlast : t'.read? (root.push a.path) = some bytes := by
      refine read?_eq_some_iff.2 ⟨place, hl, hread ?_⟩
      rintro ⟨b, hm, hq⟩
      exact htarget b hm ⟨place, hl, hq⟩
    refine ⟨fun hsource => ⟨bytes, hlast, hasContent_of_grows hg hg' hb ?_⟩, ?_⟩
    · rintro source hs q hq ⟨b, hm, hqb⟩
      exact hsource source hs b hm ⟨q, hq, hqb⟩
    · rintro source hs ⟨q, hq, hqa⟩
      obtain rfl : q = place := Option.some.inj (hqa.symm.trans hl)
      cases a with
      | copied _ l =>
        cases hs
        obtain ⟨q', hn', hq', -⟩ := hb
        obtain rfl : q' = q := Option.some.inj ((hg'.locate? hq').symm.trans hq)
        obtain rfl : bytes = [] := by simpa [hn] using hn'.symm
        exact hlast
      | generated c => cases hs
      | coders table => cases hs
  · rintro ⟨a, ha, hqa⟩
    exact hq a ha hqa

/-- A copy of a file that no artifact is written to. -/
theorem emitAll_faithful_copy :
    let t : FileTree := ⟨[(["w"], .directory), (["w", "A.java"], .file [104, 105])], ["w"]⟩
    let a : Artifact := .copied ⟨"A.java"⟩ ⟨"p", "A.java"⟩
    let root : Path := ⟨"out"⟩
    let run := (destination root).emitAll none [a] t
    run.1 = .ok [⟨"p/A.java"⟩] ∧
      ∃ bytes, run.2.read? (root.push a.path) = some bytes ∧ a.HasContent none t run.2 bytes := by
  intro t a root run
  have hok : run.1 = .ok [⟨"p/A.java"⟩] := by decide +kernel
  have hrun : run = (.ok [⟨"p/A.java"⟩], run.2) := eq_mk_of_fst_eq hok
  have hlater : ∀ b ∈ ([] : List Artifact),
      ¬run.2.SamePlace (root.push a.path) (root.push b.path) := nofun
  have hsource : ∀ source ∈ a.source?, ∀ b ∈ [] ++ [a],
      ¬run.2.SamePlace source (root.push b.path) := by decide +kernel
  obtain ⟨-, hfiles, -⟩ := emitAll_faithful hrun
  exact ⟨hok, (hfiles [] a [] rfl hlater).1 hsource⟩

/-- A copy whose source is its own file is made, and the content is lost. -/
theorem emitAll_onto_itself :
    let t : FileTree := ⟨[(["out"], .directory), (["out", "p"], .directory),
      (["out", "p", "A.java"], .file [104, 105])], []⟩
    let run := (destination ⟨"out"⟩).emitAll none [.copied ⟨"out/p/A.java"⟩ ⟨"p", "A.java"⟩] t
    run.1 = .ok [⟨"p/A.java"⟩] ∧ t.read? ⟨"out/p/A.java"⟩ = some [104, 105] ∧
      run.2.read? ⟨"out/p/A.java"⟩ = some [] := by
  decide +kernel

end FileTree

end Bindery
