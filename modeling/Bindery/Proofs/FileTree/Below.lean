import Bindery.Proofs.Emission.Related
import Bindery.Proofs.FileTree.Faithful
import Bindery.Proofs.Path.Segments

/-!
# What lies below a directory

A path that is relative and has no `..` leads below the directory that it is pushed to: each of its
segments stays or goes down. So an emission with such paths touches no file elsewhere, also when it
fails on the way.

* `FileTree.follow?` is where a path leads, and `FileTree.below` what lies below that;
* `FileTree.prefix_of_locate?_push` : where a pushed path leads;
* `FileTree.GrowsBelow` says that no files changed but those below a root, and
  `FileTree.related_below` that this is kept by the destination with that root.
-/

namespace Bindery.FileTree

variable {t t' : FileTree} {root p : Path} {at_ next place : Place} {places : Set Place}
  {s : String} {segments : List String}

/-- Where the segments of a path lead. This is also said of the path with no text, which is that of
the working directory when another path is pushed to it. -/
def follow? (t : FileTree) (p : Path) : Option Place :=
  p.segments.foldlM t.step (t.startOf p)

/-- The places that lie below the one where a path leads. -/
def below (t : FileTree) (root : Path) : Set Place :=
  {q | ∃ top, t.follow? root = some top ∧ top <+: q ∧ q ≠ top}

/-! ### Going down -/

theorem prefix_of_step (hs : s ≠ "..") (h : t.step at_ s = some next) : at_ <+: next := by
  unfold step at h
  split_ifs at h with hd hstay hname
  · cases h
    exact List.prefix_rfl
  · cases h
    exact List.prefix_append _ _

theorem isDirectory_of_step (h : t.step at_ s = some next) : t.isDirectory at_ = true := by
  unfold step at h
  split at h
  · assumption
  · cases h

theorem step_empty (h : t.isDirectory at_ = true) : t.step at_ "" = some at_ := by
  simp [step, h]

theorem prefix_of_foldlM_step (hs : ".." ∉ segments)
    (h : segments.foldlM t.step at_ = some place) : at_ <+: place := by
  induction segments generalizing at_ with
  | nil =>
    cases h
    exact List.prefix_rfl
  | cons s segments ih =>
    obtain ⟨hne, hs⟩ := not_or.1 (fun hm => hs (List.mem_cons.2 hm))
    obtain ⟨next, hn, h⟩ := Option.bind_eq_some_iff.1 h
    exact (prefix_of_step (Ne.symm hne) hn).trans (ih hs h)

theorem isDirectory_of_foldlM_step (hne : segments ≠ [])
    (h : segments.foldlM t.step at_ = some place) : t.isDirectory at_ = true := by
  cases segments with
  | nil => exact absurd rfl hne
  | cons s segments =>
    obtain ⟨next, hn, -⟩ := Option.bind_eq_some_iff.1 h
    exact isDirectory_of_step hn

/-- **A path that stays below leads from the directory it is pushed to to a place below that.** -/
theorem prefix_of_locate?_push (hp : p.StaysBelow) (h : t.locate? (root.push p) = some place) :
    ∃ top, t.follow? root = some top ∧ t.isDirectory top = true ∧ top <+: place := by
  obtain ⟨habs, hup⟩ := Path.staysBelow_iff.1 hp
  have hstart : t.startOf (root.push p) = t.startOf root := by
    rw [startOf, startOf, Path.isAbsolute_push, habs, Bool.or_false]
  unfold locate? at h
  split at h
  · rw [Path.segments_push habs, List.foldlM_append, hstart] at h
    obtain ⟨top, htop, h⟩ := Option.bind_eq_some_iff.1 h
    have hd : t.isDirectory top = true := isDirectory_of_foldlM_step p.segments_ne_nil h
    refine ⟨top, ?_, hd, prefix_of_foldlM_step hup h⟩
    cases hslash : root.needsSlash with
    | true =>
      rw [hslash] at htop
      exact htop
    | false =>
      -- what is left out of the segments of the root is empty, and stays where it is
      rw [hslash, if_neg Bool.false_ne_true] at htop
      rw [follow?, Path.segments_of_not_needsSlash hslash, List.foldlM_append, htop]
      exact congrArg (· >>= pure) (step_empty hd)
  · cases h

/-- So a file at such a path lies below the root. -/
theorem mem_below_of_locate?_push (hp : p.StaysBelow)
    (h : t.locate? (root.push p) = some place) (hn : t.node? place ≠ some .directory) :
    place ∈ t.below root := by
  obtain ⟨top, htop, hd, hprefix⟩ := prefix_of_locate?_push hp h
  refine ⟨top, htop, hprefix, ?_⟩
  rintro rfl
  exact hn (isDirectory_iff.1 hd)

/-! ### Growing trees -/

theorem Grows.follow? (h : t.Grows places t') (hp : t.follow? p = some place) :
    t'.follow? p = some place := by
  unfold FileTree.follow? at hp ⊢
  rw [startOf, h.workDir]
  exact h.foldlM_step hp

theorem Grows.below (h : t.Grows places t') (root : Path) : t.below root ⊆ t'.below root := by
  rintro q ⟨top, htop, hq⟩
  exact ⟨top, h.follow? htop, hq⟩

/-- Files change below the root only. -/
def GrowsBelow (root : Path) (t t' : FileTree) : Prop := t.Grows (t'.below root) t'

theorem growsBelow_refl (root : Path) (t : FileTree) : GrowsBelow root t t :=
  (Grows.refl t).mono (Set.empty_subset _)

theorem GrowsBelow.trans {t₁ t₂ t₃ : FileTree} (h : GrowsBelow root t₁ t₂)
    (h' : GrowsBelow root t₂ t₃) : GrowsBelow root t₁ t₃ :=
  (Grows.trans h h').mono (Set.union_subset (Grows.below h' root) subset_rfl)

theorem Grows.growsBelow (h : t.Grows {place} t') (hp : place ∈ t'.below root) :
    GrowsBelow root t t' := by
  refine h.mono ?_
  rintro q rfl
  exact hp

theorem keeps_attempt {R : FileTree → FileTree → Prop} {f : FileTree → Option FileTree}
    {left : FileTree → FileTree} (h : ∀ t t', f t = some t' → R t t') (hleft : ∀ t, R t (left t)) :
    Keeps R (attempt f left) := by
  intro t
  unfold attempt
  cases hf : f t with
  | none => exact hleft t
  | some t' => exact h t t' hf

/-- **The destination touches no files but those below its root**, as long as the paths it is given
stay below. -/
theorem related_below (root : Path) :
    Destination.Related (fun _ x _ => Keeps (GrowsBelow root) x) Path.StaysBelow
      (destination root) (destination root) where
  toComposes := composes_keeps (growsBelow_refl root) .trans
  openSink p hp := by
    refine keeps_attempt (fun t t' h => ?_) fun t => ?_
    · obtain ⟨place, hl, hn, hg⟩ := createBelow?_spec h
      exact hg.growsBelow (mem_below_of_locate?_push hp hl (by simp [hn]))
    · exact (makeAbove_grows t _).mono (Set.empty_subset _)
  write p bytes hp := by
    refine keeps_attempt (fun t t' h => ?_) (growsBelow_refl root)
    obtain ⟨place, old, hl, hn, rfl⟩ := append?_eq_some_iff.1 h
    have hd : t.node? place ≠ some .directory := by simp [hn]
    have hg : t.Grows {place} (t.put place (.file (old ++ bytes))) := .put_file hd _
    exact hg.growsBelow (hg.below root (mem_below_of_locate?_push hp hl hd))
  flush _ _ := growsBelow_refl root
  close _ _ := growsBelow_refl root
  readSource _ := growsBelow_refl root

end Bindery.FileTree
