import Bindery.Artifact
import Mathlib.Data.List.Basic

/-!
# The segments of pushed paths

Pushing a relative path puts its segments behind those that are there. So it never leads out of the
directory that it is pushed to, unless one of its segments is `..`; and names that are pushed one
after the other are the components of the path they make.

* `Path.segments_push` : the segments of a pushed path;
* `Path.StaysBelow` says that a path is relative and has no `..`, and `Path.staysBelow_push` that it
  is so with all that is pushed;
* `Location.staysBelow_path` : what a package and a file name need for that;
* `Location.same_path_iff` : different locations of proper names have different paths.
-/

namespace Bindery

/-- A part of a split text has no separator, and only characters of the text. -/
theorem notMem_and_subset_of_mem_splitOn {sep : Char} {cs part : List Char}
    (h : part ∈ cs.splitOn sep) : sep ∉ part ∧ part ⊆ cs := by
  induction cs generalizing part with
  | nil =>
    obtain rfl : part = [] := by simpa [List.splitOn_nil] using h
    simp
  | cons c cs ih =>
    rw [List.splitOn_cons_eq_if_modifyHead] at h
    split_ifs at h with hc
    · rcases List.mem_cons.1 h with rfl | h
      · simp
      · exact ⟨(ih h).1, List.subset_cons_of_subset c (ih h).2⟩
    · obtain ⟨first, rest, hs⟩ := List.exists_cons_of_ne_nil (List.splitOn_ne_nil sep cs)
      rw [hs] at h ih
      have hne : sep ≠ c := fun e => hc (beq_iff_eq.2 e.symm)
      rcases List.mem_cons.1 h with rfl | h
      · obtain ⟨hsep, hsub⟩ := ih List.mem_cons_self
        exact ⟨by simp [hne, hsep], List.cons_subset_cons c hsub⟩
      · obtain ⟨hsep, hsub⟩ := ih (List.mem_cons_of_mem first h)
        exact ⟨hsep, List.subset_cons_of_subset c hsub⟩

namespace Path

variable {p q : Path} {s : String}

/-! ### Pushing -/

theorem segments_ne_nil (p : Path) : p.segments ≠ [] := by simp [segments]

/-- Where no slash is due, the last segment is empty. -/
theorem segments_of_not_needsSlash (h : p.needsSlash = false) :
    p.segments = p.segments.dropLast ++ [""] := by
  unfold needsSlash at h
  cases hl : p.text.toList.getLast? with
  | none => simp [segments, List.getLast?_eq_none_iff.1 hl]
  | some c =>
    obtain ⟨before, hb⟩ := List.getLast?_eq_some_iff.1 hl
    obtain rfl : c = '/' := by simpa [hl] using h
    simp [segments, hb, List.splitOn_append_cons_self]

/-- **The segments of a relative path go behind those that are there**, in the place of the last one
if that is empty. -/
theorem segments_push (h : q.isAbsolute = false) :
    (p.push q).segments =
      (if p.needsSlash then p.segments else p.segments.dropLast) ++ q.segments := by
  rw [push, if_neg (by simp [h])]
  by_cases hslash : p.needsSlash = true
  · rw [if_pos hslash, if_pos hslash]
    have htext : (p.text ++ "/" ++ q.text).toList = p.text.toList ++ '/' :: q.text.toList := by
      simp [String.toList_append]
    rw [segments, htext, List.splitOn_append_cons_self, List.map_append]
    rfl
  · rw [if_neg hslash, if_neg hslash]
    unfold needsSlash at hslash
    cases hl : p.text.toList.getLast? with
    | none =>
      have hp : p.text.toList = [] := List.getLast?_eq_none_iff.1 hl
      simp [segments, String.toList_append, hp]
    | some c =>
      obtain ⟨before, hb⟩ := List.getLast?_eq_some_iff.1 hl
      obtain rfl : c = '/' := by simpa [hl] using hslash
      simp [segments, String.toList_append, hb, List.splitOn_append_cons_self]

theorem isAbsolute_push : (p.push q).isAbsolute = (p.isAbsolute || q.isAbsolute) := by
  cases hq : q.isAbsolute with
  | true => rw [push_of_isAbsolute hq, hq, Bool.or_true]
  | false =>
    rw [push, hq, Bool.or_false]
    cases hp : p.text.toList with
    | nil => simpa [needsSlash, isAbsolute, hp, String.toList_append] using hq
    | cons c cs => cases p.needsSlash <;> simp [isAbsolute, hp, String.toList_append]

/-! ### Paths that stay below a directory -/

/-- The path is relative, and no component of it is `..`. -/
def StaysBelow (p : Path) : Prop := p.isAbsolute = false ∧ .up ∉ p.components

instance (p : Path) : Decidable p.StaysBelow := inferInstanceAs (Decidable (_ ∧ _))

theorem innerComponent?_eq_up_iff : innerComponent? s = some .up ↔ s = ".." := by
  unfold innerComponent?
  split_ifs with h h'
  · rcases h with rfl | rfl <;> simp
  · simp [h']
  · simp [h']

theorem firstComponent?_eq_up_iff : firstComponent? s = some .up ↔ s = ".." := by
  unfold firstComponent?
  split_ifs with h
  · simp [h]
  · exact innerComponent?_eq_up_iff

theorem mem_components_iff {c : PathComponent} (hc : c ≠ .root) :
    c ∈ p.components ↔ c ∈ componentsOf p.segments := by
  rw [components, List.mem_append]
  refine or_iff_right ?_
  split <;> simp [hc]

theorem up_mem_components_iff : .up ∈ p.components ↔ ".." ∈ p.segments := by
  rw [mem_components_iff (by decide)]
  obtain ⟨s, rest, hs⟩ := List.exists_cons_of_ne_nil p.segments_ne_nil
  rw [hs, componentsOf, List.mem_append, Option.mem_toList, List.mem_filterMap, List.mem_cons]
  simp only [innerComponent?_eq_up_iff, exists_eq_right]
  rw [firstComponent?_eq_up_iff, eq_comm]

theorem staysBelow_iff : p.StaysBelow ↔ p.isAbsolute = false ∧ ".." ∉ p.segments := by
  rw [StaysBelow, up_mem_components_iff]

theorem staysBelow_empty : empty.StaysBelow := by decide

/-- **A pushed path stays below if both of its parts do.** -/
theorem staysBelow_push : (p.push q).StaysBelow ↔ p.StaysBelow ∧ q.StaysBelow := by
  simp only [staysBelow_iff, isAbsolute_push, Bool.or_eq_false_iff]
  cases hq : q.isAbsolute with
  | true => simp
  | false =>
    have hlast : ".." ∈ (if p.needsSlash then p.segments else p.segments.dropLast) ↔
        ".." ∈ p.segments := by
      cases hslash : p.needsSlash with
      | true => rfl
      | false =>
        rw [segments_of_not_needsSlash hslash]
        simp
    rw [segments_push hq, List.mem_append, hlast]
    tauto

theorem staysBelow_foldl {qs : List Path} :
    (qs.foldl push p).StaysBelow ↔ p.StaysBelow ∧ ∀ q ∈ qs, q.StaysBelow := by
  induction qs generalizing p with
  | nil => simp
  | cons q qs ih => rw [List.foldl_cons, ih, staysBelow_push, List.forall_mem_cons, and_assoc]

end Path

/-- No part of the package starts with a slash. -/
def IsRelativePackage (package : String) : Prop :=
  ∀ part ∈ package.toList.splitOn '.', part.head? ≠ some '/'

instance : DecidablePred IsRelativePackage := fun package =>
  inferInstanceAs (Decidable (∀ part ∈ package.toList.splitOn '.', _))

/-- The parts of a package have no dots, so none of them leads up. -/
theorem Path.staysBelow_ofPackage {package : String} :
    (Path.ofPackage package).StaysBelow ↔ IsRelativePackage package := by
  have hpart : ∀ part ∈ package.toList.splitOn '.',
      ((⟨String.ofList part⟩ : Path).StaysBelow ↔ part.head? ≠ some '/') := by
    intro part hpart
    have hup : ".." ∉ (⟨String.ofList part⟩ : Path).segments := by
      rw [Path.segments, String.toList_ofList, List.mem_map]
      rintro ⟨segment, hs, he⟩
      have hdot : '.' ∈ segment := by
        rw [← String.toList_ofList (l := segment), he]
        decide
      exact (notMem_and_subset_of_mem_splitOn hpart).1
        ((notMem_and_subset_of_mem_splitOn hs).2 hdot)
    rw [Path.staysBelow_iff, and_iff_left hup]
    simp [Path.isAbsolute]
  rw [Path.ofPackage, Path.staysBelow_foldl, and_iff_right Path.staysBelow_empty]
  simp only [List.forall_mem_map, List.mem_filter]
  constructor
  · intro h part hp
    by_cases hnil : part = []
    · simp [hnil]
    · exact (hpart part hp).1 (h part ⟨hp, by simpa using hnil⟩)
  · rintro h part ⟨hp, -⟩
    exact (hpart part hp).2 (h part hp)

/-- **When the path of a location stays below**: the package has no part that starts with a slash,
and the file name, as a path of its own, stays below. -/
theorem Location.staysBelow_path {l : Location} :
    l.path.StaysBelow ↔ IsRelativePackage l.package ∧ (⟨l.fileName⟩ : Path).StaysBelow := by
  rw [Location.path, Path.staysBelow_push, Path.staysBelow_ofPackage]

/-! ### Names -/

namespace Path

/-- The text is the name of a file or directory. -/
structure IsName (s : String) : Prop where
  ne_empty : s ≠ ""
  ne_here : s ≠ "."
  ne_up : s ≠ ".."
  noSlash : '/' ∉ s.toList

namespace IsName

theorem segments (h : IsName s) : (⟨s⟩ : Path).segments = [s] := by
  rw [Path.segments, List.splitOn_eq_singleton h.noSlash, List.map_singleton,
    String.ofList_toList]

theorem isAbsolute (h : IsName s) : (⟨s⟩ : Path).isAbsolute = false := by
  refine decide_eq_false fun hs => h.noSlash ?_
  exact List.mem_of_head? hs

theorem staysBelow (h : IsName s) : (⟨s⟩ : Path).StaysBelow := by
  rw [staysBelow_iff, h.segments]
  exact ⟨h.isAbsolute, by simpa using h.ne_up.symm⟩

theorem innerComponent?_eq (h : IsName s) : innerComponent? s = some (.name s) := by
  simp [innerComponent?, h.ne_empty, h.ne_here, h.ne_up]

theorem firstComponent?_eq (h : IsName s) : firstComponent? s = some (.name s) := by
  rw [firstComponent?, if_neg h.ne_here, h.innerComponent?_eq]

/-- A name that is pushed is one more component. -/
theorem components_push (h : IsName s) (p : Path) :
    (p.push ⟨s⟩).components = p.components ++ [.name s] := by
  rw [components, components, isAbsolute_push, h.isAbsolute, Bool.or_false,
    segments_push h.isAbsolute, h.segments, List.append_assoc]
  congr 1
  cases hslash : p.needsSlash with
  | true =>
    obtain ⟨first, rest, hp⟩ := List.exists_cons_of_ne_nil p.segments_ne_nil
    simp [hp, componentsOf, h.innerComponent?_eq]
  | false =>
    -- an empty last segment is no component
    have hfirst : firstComponent? "" = none := by decide
    have hinner : innerComponent? "" = none := by decide
    rw [segments_of_not_needsSlash hslash, List.dropLast_concat]
    cases p.segments.dropLast with
    | nil => simp [componentsOf, h.firstComponent?_eq, hfirst]
    | cons first rest => simp [componentsOf, h.innerComponent?_eq, hinner]

end IsName

theorem isName_of_innerComponent? {part : String} (hpart : '/' ∉ part.toList)
    (h : innerComponent? part = some (.name s)) : IsName s := by
  unfold innerComponent? at h
  split_ifs at h with hsilent hup
  · cases h
  · obtain ⟨hempty, hhere⟩ := not_or.1 hsilent
    cases h
    exact ⟨hempty, hhere, hup, hpart⟩

theorem isName_of_firstComponent? {part : String} (hpart : '/' ∉ part.toList)
    (h : firstComponent? part = some (.name s)) : IsName s := by
  unfold firstComponent? at h
  split at h
  · cases h
  · exact isName_of_innerComponent? hpart h

theorem isName_of_mem_components {p : Path} (h : .name s ∈ p.components) : IsName s := by
  have hslash : ∀ part ∈ p.segments, '/' ∉ part.toList := by
    rw [segments, List.forall_mem_map]
    intro cs hcs
    rw [String.toList_ofList]
    exact (notMem_and_subset_of_mem_splitOn hcs).1
  rw [mem_components_iff (by simp)] at h
  obtain ⟨first, rest, hs⟩ := List.exists_cons_of_ne_nil p.segments_ne_nil
  rw [hs, List.forall_mem_cons] at hslash
  rw [hs, componentsOf, List.mem_append, Option.mem_toList, List.mem_filterMap] at h
  rcases h with h | ⟨part, hm, h⟩
  · exact isName_of_firstComponent? hslash.1 h
  · exact isName_of_innerComponent? (hslash.2 part hm) h

/-- The last component of a path, if it is a name, is one. -/
theorem isName_of_fileName? {p : Path} (h : p.fileName? = some s) : IsName s := by
  unfold fileName? at h
  split at h
  · next hlast =>
    cases h
    exact isName_of_mem_components (List.mem_of_getLast? hlast)
  · cases h

theorem components_foldl {ss : List String} (h : ∀ s ∈ ss, IsName s) (p : Path) :
    ((ss.map Path.mk).foldl push p).components = p.components ++ ss.map .name := by
  induction ss generalizing p with
  | nil => simp
  | cons s ss ih =>
    obtain ⟨hs, hss⟩ := List.forall_mem_cons.1 h
    rw [List.map_cons, List.foldl_cons, ih hss, hs.components_push, List.map_cons,
      List.append_assoc, List.singleton_append]

end Path

/-- The names of a package's parts. -/
theorem Path.components_ofPackage {package : String}
    (h : ∀ part ∈ package.toList.splitOn '.', IsName (String.ofList part)) :
    (Path.ofPackage package).components =
      (package.toList.splitOn '.').map fun part => .name (String.ofList part) := by
  have hne : (package.toList.splitOn '.').filter (· ≠ []) = package.toList.splitOn '.' := by
    refine List.filter_eq_self.2 fun part hp => ?_
    have hpart : String.ofList part ≠ "" := (h part hp).ne_empty
    simpa using hpart
  have hnames := components_foldl (List.forall_mem_map.2 h) empty
  rw [List.map_map, List.map_map] at hnames
  rw [ofPackage, hne]
  exact hnames

namespace Location

variable {l l' : Location}

/-- The parts of the package and the file name are names. -/
structure IsProper (l : Location) : Prop where
  package : ∀ part ∈ l.package.toList.splitOn '.', Path.IsName (String.ofList part)
  fileName : Path.IsName l.fileName

theorem IsProper.components_path (h : l.IsProper) :
    l.path.components =
      (l.package.toList.splitOn '.').map (fun part => .name (String.ofList part)) ++
        [.name l.fileName] := by
  rw [path, h.fileName.components_push, Path.components_ofPackage h.package]

/-- **Different proper locations have different paths.** -/
theorem same_path_iff (h : l.IsProper) (h' : l'.IsProper) : l.path.Same l'.path ↔ l = l' := by
  refine ⟨fun hs => ?_, ?_⟩
  · rw [Path.Same, h.components_path, h'.components_path] at hs
    obtain ⟨hparts, hfile⟩ := List.append_inj' hs rfl
    have hinj : Function.Injective fun part => PathComponent.name (String.ofList part) :=
      fun a b e => String.ofList_injective (PathComponent.name.inj e)
    -- a package is put together from its parts again
    have hsplit := congrArg (List.intercalate ['.']) (hinj.list_map hparts)
    rw [List.intercalate_splitOn, List.intercalate_splitOn, String.toList_inj] at hsplit
    obtain ⟨package, file⟩ := l
    obtain ⟨package', file'⟩ := l'
    obtain rfl : package = package' := hsplit
    obtain rfl : file = file' := by simpa using hfile
    rfl
  · rintro rfl
    rfl

end Location

end Bindery
