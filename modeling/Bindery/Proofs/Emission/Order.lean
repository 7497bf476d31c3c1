import Bindery.Proofs.Emission.Sinks
import Mathlib.Data.List.Pairwise
import Mathlib.Data.List.Perm.Basic

/-!
# The order of artifacts

Sinks in memory have no part in the files that copies are made from, and no sink has a part in
another. So it does not matter in which order artifacts are written to them: each artifact can be
written or not, whatever was written before it.

* `Binding.ClassFile.writes` lists the texts that a class file is put together from, and
  `Artifact.bytes?` gives the bytes that an artifact is to hold: copies are never prefixed;
* `SinkRules.Takes` says that a sink takes some bytes;
* `Sinks.emit_eq_ok_iff` : when one artifact can be written, and what that adds to the sinks;
* `Sinks.emitAll_eq_ok_iff` : when several can be written, and what the sinks are then;
* `Sinks.emitAll_of_perm` : both are the same in any order.
-/

namespace Bindery

/-! ### What artifacts are to hold -/

namespace Binding

/-- The fixed text, ended by a line end. -/
def preambleWrites : Option String → List String
  | none => []
  | some text => if text.toList.getLast? = some '\n' then [text] else [text, "\n"]

/-- The package and a blank line, unless it is the default package. -/
def ClassHeader.packageWrites (h : ClassHeader) : List String :=
  if h.package = "" then [] else ["package " ++ h.package ++ ";\n", "\n"]

/-- The imports and a blank line, if there are any imports. -/
def ClassHeader.importWrites (h : ClassHeader) : List String :=
  if h.imports = [] then [] else h.imports.map (fun i => "import " ++ i ++ ";\n") ++ ["\n"]

/-- The texts that a class file is put together from: the fixed text, the package, the imports, the
declaration, the lines of the body and the closing brace. -/
def ClassFile.writes (preamble : Option String) (c : ClassFile) : List String :=
  preambleWrites preamble ++ c.header.packageWrites ++ c.header.importWrites ++
  ["public " ++ c.header.kind.keyword ++ " " ++ c.header.name ++ " extends " ++
    c.header.supertype ++ " \x7b\n"] ++
  c.lines.map (· ++ "\n") ++ ["\x7d\n"]

theorem join_preambleWrites (preamble : Option String) :
    String.join (preambleWrites preamble) = (preamble.map Text.endLine).getD "" := by
  cases preamble with
  | none => rfl
  | some text =>
    simp only [preambleWrites, Option.map_some, Option.getD_some, Text.endLine]
    split <;> simp

theorem ClassHeader.join_packageWrites (h : ClassHeader) :
    String.join h.packageWrites = Text.joinLines h.packageLines := by
  unfold packageWrites packageLines
  split
  · rfl
  · simp [String.append_assoc]

theorem ClassHeader.join_importWrites (h : ClassHeader) :
    String.join h.importWrites = Text.joinLines h.importLines := by
  unfold importWrites importLines
  split
  · rfl
  · simp [Text.joinLines, Function.comp_def, String.append_assoc]

theorem ClassFile.join_writes (preamble : Option String) (c : ClassFile) :
    String.join (c.writes preamble) = c.render preamble := by
  simp only [writes, String.join_append, join_preambleWrites, ClassHeader.join_packageWrites,
    ClassHeader.join_importWrites, render, allLines, Text.joinLines_append]
  simp [Text.joinLines, ClassHeader.openingLine, String.append_assoc]

end Binding

/-- The bytes that an artifact is to hold: those of its source, or the text of its class. There are
none if the source cannot be read. -/
def Artifact.bytes? (preamble : Option String) (sources : FileTree) : Artifact → Option Bytes
  | .copied source _ => sources.read? source
  | .generated c => some (.ofText (String.join (c.writes preamble)))
  | .coders t => some (.ofText (String.join (t.classFile.writes preamble)))

/-- A sink at the path can be opened and takes the bytes. -/
structure SinkRules.Takes (rules : SinkRules) (p : Path) (bytes : Bytes) : Prop where
  allowed : ∀ q ∈ rules.refused, ¬p.Same q
  fits : ∀ n ∈ rules.budget, bytes.length ≤ n
  flushes : rules.flushFails = false

namespace Sinks

variable {rules : SinkRules} {sources : FileTree} {preamble : Option String} {a : Artifact}
  {as bs : List Artifact} {s s' : Sinks} {p : Path} {ps : List Path} {bytes : Bytes}

/-! ### One sink -/

/-- The bytes that a sink got whose path has the components of the given one. -/
def file? (p : Path) (s : Sinks) : Option Bytes :=
  (s.contents.find? fun e => e.1.Same p).map Prod.snd

theorem contentOf_eq_ok_iff :
    contentOf preamble sources a = .ok bytes ↔ a.bytes? preamble sources = some bytes := by
  cases a with
  | copied source l =>
    rw [contentOf, Artifact.bytes?]
    cases sources.read? source <;> simp
  | generated c => simp [contentOf, Artifact.bytes?, c.join_writes]
  | coders t => simp [contentOf, Artifact.bytes?, t.classFile.join_writes]

theorem content_eq_ok_iff :
    (destination rules sources).content preamble a s = (.ok bytes, s') ↔
      a.bytes? preamble sources = some bytes ∧ s' = s := by
  rw [content_eq, Prod.mk.injEq, contentOf_eq_ok_iff, eq_comm (a := s)]

theorem write_openNew_eq_true_iff (h : s.Lacks p) :
    (destination rules sources).write p bytes (s.openNew p) = (true, s') ↔
      (∀ n ∈ rules.budget, bytes.length ≤ n) ∧ s' = s.holding p bytes := by
  rw [show s.openNew p = s.holding p [] from rfl, write_holding h [] bytes, List.nil_append,
    Prod.mk.injEq, decide_eq_true_eq]
  refine and_congr_right fun hfits => ?_
  rw [fitting_eq_self hfits, eq_comm]

/-- **One artifact.** Its sink is added to the others, with its bytes, if it can be opened and takes
them. -/
theorem emit_eq_ok_iff (h : s.Lacks a.path) :
    (destination rules sources).emit preamble a s = (.ok p, s') ↔
      p = a.path ∧ ∃ bytes, a.bytes? preamble sources = some bytes ∧ rules.Takes a.path bytes ∧
        s' = (s.holding a.path bytes).closeOne := by
  rw [Destination.emit_eq_ok_iff]
  refine and_congr_right fun _ => ?_
  constructor
  · rintro ⟨s₁, s₂, ho, hf, ⟨⟩⟩
    obtain ⟨hallowed, rfl⟩ := openSink_eq_true_iff.1 ho
    obtain ⟨bytes, s₃, s₄, hc, hw, hflush⟩ := Destination.fill_eq_ok_iff.1 hf
    obtain ⟨hb, rfl⟩ := content_eq_ok_iff.1 hc
    obtain ⟨hfits, rfl⟩ := (write_openNew_eq_true_iff h).1 hw
    obtain ⟨hflushes, rfl⟩ := Prod.mk.inj hflush
    exact ⟨bytes, hb, ⟨hallowed, hfits, by simpa using hflushes⟩, rfl⟩
  · rintro ⟨bytes, hb, ht, rfl⟩
    have hwritten : (destination rules sources).write a.path bytes (s.openNew a.path) =
        (true, s.holding a.path bytes) := (write_openNew_eq_true_iff h).2 ⟨ht.fits, rfl⟩
    have hflushed : ∀ s : Sinks, (destination rules sources).flush a.path s = (true, s) := by
      intro s
      have hflushes : (!rules.flushFails) = true := by simp [ht.flushes]
      exact congrArg (·, s) hflushes
    exact ⟨_, _, openSink_eq_true_iff.2 ⟨ht.allowed, rfl⟩,
      Destination.fill_eq_ok_iff.2 ⟨bytes, _, _, content_eq_ok_iff.2 ⟨hb, rfl⟩, hwritten,
        hflushed _⟩, rfl⟩

/-! ### Several sinks -/

/-- An artifact with the bytes that it is to hold. -/
def filed? (preamble : Option String) (sources : FileTree) (a : Artifact) : Option (Path × Bytes) :=
  (a.bytes? preamble sources).map (a.path, ·)

/-- The sink of the artifact can be opened and takes its bytes, and these can be had. -/
def CanWrite (rules : SinkRules) (preamble : Option String) (sources : FileTree) (a : Artifact) :
    Prop :=
  ∃ bytes, a.bytes? preamble sources = some bytes ∧ rules.Takes a.path bytes

/-- Artifacts with sinks of their own. -/
theorem emitEach_eq_ok_iff (hnew : ∀ a ∈ as, s.Lacks a.path)
    (hpaths : as.Pairwise fun a b => a.path ≠ b.path) :
    (destination rules sources).emitEach preamble as s = (.ok ps, s') ↔
      (∀ a ∈ as, CanWrite rules preamble sources a) ∧ ps = as.map Artifact.path ∧
        s' = ⟨s.contents ++ as.filterMap (filed? preamble sources), s.opened + as.length,
          s.closed + as.length⟩ := by
  induction as generalizing s ps with
  | nil =>
    have hempty : (destination rules sources).emitEach preamble [] s = (.ok [], s) := rfl
    rw [hempty]
    constructor
    · rintro ⟨⟩
      simp
    · rintro ⟨-, rfl, rfl⟩
      simp
  | cons a as ih =>
    obtain ⟨ha, has⟩ := List.forall_mem_cons.1 hnew
    obtain ⟨hfirst, hpaths⟩ := List.pairwise_cons.1 hpaths
    -- the sink of the first artifact is not one of those of the others
    have hrest : ∀ {s₁}, (destination rules sources).emit preamble a s = (.ok a.path, s₁) →
        ∀ b ∈ as, s₁.Lacks b.path :=
      fun he b hb => lacks_of_emit he (has b hb) (hfirst b hb)
    rw [Destination.emitEach_cons_eq_ok_iff, List.forall_mem_cons]
    constructor
    · rintro ⟨p, ps, s₁, hemit, heach, rfl⟩
      obtain ⟨rfl, bytes, hb, ht, rfl⟩ := (emit_eq_ok_iff ha).1 hemit
      obtain ⟨hall, rfl, rfl⟩ := (ih (hrest hemit) hpaths).1 heach
      refine ⟨⟨⟨bytes, hb, ht⟩, hall⟩, rfl, ?_⟩
      simp [holding, closeOne, filed?, hb, Nat.add_assoc, Nat.add_comm 1]
    · rintro ⟨⟨⟨bytes, hb, ht⟩, hall⟩, rfl, rfl⟩
      have hemit : (destination rules sources).emit preamble a s =
          (.ok a.path, (s.holding a.path bytes).closeOne) :=
        (emit_eq_ok_iff ha).2 ⟨rfl, bytes, hb, ht, rfl⟩
      refine ⟨_, _, _, hemit, (ih (hrest hemit) hpaths).2 ⟨hall, rfl, ?_⟩, rfl⟩
      simp [holding, closeOne, filed?, hb, Nat.add_assoc, Nat.add_comm 1]

/-- There is one sink for each artifact. -/
theorem map_fst_entries (h : ∀ a ∈ as, CanWrite rules preamble sources a) :
    (as.filterMap (filed? preamble sources)).map Prod.fst = as.map Artifact.path := by
  induction as with
  | nil => rfl
  | cons a as ih =>
    obtain ⟨⟨bytes, hb, -⟩, has⟩ := List.forall_mem_cons.1 h
    simp [filed?, hb, ih has]

/-- **When several artifacts can be written**, and what the sinks are then: no two paths have the
same components, and each artifact can be written on its own. -/
theorem emitAll_eq_ok_iff :
    (destination rules sources).emitAll preamble as .empty = (.ok ps, s') ↔
      (as.Pairwise fun a b => ¬a.path.Same b.path) ∧
        (∀ a ∈ as, CanWrite rules preamble sources a) ∧ ps = as.map Artifact.path ∧
        s' = ⟨as.filterMap (filed? preamble sources), as.length, as.length⟩ := by
  have hpairwise : firstRepeat [] (as.map Artifact.path) = none ↔
      as.Pairwise fun a b => ¬a.path.Same b.path := by
    rw [firstRepeat_eq_none_iff_pairwise, List.pairwise_map]
  cases hr : firstRepeat [] (as.map Artifact.path) with
  | some p =>
    rw [Destination.emitAll_of_firstRepeat_eq_some hr]
    refine iff_of_false nofun fun h => ?_
    rw [hpairwise.2 h.1] at hr
    cases hr
  | none =>
    have hsame := hpairwise.1 hr
    rw [Destination.emitAll_of_firstRepeat_eq_none hr,
      emitEach_eq_ok_iff (fun a _ => lacks_empty a.path) (hsame.imp ne_of_not_same)]
    simp [hsame, empty]

theorem eq_of_same_path {b : Artifact} (h : as.Pairwise fun a b => ¬a.path.Same b.path)
    (ha : a ∈ as) (hb : b ∈ as) (hs : a.path.Same b.path) : a = b := by
  have symm : Std.Symm fun a b : Artifact => ¬a.path.Same b.path := ⟨fun _ _ hn hs => hn hs.symm⟩
  by_contra hne
  exact h.forall ha hb hne hs

/-- Each path of the sinks then has the bytes of its artifact, and no other path has any. -/
theorem file?_eq_some_iff (h : as.Pairwise fun a b => ¬a.path.Same b.path) {m n : Nat} :
    file? p ⟨as.filterMap (filed? preamble sources), m, n⟩ = some bytes ↔
      ∃ a ∈ as, a.path.Same p ∧ a.bytes? preamble sources = some bytes := by
  have hentry : ∀ {a e}, filed? preamble sources a = some e ↔
      e.1 = a.path ∧ a.bytes? preamble sources = some e.2 := by
    intro a e
    rw [filed?, Option.map_eq_some_iff]
    constructor
    · rintro ⟨b, hb, rfl⟩
      exact ⟨rfl, hb⟩
    · rintro ⟨hp, hb⟩
      exact ⟨e.2, hb, Prod.ext hp.symm rfl⟩
  rw [file?, Option.map_eq_some_iff]
  constructor
  · rintro ⟨e, he, rfl⟩
    obtain ⟨a, ha, hae⟩ := List.mem_filterMap.1 (List.mem_of_find?_eq_some he)
    obtain ⟨hpath, hb⟩ := hentry.1 hae
    have hsame : e.1.Same p := by simpa using List.find?_some he
    exact ⟨a, ha, hpath ▸ hsame, hb⟩
  · rintro ⟨a, ha, hsame, hb⟩
    have hmem : (a.path, bytes) ∈ as.filterMap (filed? preamble sources) :=
      List.mem_filterMap.2 ⟨a, ha, hentry.2 ⟨rfl, hb⟩⟩
    have hfound : (as.filterMap (filed? preamble sources)).find? (fun e => e.1.Same p) ≠ none :=
      fun hn => List.find?_eq_none.1 hn _ hmem (by simpa using hsame)
    obtain ⟨e, he⟩ := Option.ne_none_iff_exists'.1 hfound
    -- the sink that was found is that of an artifact with the same path, so of this one
    obtain ⟨b, hbm, hbe⟩ := List.mem_filterMap.1 (List.mem_of_find?_eq_some he)
    obtain ⟨hpath, hbb⟩ := hentry.1 hbe
    have hsame' : e.1.Same p := by simpa using List.find?_some he
    have hab : a.path.Same b.path := hsame.trans (hpath ▸ hsame').symm
    obtain rfl := eq_of_same_path h ha hbm hab
    exact ⟨e, he, Option.some.inj (hbb.symm.trans hb)⟩

/-- **Emission does not depend on the order of artifacts.** Sinks may fail by any rules, and have no
part in the files that copies are made from.

* An emission goes well exactly when no two paths have the same components and each artifact can be
  written on its own; so it goes well in all orders or in none.
* If it does, it gives the paths in the order of the artifacts, and opens and closes one sink for
  each of them. Each path has the bytes that its artifact is to hold, and no other path has any; so
  the sinks hold the same in all orders.
* It does not matter either in which pieces the bytes of the artifacts are written. -/
theorem emitAll_of_perm (rules : SinkRules) (sources : FileTree) (preamble : Option String)
    {as bs : List Artifact} (h : as.Perm bs) :
    let run xs := (destination rules sources).emitAll preamble xs .empty
    ((∃ ps, (run as).1 = .ok ps) ↔
        (as.Pairwise fun a b => ¬a.path.Same b.path) ∧
          ∀ a ∈ as, ∃ bytes, a.bytes? preamble sources = some bytes ∧ rules.Takes a.path bytes) ∧
      ((∃ ps, (run as).1 = .ok ps) ↔ ∃ ps, (run bs).1 = .ok ps) ∧
      (∀ ps, (run as).1 = .ok ps →
        ps = as.map Artifact.path ∧ (run as).2.contents.map Prod.fst = as.map Artifact.path ∧
        (run as).2.opened = as.length ∧ (run as).2.closed = as.length ∧
        (∀ p bytes, (run as).2.file? p = some bytes ↔
          ∃ a ∈ as, a.path.Same p ∧ a.bytes? preamble sources = some bytes) ∧
        ∀ p, (run bs).2.file? p = (run as).2.file? p) ∧
      ∀ cut : Path → Bytes → List Bytes, (∀ p bytes, (cut p bytes).flatten = bytes) →
        ((destination rules sources).inPieces cut).emitAll preamble as .empty = run as := by
  intro run
  have hrun : ∀ {xs ps}, (run xs).1 = .ok ps →
      (xs.Pairwise fun a b => ¬a.path.Same b.path) ∧
        (∀ a ∈ xs, CanWrite rules preamble sources a) ∧ ps = xs.map Artifact.path ∧
        (run xs).2 = ⟨xs.filterMap (filed? preamble sources), xs.length, xs.length⟩ :=
    fun hok => emitAll_eq_ok_iff.1 (eq_mk_of_fst_eq hok)
  have hsucceeds : ∀ xs, (∃ ps, (run xs).1 = .ok ps) ↔
      (xs.Pairwise fun a b => ¬a.path.Same b.path) ∧
        ∀ a ∈ xs, CanWrite rules preamble sources a := by
    intro xs
    constructor
    · rintro ⟨ps, hok⟩
      obtain ⟨hsame, hcan, -⟩ := hrun hok
      exact ⟨hsame, hcan⟩
    · rintro ⟨hsame, hcan⟩
      exact ⟨_, congrArg Prod.fst (emitAll_eq_ok_iff.2 ⟨hsame, hcan, rfl, rfl⟩)⟩
  have hboth : (∃ ps, (run as).1 = .ok ps) ↔ ∃ ps, (run bs).1 = .ok ps := by
    rw [hsucceeds as, hsucceeds bs, h.pairwise_iff fun hn hs => hn hs.symm]
    exact and_congr_right fun _ => forall_congr' fun a => by rw [h.mem_iff]
  refine ⟨hsucceeds as, hboth, fun ps hok => ?_,
    fun cut hcut => emitAll_inPieces hcut rules sources preamble as⟩
  obtain ⟨hsame, hcan, rfl, hs⟩ := hrun hok
  obtain ⟨qs, hok'⟩ := hboth.1 ⟨_, hok⟩
  obtain ⟨hsame', -, -, hs'⟩ := hrun hok'
  refine ⟨rfl, ?_, by rw [hs], by rw [hs], fun p bytes => ?_, fun p => ?_⟩
  · rw [hs]
    exact map_fst_entries hcan
  · rw [hs]
    exact file?_eq_some_iff hsame
  · rw [hs, hs']
    refine Option.ext fun bytes => ?_
    rw [file?_eq_some_iff hsame, file?_eq_some_iff hsame']
    exact exists_congr fun a => by rw [h.mem_iff]

/-- A copy and a class, in both orders. -/
theorem emitAll_of_perm_copy_and_class :
    let rules : SinkRules := ⟨some 80, [⟨"q/C.java"⟩], false⟩
    let sources : FileTree :=
      ⟨[(["w"], .directory), (["w", "A.java"], .file [104, 105])], ["w"]⟩
    let copy : Artifact := .copied ⟨"A.java"⟩ ⟨"p", "A.java"⟩
    let file : Artifact := .generated ⟨.ofClass "p" "B" "java.lang.Object", ["\tint b;"]⟩
    let run xs := (destination rules sources).emitAll (some "// made") xs .empty
    [copy, file].Perm [file, copy] ∧
      (run [copy, file]).1 = .ok [⟨"p/A.java"⟩, ⟨"p/B.java"⟩] ∧
      ((∃ ps, (run [copy, file]).1 = .ok ps) ↔ ∃ ps, (run [file, copy]).1 = .ok ps) ∧
      (run [copy, file]).2.closed = 2 ∧
      ∀ p, (run [file, copy]).2.file? p = (run [copy, file]).2.file? p := by
  intro rules sources copy file run
  have hperm : [copy, file].Perm [file, copy] := .swap file copy []
  have hok : (run [copy, file]).1 = .ok [⟨"p/A.java"⟩, ⟨"p/B.java"⟩] := by decide +kernel
  obtain ⟨-, hboth, hall, -⟩ := emitAll_of_perm rules sources (some "// made") hperm
  obtain ⟨-, -, -, hclosed, -, hsame⟩ := hall _ hok
  exact ⟨hperm, hok, hboth, hclosed, hsame⟩

end Sinks

end Bindery
