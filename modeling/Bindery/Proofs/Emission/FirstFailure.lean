import Bindery.Proofs.Emission.Order

/-!
# Where an emission stops

An emission to sinks in memory writes artifacts up to the first that cannot be completed. Which one
this is depends on no other artifact, and so does what it leaves in its sink.

* `firstRepeat_eq_some_iff` : the path that is refused is the first to repeat an earlier one;
* `Sinks.Stops` says why an artifact cannot be completed, and what is then in its sink;
* `Sinks.emit_eq_error_iff` and `Sinks.emitEach_eq_error_iff` : when one artifact fails, and where
  several of them stop;
* `Sinks.emitAll_stops_at_first` is the main result.
-/

namespace Bindery

/-- The first repeated path comes behind paths that do not repeat, and repeats one of them, or one
that was seen before. -/
theorem firstRepeat_eq_some_iff {seen : List (List PathComponent)} {ps : List Path} {p : Path} :
    firstRepeat seen ps = some p ↔
      ∃ before after, ps = before ++ p :: after ∧ firstRepeat seen before = none ∧
        (p.components ∈ before.map Path.components ∨ p.components ∈ seen) := by
  induction ps generalizing seen with
  | nil => simp [firstRepeat]
  | cons q ps ih =>
    rw [firstRepeat]
    split_ifs with hq
    · constructor
      · rintro ⟨⟩
        exact ⟨[], ps, rfl, rfl, .inr hq⟩
      · rintro ⟨before, after, hsplit, hnone, -⟩
        cases before with
        | nil =>
          cases hsplit
          rfl
        | cons b before =>
          cases hsplit
          rw [firstRepeat, if_pos hq] at hnone
          cases hnone
    · rw [ih]
      constructor
      · rintro ⟨before, after, rfl, hnone, hmem⟩
        refine ⟨q :: before, after, rfl, by rwa [firstRepeat, if_neg hq], ?_⟩
        rw [List.map_cons, List.mem_cons]
        rw [List.mem_cons] at hmem
        tauto
      · rintro ⟨before, after, hsplit, hnone, hmem⟩
        cases before with
        | nil =>
          cases hsplit
          exact absurd (hmem.resolve_left List.not_mem_nil) hq
        | cons b before =>
          cases hsplit
          rw [firstRepeat, if_neg hq] at hnone
          refine ⟨before, after, rfl, hnone, ?_⟩
          rw [List.map_cons, List.mem_cons] at hmem
          rw [List.mem_cons]
          tauto

/-- No two of the artifacts have paths with the same components. -/
def Artifact.Distinct (as : List Artifact) : Prop := as.Pairwise fun a b => ¬a.path.Same b.path

namespace Artifact

variable {as : List Artifact} {p : Path}

theorem firstRepeat_eq_none_iff_distinct : firstRepeat [] (as.map path) = none ↔ Distinct as := by
  rw [firstRepeat_eq_none_iff_pairwise, List.pairwise_map, Distinct]

/-- The artifact that is refused is the first whose path repeats that of an earlier one. -/
theorem firstRepeat_eq_some_iff_again :
    firstRepeat [] (as.map path) = some p ↔
      ∃ before a after, as = before ++ a :: after ∧ Distinct before ∧
        (∃ b ∈ before, b.path.Same a.path) ∧ p = a.path := by
  rw [firstRepeat_eq_some_iff]
  constructor
  · rintro ⟨paths, later, hsplit, hnone, hmem⟩
    obtain ⟨before, rest, rfl, rfl, hrest⟩ := List.map_eq_append_iff.1 hsplit
    obtain ⟨a, after, rfl, rfl, rfl⟩ := List.map_eq_cons_iff.1 hrest
    obtain ⟨q, hq, hsame⟩ := List.mem_map.1 (hmem.resolve_right List.not_mem_nil)
    obtain ⟨b, hb, rfl⟩ := List.mem_map.1 hq
    exact ⟨before, a, after, rfl, firstRepeat_eq_none_iff_distinct.1 hnone, ⟨b, hb, hsame⟩, rfl⟩
  · rintro ⟨before, a, after, rfl, hdistinct, ⟨b, hb, hsame⟩, rfl⟩
    refine ⟨before.map path, after.map path, by simp,
      firstRepeat_eq_none_iff_distinct.2 hdistinct, .inl ?_⟩
    exact List.mem_map.2 ⟨b.path, List.mem_map_of_mem hb, hsame⟩

end Artifact

namespace Sinks

open Artifact (Distinct)

variable {rules : SinkRules} {sources : FileTree} {preamble : Option String} {a : Artifact}
  {as : List Artifact} {s s' : Sinks} {e : EmitError}

/-- The sinks with some more, each of them opened and closed. -/
def adding (s : Sinks) (entries : List (Path × Bytes)) : Sinks :=
  ⟨s.contents ++ entries, s.opened + entries.length, s.closed + entries.length⟩

theorem adding_adding (entries more : List (Path × Bytes)) :
    (s.adding entries).adding more = s.adding (entries ++ more) := by
  simp [adding, Nat.add_assoc]

/-- Why an artifact cannot be completed: the error, and its sink with what that has got, if it was
opened. -/
inductive Stops (rules : SinkRules) (preamble : Option String) (sources : FileTree)
    (a : Artifact) : EmitError → List (Path × Bytes) → Prop where
  /-- No sink can be opened. -/
  | notOpened (refused : ∃ q ∈ rules.refused, a.path.Same q) :
      Stops rules preamble sources a (.cannotOpen a.path) []
  /-- The source of a copy cannot be read. Its sink is open, and stays empty. -/
  | notRead {source : Path} {l : Location} (copy : a = .copied source l)
      (allowed : ∀ q ∈ rules.refused, ¬a.path.Same q) (unread : sources.read? source = none) :
      Stops rules preamble sources a (.cannotRead source) [(a.path, [])]
  /-- There is more to write than fits. The sink gets what fits. -/
  | overrun {bytes : Bytes} {n : Nat} (allowed : ∀ q ∈ rules.refused, ¬a.path.Same q)
      (content : a.bytes? preamble sources = some bytes) (budget : rules.budget = some n)
      (more : n < bytes.length) :
      Stops rules preamble sources a (.cannotWrite a.path) [(a.path, bytes.take n)]
  /-- All is written, but does not arrive for sure. -/
  | notFlushed {bytes : Bytes} (allowed : ∀ q ∈ rules.refused, ¬a.path.Same q)
      (content : a.bytes? preamble sources = some bytes)
      (fits : ∀ n ∈ rules.budget, bytes.length ≤ n) (fails : rules.flushFails = true) :
      Stops rules preamble sources a (.cannotWrite a.path) [(a.path, bytes)]

/-- Either no sink can be opened, or there is one. -/
theorem Stops.opened_or {left : List (Path × Bytes)} (h : Stops rules preamble sources a e left) :
    ((∃ q ∈ rules.refused, a.path.Same q) ∧ e = .cannotOpen a.path ∧ left = []) ∨
      (∀ q ∈ rules.refused, ¬a.path.Same q) ∧ ∃ bytes, left = [(a.path, bytes)] := by
  cases h with
  | notOpened hrefused => exact .inl ⟨hrefused, rfl, rfl⟩
  | notRead _ hallowed _ => exact .inr ⟨hallowed, _, rfl⟩
  | overrun hallowed _ _ _ => exact .inr ⟨hallowed, _, rfl⟩
  | notFlushed hallowed _ _ _ => exact .inr ⟨hallowed, _, rfl⟩

theorem openSink_eq_false_iff {p : Path} :
    (destination rules sources).openSink p s = (false, s') ↔
      (∃ q ∈ rules.refused, p.Same q) ∧ s' = s := by
  simp only [destination]
  split_ifs with h
  · simp only [List.any_eq_true, decide_eq_true_eq] at h
    exact ⟨fun e => ⟨h, (Prod.mk.inj e).2.symm⟩, fun e => by rw [e.2]⟩
  · simp only [List.any_eq_true, decide_eq_true_eq] at h
    exact iff_of_false (fun e => Bool.noConfusion (Prod.mk.inj e).1) fun hrefused => h hrefused.1

theorem contentOf_eq_error_iff :
    contentOf preamble sources a = .error e ↔
      ∃ source l, a = .copied source l ∧ sources.read? source = none ∧ e = .cannotRead source := by
  cases a with
  | copied source l =>
    rw [contentOf]
    cases hread : sources.read? source with
    | some bytes => simp [hread]
    | none => simp [hread, eq_comm]
  | generated c => simp [contentOf]
  | coders t => simp [contentOf]

theorem content_eq_error_iff :
    (destination rules sources).content preamble a s = (.error e, s') ↔
      (∃ source l, a = .copied source l ∧ sources.read? source = none ∧ e = .cannotRead source) ∧
        s' = s := by
  rw [content_eq, Prod.mk.injEq, contentOf_eq_error_iff, eq_comm (a := s)]

theorem write_openNew_eq_false_iff {p : Path} {bytes : Bytes} (h : s.Lacks p) :
    (destination rules sources).write p bytes (s.openNew p) = (false, s') ↔
      ∃ n, rules.budget = some n ∧ n < bytes.length ∧ s' = s.holding p (bytes.take n) := by
  rw [show s.openNew p = s.holding p [] from rfl, write_holding h [] bytes, List.nil_append,
    Prod.mk.injEq, decide_eq_false_iff_not]
  cases hb : rules.budget with
  | none => simp
  | some n => simp [fitting, eq_comm]

theorem flush_eq_iff {p : Path} {flushed : Bool} :
    (destination rules sources).flush p s = (flushed, s') ↔
      rules.flushFails = !flushed ∧ s' = s := by
  rw [show (destination rules sources).flush p s = (!rules.flushFails, s) from rfl, Prod.mk.injEq,
    eq_comm (a := s)]
  cases rules.flushFails <;> cases flushed <;> simp

/-- An artifact whose sink was just opened. -/
theorem fill_openNew_eq_error_iff (h : s.Lacks a.path) {s₁ : Sinks}
    (allowed : ∀ q ∈ rules.refused, ¬a.path.Same q) :
    (destination rules sources).fill preamble a (s.openNew a.path) = (.error e, s₁) ↔
      ∃ bytes, Stops rules preamble sources a e [(a.path, bytes)] ∧
        s₁ = s.holding a.path bytes := by
  rw [Destination.fill_eq_error_iff]
  constructor
  · rintro (hr | ⟨bytes, s₂, hr, rfl, hw | ⟨s₃, hw, hf⟩⟩)
    · obtain ⟨⟨source, l, hcopy, hread, rfl⟩, rfl⟩ := content_eq_error_iff.1 hr
      exact ⟨[], .notRead hcopy allowed hread, rfl⟩
    · obtain ⟨hb, rfl⟩ := content_eq_ok_iff.1 hr
      obtain ⟨n, hbudget, hmore, rfl⟩ := (write_openNew_eq_false_iff h).1 hw
      exact ⟨bytes.take n, .overrun allowed hb hbudget hmore, rfl⟩
    · obtain ⟨hb, rfl⟩ := content_eq_ok_iff.1 hr
      obtain ⟨hfits, rfl⟩ := (write_openNew_eq_true_iff h).1 hw
      obtain ⟨hfails, rfl⟩ := flush_eq_iff.1 hf
      exact ⟨bytes, .notFlushed allowed hb hfits hfails, rfl⟩
  · rintro ⟨left, hstops, rfl⟩
    -- What is left is a list of one entry: this rules out that no sink was opened.
    generalize hentries : [(a.path, left)] = entries at hstops
    cases hstops with
    | notOpened => cases hentries
    | notRead hcopy _ hread =>
      cases hentries
      exact .inl (content_eq_error_iff.2 ⟨⟨_, _, hcopy, hread, rfl⟩, rfl⟩)
    | overrun _ hb hbudget hmore =>
      cases hentries
      exact .inr ⟨_, _, content_eq_ok_iff.2 ⟨hb, rfl⟩, rfl,
        .inl ((write_openNew_eq_false_iff h).2 ⟨_, hbudget, hmore, rfl⟩)⟩
    | notFlushed _ hb hfits hfails =>
      cases hentries
      exact .inr ⟨_, _, content_eq_ok_iff.2 ⟨hb, rfl⟩, rfl,
        .inr ⟨_, (write_openNew_eq_true_iff h).2 ⟨hfits, rfl⟩, flush_eq_iff.2 ⟨hfails, rfl⟩⟩⟩

/-- **One artifact.** It fails if it cannot be completed, and leaves what it has to. -/
theorem emit_eq_error_iff (h : s.Lacks a.path) :
    (destination rules sources).emit preamble a s = (.error e, s') ↔
      ∃ left, Stops rules preamble sources a e left ∧ s' = s.adding left := by
  rw [Destination.emit_eq_error_iff]
  constructor
  · rintro (⟨ho, rfl⟩ | ⟨s₁, s₂, ho, hf, ⟨⟩⟩)
    · obtain ⟨hrefused, rfl⟩ := openSink_eq_false_iff.1 ho
      exact ⟨[], .notOpened hrefused, by simp [adding]⟩
    · obtain ⟨hallowed, rfl⟩ := openSink_eq_true_iff.1 ho
      obtain ⟨bytes, hstops, rfl⟩ := (fill_openNew_eq_error_iff h hallowed).1 hf
      exact ⟨_, hstops, rfl⟩
  · rintro ⟨left, hstops, rfl⟩
    rcases hstops.opened_or with ⟨hrefused, rfl, rfl⟩ | ⟨hallowed, bytes, rfl⟩
    · exact .inl ⟨openSink_eq_false_iff.2 ⟨hrefused, by simp [adding]⟩, rfl⟩
    · exact .inr ⟨_, _, openSink_eq_true_iff.2 ⟨hallowed, rfl⟩,
        (fill_openNew_eq_error_iff h hallowed).2 ⟨bytes, hstops, rfl⟩, rfl⟩

/-- A sink that is complete, and then those of other artifacts. -/
theorem adding_filed {bytes : Bytes} (hb : a.bytes? preamble sources = some bytes)
    (entries : List (Path × Bytes)) :
    ((s.holding a.path bytes).closeOne).adding
        (as.filterMap (filed? preamble sources) ++ entries) =
      s.adding ((a :: as).filterMap (filed? preamble sources) ++ entries) := by
  have hfiled : filed? preamble sources a = some (a.path, bytes) := by simp [filed?, hb]
  rw [List.filterMap_cons_some hfiled]
  exact adding_adding [(a.path, bytes)] _

/-- **Several artifacts with sinks of their own** stop at the first that cannot be completed. -/
theorem emitEach_eq_error_iff (hnew : ∀ a ∈ as, s.Lacks a.path)
    (hpaths : as.Pairwise fun a b => a.path ≠ b.path) :
    (destination rules sources).emitEach preamble as s = (.error e, s') ↔
      ∃ before a after left, as = before ++ a :: after ∧
        (∀ b ∈ before, CanWrite rules preamble sources b) ∧
        Stops rules preamble sources a e left ∧
        s' = s.adding (before.filterMap (filed? preamble sources) ++ left) := by
  induction as generalizing s with
  | nil =>
    refine iff_of_false nofun ?_
    rintro ⟨before, a, after, left, hsplit, -⟩
    simp at hsplit
  | cons a as ih =>
    obtain ⟨ha, has⟩ := List.forall_mem_cons.1 hnew
    obtain ⟨hfirst, hpaths⟩ := List.pairwise_cons.1 hpaths
    -- What carries the induction: the first artifact opens no sink of a later one.
    have hrest : ∀ {r s₁}, (destination rules sources).emit preamble a s = (r, s₁) →
        ∀ b ∈ as, s₁.Lacks b.path :=
      fun he b hb => lacks_of_emit he (has b hb) (hfirst b hb)
    rw [Destination.emitEach_cons_eq_error_iff]
    constructor
    · rintro (hemit | ⟨p, s₁, hemit, heach⟩)
      · obtain ⟨left, hstops, rfl⟩ := (emit_eq_error_iff ha).1 hemit
        exact ⟨[], a, as, left, rfl, nofun, hstops, rfl⟩
      · obtain ⟨before, b, after, left, rfl, hcan, hstops, rfl⟩ :=
          (ih (hrest hemit) hpaths).1 heach
        obtain ⟨rfl, bytes, hb, ht, rfl⟩ := (emit_eq_ok_iff ha).1 hemit
        refine ⟨a :: before, b, after, left, rfl, List.forall_mem_cons.2 ⟨⟨bytes, hb, ht⟩, hcan⟩,
          hstops, adding_filed hb left⟩
    · rintro ⟨before, b, after, left, hsplit, hcan, hstops, rfl⟩
      cases before with
      | nil =>
        cases hsplit
        exact .inl ((emit_eq_error_iff ha).2 ⟨left, hstops, rfl⟩)
      | cons c before =>
        cases hsplit
        obtain ⟨⟨bytes, hb, ht⟩, hcan⟩ := List.forall_mem_cons.1 hcan
        have hemit := (emit_eq_ok_iff ha).2 ⟨rfl, bytes, hb, ht, rfl⟩
        exact .inr ⟨_, _, hemit, (ih (hrest hemit) hpaths).2
          ⟨before, b, after, left, rfl, hcan, hstops, (adding_filed hb left).symm⟩⟩

/-- The bytes of artifacts that can be written are those of as many sinks. -/
theorem adding_filterMap_filed (h : ∀ a ∈ as, CanWrite rules preamble sources a) :
    empty.adding (as.filterMap (filed? preamble sources)) =
      ⟨as.filterMap (filed? preamble sources), as.length, as.length⟩ := by
  have hlength : (as.filterMap (filed? preamble sources)).length = as.length := by
    rw [← List.length_map (f := Prod.fst), map_fst_entries h, List.length_map]
  simp [adding, empty, hlength]

/-- **An emission stops at exactly the first artifact that fails.** For all artifacts, any fixed
text and sinks that fail by any rules:

* if the paths of two artifacts have the same components, the first artifact whose path repeats that
  of an earlier one is refused, and no sink is opened;
* otherwise, if some artifact cannot be completed, the first of these ends the emission with its
  error. The sinks are those of the artifacts before it, each with all its bytes, and its own with
  what that got, if it was opened. No later artifact has one;
* otherwise the emission gives all paths, and each sink has all its bytes;
* in any case as many sinks are closed as are opened;
* in whatever pieces the bytes of the artifacts are written, it ends in the same way, with the same
  sinks. -/
theorem emitAll_stops_at_first (rules : SinkRules) (sources : FileTree)
    (preamble : Option String) (as : List Artifact) :
    let run := (destination rules sources).emitAll preamble as .empty
    (¬Distinct as →
        ∃ before a after, as = before ++ a :: after ∧ Distinct before ∧
          (∃ b ∈ before, b.path.Same a.path) ∧
          run = (.error (.duplicateTarget a.path), .empty)) ∧
      (Distinct as → (¬∀ a ∈ as, CanWrite rules preamble sources a) →
        ∃ before a after e left, as = before ++ a :: after ∧
          (∀ b ∈ before, CanWrite rules preamble sources b) ∧
          Stops rules preamble sources a e left ∧
          run = (.error e, empty.adding (before.filterMap (filed? preamble sources) ++ left))) ∧
      (Distinct as → (∀ a ∈ as, CanWrite rules preamble sources a) →
        run = (.ok (as.map Artifact.path),
          empty.adding (as.filterMap (filed? preamble sources)))) ∧
      run.2.closed = run.2.opened ∧
      ∀ cut : Path → Bytes → List Bytes, (∀ p bytes, (cut p bytes).flatten = bytes) →
        ((destination rules sources).inPieces cut).emitAll preamble as .empty = run := by
  intro run
  have hagain : ¬Distinct as → ∃ before a after, as = before ++ a :: after ∧ Distinct before ∧
      (∃ b ∈ before, b.path.Same a.path) ∧ run = (.error (.duplicateTarget a.path), .empty) := by
    intro h
    obtain ⟨p, hp⟩ := Option.ne_none_iff_exists'.1
      (mt Artifact.firstRepeat_eq_none_iff_distinct.1 h)
    obtain ⟨before, a, after, hsplit, hbefore, hsame, rfl⟩ :=
      Artifact.firstRepeat_eq_some_iff_again.1 hp
    exact ⟨before, a, after, hsplit, hbefore, hsame,
      Destination.emitAll_of_firstRepeat_eq_some hp⟩
  have hstops : Distinct as → (¬∀ a ∈ as, CanWrite rules preamble sources a) →
      ∃ before a after e left, as = before ++ a :: after ∧
        (∀ b ∈ before, CanWrite rules preamble sources b) ∧
        Stops rules preamble sources a e left ∧
        run = (.error e, empty.adding (before.filterMap (filed? preamble sources) ++ left)) := by
    intro hdistinct hcannot
    cases hrun : run with
    | mk r s' =>
      cases r with
      | ok ps => exact absurd (emitAll_eq_ok_iff.1 hrun).2.1 hcannot
      | error e =>
        have heach : (destination rules sources).emitEach preamble as .empty = (.error e, s') := by
          rw [← hrun, ← Destination.emitAll_of_firstRepeat_eq_none
            (Artifact.firstRepeat_eq_none_iff_distinct.2 hdistinct)]
        obtain ⟨before, a, after, left, hsplit, hbefore, hstops, rfl⟩ :=
          (emitEach_eq_error_iff (fun a _ => lacks_empty a.path)
            (hdistinct.imp ne_of_not_same)).1 heach
        exact ⟨before, a, after, e, left, hsplit, hbefore, hstops, rfl⟩
  have hends : Distinct as → (∀ a ∈ as, CanWrite rules preamble sources a) →
      run = (.ok (as.map Artifact.path),
        empty.adding (as.filterMap (filed? preamble sources))) := fun hdistinct hcan =>
    emitAll_eq_ok_iff.2 ⟨hdistinct, hcan, rfl, adding_filterMap_filed hcan⟩
  refine ⟨hagain, hstops, hends, ?_,
    fun cut hcut => emitAll_inPieces hcut rules sources preamble as⟩
  by_cases hdistinct : Distinct as
  · by_cases hcan : ∀ a ∈ as, CanWrite rules preamble sources a
    · rw [hends hdistinct hcan, adding]
      rfl
    · obtain ⟨_, _, _, _, _, _, _, _, hrun⟩ := hstops hdistinct hcan
      rw [hrun, adding]
      rfl
  · obtain ⟨_, _, _, _, _, _, hrun⟩ := hagain hdistinct
    rw [hrun]
    rfl

/-- A copy, a class that is too long by far, and another copy. -/
theorem emitAll_stops_at_first_ten_bytes :
    let rules : SinkRules := ⟨some 10, [], false⟩
    let sources : FileTree :=
      ⟨[(["w"], .directory), (["w", "A.java"], .file [104, 105])], ["w"]⟩
    let as : List Artifact := [.copied ⟨"A.java"⟩ ⟨"p", "A.java"⟩,
      .generated ⟨.ofClass "p" "Big" "java.lang.Object", ["\tint a;"]⟩,
      .copied ⟨"A.java"⟩ ⟨"q", "A.java"⟩]
    let run := (destination rules sources).emitAll none as .empty
    Distinct as ∧ (¬∀ a ∈ as, CanWrite rules none sources a) ∧
      (∃ before a after e left, as = before ++ a :: after ∧
        (∀ b ∈ before, CanWrite rules none sources b) ∧ Stops rules none sources a e left ∧
        run = (.error e, empty.adding (before.filterMap (filed? none sources) ++ left))) ∧
      run = (.error (.cannotWrite ⟨"p/Big.java"⟩),
        ⟨[(⟨"p/A.java"⟩, .ofText "hi"), (⟨"p/Big.java"⟩, .ofText "package p;")], 2, 2⟩) := by
  intro rules sources as run
  have hdistinct : Distinct as := by
    unfold Distinct
    decide +kernel
  have hrun : run = (.error (.cannotWrite ⟨"p/Big.java"⟩),
      ⟨[(⟨"p/A.java"⟩, .ofText "hi"), (⟨"p/Big.java"⟩, .ofText "package p;")], 2, 2⟩) := by
    refine Prod.ext ?_ ?_
    · show run.1 = .error (.cannotWrite ⟨"p/Big.java"⟩)
      decide +kernel
    · show run.2 = ⟨_, 2, 2⟩
      decide +kernel
  obtain ⟨-, hstops, hends, -⟩ := emitAll_stops_at_first rules sources none as
  have hcannot : ¬∀ a ∈ as, CanWrite rules none sources a := fun hcan => by
    have hok := congrArg Prod.fst ((hends hdistinct hcan).symm.trans hrun)
    cases hok
  exact ⟨hdistinct, hcannot, hstops hdistinct hcannot, hrun⟩

end Sinks

end Bindery
