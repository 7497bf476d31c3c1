import Bindery.Emission

/-!
# Emission step by step

A destination whose actions change a state writes an artifact in steps: the sink is opened, the
content found, written and flushed, and the sink closed. The first step that fails ends it.

* `Destination.fill_eq_ok_iff`, `Destination.emit_eq_ok_iff` and
  `Destination.emitEach_cons_eq_ok_iff` : when the steps go well, and to which state they lead;
* `Destination.fill_eq_error_iff`, `Destination.emit_eq_error_iff` and
  `Destination.emitEach_cons_eq_error_iff` : when they do not, and what they lead to then;
* `EmitError.BreaksOff` says that an error arises while artifacts are being written;
* `Destination.emitAll_eq_error` : any other error leaves the state as it was;
* `Destination.Accepts.emitAll` : to a destination that takes everything, an emission goes well.
-/

namespace Bindery

variable {σ α β ε : Type} {s s' : σ}

theorem eq_mk_of_fst_eq {r : α × σ} {a : α} (h : r.1 = a) : r = (a, r.2) := by
  rw [← h]

theorem bind_state_eq_iff {x : StateM σ α} {f : α → StateM σ β} {r : β × σ} :
    (x >>= f) s = r ↔ ∃ a s₁, x s = (a, s₁) ∧ f a s₁ = r := by
  constructor
  · exact fun h => ⟨(x s).1, (x s).2, rfl, h⟩
  · rintro ⟨a, s₁, hx, hf⟩
    rw [← hf]
    show f (x s).1 (x s).2 = _
    rw [hx]

/-- An action says whether it did its work, and another follows if it did. -/
theorem guard_eq_ok_iff {x : StateM σ Bool} {f : StateM σ (Except ε β)} {e : ε} {b : β} :
    (do if ← x then f else return .error e : StateM σ (Except ε β)) s = (.ok b, s') ↔
      ∃ s₁, x s = (true, s₁) ∧ f s₁ = (.ok b, s') := by
  rw [bind_state_eq_iff]
  constructor
  · rintro ⟨done, s₁, hx, h⟩
    cases done with
    | false => cases h
    | true => exact ⟨s₁, hx, h⟩
  · rintro ⟨s₁, hx, h⟩
    exact ⟨true, s₁, hx, h⟩

theorem guard_eq_error_iff {x : StateM σ Bool} {f : StateM σ (Except ε β)} {e e' : ε} :
    (do if ← x then f else return .error e : StateM σ (Except ε β)) s = (.error e', s') ↔
      x s = (false, s') ∧ e' = e ∨ ∃ s₁, x s = (true, s₁) ∧ f s₁ = (.error e', s') := by
  rw [bind_state_eq_iff]
  constructor
  · rintro ⟨done, s₁, hx, h⟩
    cases done with
    | false =>
      cases h
      exact .inl ⟨hx, rfl⟩
    | true => exact .inr ⟨s₁, hx, h⟩
  · rintro (⟨hx, rfl⟩ | ⟨s₁, hx, h⟩)
    · exact ⟨false, s', hx, rfl⟩
    · exact ⟨true, s₁, hx, h⟩

theorem firstRepeat_eq_none_iff_pairwise {ps : List Path} :
    firstRepeat [] ps = none ↔ ps.Pairwise fun p q => ¬p.Same q := by
  rw [firstRepeat_eq_none_iff, List.Nodup, List.pairwise_map]
  exact and_iff_left fun _ _ => List.not_mem_nil

/-- One more path is repeated if it is one of those before it. -/
theorem firstRepeat_append_singleton {seen : List (List PathComponent)} {ps : List Path} {p : Path}
    (h : firstRepeat seen ps = none) :
    firstRepeat seen (ps ++ [p]) =
      if p.components ∈ ps.map Path.components ∨ p.components ∈ seen then some p else none := by
  induction ps generalizing seen with
  | nil => simp [firstRepeat]
  | cons q ps ih =>
    rw [firstRepeat] at h
    split at h
    · cases h
    · next hq =>
      rw [List.cons_append, firstRepeat, if_neg hq, ih h, List.map_cons]
      simp only [List.mem_cons, or_left_comm, or_assoc]

/-- The error arises at a sink that was to be opened or written to, or at the source of a copy. -/
def EmitError.BreaksOff : EmitError → Prop
  | .cannotOpen _ | .cannotWrite _ | .cannotRead _ => True
  | .duplicateTarget _ => False

namespace Destination

variable {d : Destination (StateM σ)} {preamble : Option String} {a : Artifact}
  {as : List Artifact} {e : EmitError}

/-! ### Steps that go well -/

theorem fill_eq_ok_iff :
    d.fill preamble a s = (.ok (), s') ↔
      ∃ bytes s₁ s₂, d.content preamble a s = (.ok bytes, s₁) ∧
        d.write a.path bytes s₁ = (true, s₂) ∧ d.flush a.path s₂ = (true, s') := by
  rw [fill, bind_state_eq_iff]
  constructor
  · rintro ⟨r, s₁, hr, h⟩
    cases r with
    | error e => cases h
    | ok bytes =>
      obtain ⟨s₂, hw, h⟩ := guard_eq_ok_iff.1 h
      obtain ⟨_, hf, ⟨⟩⟩ := guard_eq_ok_iff.1 h
      exact ⟨bytes, s₁, s₂, hr, hw, hf⟩
  · rintro ⟨bytes, s₁, s₂, hr, hw, hf⟩
    exact ⟨.ok bytes, s₁, hr, guard_eq_ok_iff.2 ⟨s₂, hw, guard_eq_ok_iff.2 ⟨s', hf, rfl⟩⟩⟩

theorem emit_eq_ok_iff {p : Path} :
    d.emit preamble a s = (.ok p, s') ↔
      p = a.path ∧ ∃ s₁ s₂, d.openSink a.path s = (true, s₁) ∧
        d.fill preamble a s₁ = (.ok (), s₂) ∧ d.close a.path s₂ = ((), s') := by
  rw [emit, guard_eq_ok_iff]
  simp only [bind_state_eq_iff]
  constructor
  · rintro ⟨s₁, ho, filled, s₂, hf, ⟨⟩, s₃, hc, h⟩
    cases filled with
    | error e => cases h
    | ok u =>
      cases h
      exact ⟨rfl, s₁, s₂, ho, hf, hc⟩
  · rintro ⟨rfl, s₁, s₂, ho, hf, hc⟩
    exact ⟨s₁, ho, .ok (), s₂, hf, (), s', hc, rfl⟩

theorem emitEach_cons_eq_ok_iff {ps : List Path} :
    d.emitEach preamble (a :: as) s = (.ok ps, s') ↔
      ∃ p ps' s₁, d.emit preamble a s = (.ok p, s₁) ∧
        d.emitEach preamble as s₁ = (.ok ps', s') ∧ ps = p :: ps' := by
  rw [emitEach, bind_state_eq_iff]
  constructor
  · rintro ⟨r, s₁, hr, h⟩
    cases r with
    | error e => cases h
    | ok p =>
      obtain ⟨r', s₂, hr', h⟩ := bind_state_eq_iff.1 h
      cases r' with
      | error e => cases h
      | ok ps' =>
        cases h
        exact ⟨p, ps', s₁, hr, hr', rfl⟩
  · rintro ⟨p, ps', s₁, hr, hr', rfl⟩
    exact ⟨.ok p, s₁, hr, bind_state_eq_iff.2 ⟨.ok ps', s', hr', rfl⟩⟩

/-- An emission that goes well can be cut anywhere. -/
theorem emitEach_append_eq_ok {bs : List Artifact} {ps : List Path}
    (h : d.emitEach preamble (as ++ bs) s = (.ok ps, s')) :
    ∃ qs rs s₁, d.emitEach preamble as s = (.ok qs, s₁) ∧
      d.emitEach preamble bs s₁ = (.ok rs, s') ∧ ps = qs ++ rs := by
  induction as generalizing s ps with
  | nil => exact ⟨[], ps, s, rfl, h, rfl⟩
  | cons a as ih =>
    obtain ⟨p, ps', s₁, ha, h', rfl⟩ := emitEach_cons_eq_ok_iff.1 h
    obtain ⟨qs, rs, s₂, has, hbs, rfl⟩ := ih h'
    exact ⟨p :: qs, rs, s₂, emitEach_cons_eq_ok_iff.2 ⟨p, qs, s₁, ha, has, rfl⟩, hbs, rfl⟩

/-! ### Errors -/

theorem content_eq_error (h : d.content preamble a s = (.error e, s')) : e.BreaksOff := by
  cases a with
  | copied source l =>
    obtain ⟨r, s₁, -, h⟩ := bind_state_eq_iff.1 h
    cases r <;> cases h
    trivial
  | generated c => cases h
  | coders t => cases h

theorem fill_eq_error_iff :
    d.fill preamble a s = (.error e, s') ↔
      d.content preamble a s = (.error e, s') ∨
        ∃ bytes s₁, d.content preamble a s = (.ok bytes, s₁) ∧ e = .cannotWrite a.path ∧
          (d.write a.path bytes s₁ = (false, s') ∨
            ∃ s₂, d.write a.path bytes s₁ = (true, s₂) ∧ d.flush a.path s₂ = (false, s')) := by
  rw [fill, bind_state_eq_iff]
  constructor
  · rintro ⟨r, s₁, hr, h⟩
    cases r with
    | error e' =>
      cases h
      exact .inl hr
    | ok bytes =>
      rcases guard_eq_error_iff.1 h with ⟨hw, rfl⟩ | ⟨s₂, hw, h⟩
      · exact .inr ⟨bytes, s₁, hr, rfl, .inl hw⟩
      · rcases guard_eq_error_iff.1 h with ⟨hf, rfl⟩ | ⟨_, _, ⟨⟩⟩
        exact .inr ⟨bytes, s₁, hr, rfl, .inr ⟨s₂, hw, hf⟩⟩
  · rintro (hr | ⟨bytes, s₁, hr, rfl, hw | ⟨s₂, hw, hf⟩⟩)
    · exact ⟨.error e, s', hr, rfl⟩
    · exact ⟨.ok bytes, s₁, hr, guard_eq_error_iff.2 (.inl ⟨hw, rfl⟩)⟩
    · exact ⟨.ok bytes, s₁, hr,
        guard_eq_error_iff.2 (.inr ⟨s₂, hw, guard_eq_error_iff.2 (.inl ⟨hf, rfl⟩)⟩)⟩

theorem emit_eq_error_iff :
    d.emit preamble a s = (.error e, s') ↔
      d.openSink a.path s = (false, s') ∧ e = .cannotOpen a.path ∨
        ∃ s₁ s₂, d.openSink a.path s = (true, s₁) ∧ d.fill preamble a s₁ = (.error e, s₂) ∧
          d.close a.path s₂ = ((), s') := by
  rw [emit, guard_eq_error_iff]
  simp only [bind_state_eq_iff]
  refine or_congr_right ⟨?_, ?_⟩
  · rintro ⟨s₁, ho, filled, s₂, hf, ⟨⟩, s₃, hc, h⟩
    cases filled <;> cases h
    exact ⟨s₁, s₂, ho, hf, hc⟩
  · rintro ⟨s₁, s₂, ho, hf, hc⟩
    exact ⟨s₁, ho, .error e, s₂, hf, (), s', hc, rfl⟩

/-- Several artifacts fail where the first of them does, or where the others do. -/
theorem emitEach_cons_eq_error_iff :
    d.emitEach preamble (a :: as) s = (.error e, s') ↔
      d.emit preamble a s = (.error e, s') ∨
        ∃ p s₁, d.emit preamble a s = (.ok p, s₁) ∧
          d.emitEach preamble as s₁ = (.error e, s') := by
  rw [emitEach, bind_state_eq_iff]
  constructor
  · rintro ⟨r, s₁, hr, h⟩
    cases r with
    | error e' =>
      cases h
      exact .inl hr
    | ok p =>
      obtain ⟨r', s₂, hr', h⟩ := bind_state_eq_iff.1 h
      cases r' <;> cases h
      exact .inr ⟨p, s₁, hr, hr'⟩
  · rintro (hr | ⟨p, s₁, hr, hr'⟩)
    · exact ⟨.error e, s', hr, rfl⟩
    · exact ⟨.ok p, s₁, hr, bind_state_eq_iff.2 ⟨.error e, s', hr', rfl⟩⟩

theorem fill_eq_error (h : d.fill preamble a s = (.error e, s')) : e.BreaksOff := by
  rcases fill_eq_error_iff.1 h with hr | ⟨_, _, _, rfl, _⟩
  · exact content_eq_error hr
  · trivial

theorem emit_eq_error (h : d.emit preamble a s = (.error e, s')) : e.BreaksOff := by
  rcases emit_eq_error_iff.1 h with ⟨_, rfl⟩ | ⟨_, _, _, hf, _⟩
  · trivial
  · exact fill_eq_error hf

theorem emitEach_eq_error (h : d.emitEach preamble as s = (.error e, s')) : e.BreaksOff := by
  induction as generalizing s s' with
  | nil => cases h
  | cons a as ih =>
    rcases emitEach_cons_eq_error_iff.1 h with h | ⟨_, _, _, h⟩
    · exact emit_eq_error h
    · exact ih h

/-- What an emission does once no path repeats. -/
theorem emitAll_of_firstRepeat_eq_none (h : firstRepeat [] (as.map Artifact.path) = none) :
    d.emitAll preamble as = d.emitEach preamble as := by
  rw [emitAll, h]

theorem emitAll_of_firstRepeat_eq_some {p : Path}
    (h : firstRepeat [] (as.map Artifact.path) = some p) :
    d.emitAll preamble as s = (.error (.duplicateTarget p), s) := by
  rw [emitAll, h]
  rfl

theorem emitAll_eq_duplicateTarget_iff {p : Path} :
    d.emitAll preamble as s = (.error (.duplicateTarget p), s') ↔
      firstRepeat [] (as.map Artifact.path) = some p ∧ s' = s := by
  cases hr : firstRepeat [] (as.map Artifact.path) with
  | some q =>
    rw [emitAll_of_firstRepeat_eq_some hr]
    constructor
    · rintro ⟨⟩
      exact ⟨rfl, rfl⟩
    · rintro ⟨⟨⟩, rfl⟩
      rfl
  | none =>
    rw [emitAll_of_firstRepeat_eq_none hr]
    exact iff_of_false (fun h => emitEach_eq_error h) (by simp)

/-- An emission that fails without being broken off has met a repeated path, and done nothing. -/
theorem emitAll_eq_error (h : d.emitAll preamble as s = (.error e, s')) :
    e.BreaksOff ∨ s' = s ∧ ∃ p, e = .duplicateTarget p := by
  cases hr : firstRepeat [] (as.map Artifact.path) with
  | some p =>
    rw [emitAll_of_firstRepeat_eq_some hr] at h
    cases h
    exact .inr ⟨rfl, p, rfl⟩
  | none =>
    rw [emitAll_of_firstRepeat_eq_none hr] at h
    exact .inl (emitEach_eq_error h)

theorem emitEach_of_emitAll {ps : List Path} (h : d.emitAll preamble as s = (.ok ps, s')) :
    d.emitEach preamble as s = (.ok ps, s') := by
  cases hr : firstRepeat [] (as.map Artifact.path) with
  | some p =>
    rw [emitAll_of_firstRepeat_eq_some hr] at h
    cases h
  | none => rwa [emitAll_of_firstRepeat_eq_none hr] at h

/-! ### Destinations that take everything -/

/-- All sinks can be opened and take what is written to them, and all sources can be read. -/
structure Accepts (d : Destination (StateM σ)) : Prop where
  openSink : ∀ p s, (d.openSink p s).1 = true
  write : ∀ p bytes s, (d.write p bytes s).1 = true
  flush : ∀ p s, (d.flush p s).1 = true
  readSource : ∀ p s, ∃ bytes, (d.readSource p s).1 = some bytes

namespace Accepts

variable (preamble)

theorem content (h : d.Accepts) (a : Artifact) (s : σ) :
    ∃ bytes s', d.content preamble a s = (.ok bytes, s') := by
  cases a with
  | copied source l =>
    obtain ⟨bytes, hr⟩ := h.readSource source s
    exact ⟨bytes, _, bind_state_eq_iff.2 ⟨some bytes, _, eq_mk_of_fst_eq hr, rfl⟩⟩
  | generated c => exact ⟨_, s, rfl⟩
  | coders t => exact ⟨_, s, rfl⟩

theorem emit (h : d.Accepts) (a : Artifact) (s : σ) :
    ∃ s', d.emit preamble a s = (.ok a.path, s') := by
  obtain ⟨bytes, s₂, hc⟩ := h.content preamble a (d.openSink a.path s).2
  have hfill := fill_eq_ok_iff.2 ⟨bytes, s₂, _, hc, eq_mk_of_fst_eq (h.write a.path bytes s₂),
    eq_mk_of_fst_eq (h.flush a.path _)⟩
  exact ⟨_, emit_eq_ok_iff.2 ⟨rfl, _, _, eq_mk_of_fst_eq (h.openSink a.path s), hfill, rfl⟩⟩

theorem emitEach (h : d.Accepts) (as : List Artifact) (s : σ) :
    ∃ s', d.emitEach preamble as s = (.ok (as.map Artifact.path), s') := by
  induction as generalizing s with
  | nil => exact ⟨s, rfl⟩
  | cons a as ih =>
    obtain ⟨s₁, ha⟩ := h.emit preamble a s
    obtain ⟨s', has⟩ := ih s₁
    exact ⟨s', emitEach_cons_eq_ok_iff.2 ⟨a.path, _, s₁, ha, has, rfl⟩⟩

/-- Then an emission goes well unless a path is repeated. -/
theorem emitAll (h : d.Accepts) (hr : firstRepeat [] (as.map Artifact.path) = none) (s : σ) :
    ∃ s', d.emitAll preamble as s = (.ok (as.map Artifact.path), s') := by
  rw [emitAll_of_firstRepeat_eq_none hr]
  exact h.emitEach preamble as s

end Accepts

end Destination

end Bindery
