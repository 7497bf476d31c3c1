import Bindery.Proofs.Emission.Related
import Bindery.Proofs.Emission.Steps
import Bindery.Sinks

/-!
# Emission to sinks in memory

What one write does to a sink that was just opened, and that it does not matter in how many pieces
the bytes come: a sink keeps what fits of all of them, and the first piece that does not fit is the
last one. So an emission that streams its copies in pieces of some size, and writes its classes line
by line, is like one that writes each artifact at once.

* `Sinks.holding` adds an open sink that has got some bytes;
* `Sinks.write_holding`, `Sinks.writeEach_holding` : one write, and several;
* `Destination.inPieces` is a destination that takes what is written to it in pieces;
* `Sinks.emitAll_inPieces` : emission to it is emission to the destination itself.
-/

namespace Bindery

/-- Two actions one after the other. -/
theorem bind_state {σ α β : Type} (x : StateM σ α) (f : α → StateM σ β) (s : σ) :
    (x >>= f) s = f (x s).1 (x s).2 := rfl

/-! ### Writing in pieces -/

namespace Destination

variable {m : Type → Type} [Monad m] (d : Destination m)

/-- Writes some pieces to an open sink, up to the first that it does not take. -/
def writeEach (p : Path) : List Bytes → m Bool
  | [] => return true
  | piece :: pieces => do
    if ← d.write p piece then writeEach p pieces else return false

/-- The destination, where all that is written to a sink is cut into pieces. -/
def inPieces (cut : Path → Bytes → List Bytes) : Destination m :=
  { d with write := fun p bytes => d.writeEach p (cut p bytes) }

end Destination

namespace Sinks

variable {rules : SinkRules} {sources : FileTree} {preamble : Option String} {a : Artifact}
  {as : List Artifact} {s s' : Sinks} {p : Path} {bytes : Bytes}

/-! ### One open sink -/

/-- No sink has the path. -/
def Lacks (s : Sinks) (p : Path) : Prop := ∀ e ∈ s.contents, e.1 ≠ p

theorem lacks_empty (p : Path) : empty.Lacks p := fun _ he => nomatch he

/-- The sinks with one more, which is open and has got some bytes. -/
def holding (p : Path) (bytes : Bytes) (s : Sinks) : Sinks :=
  ⟨s.contents ++ [(p, bytes)], s.opened + 1, s.closed⟩

theorem content_holding (h : s.Lacks p) (bytes : Bytes) :
    (s.holding p bytes).content p = bytes := by
  have hnone : s.contents.lookup p = none := List.lookup_eq_none_iff.2 fun e he => by
    simpa using (h e he).symm
  simp [content, holding, List.lookup_append, hnone]

theorem setContent_holding (h : s.Lacks p) (old bytes : Bytes) :
    (s.holding p old).setContent p bytes = s.holding p bytes := by
  have others : (s.contents.map fun e => (e.1, if e.1 = p then bytes else e.2)) = s.contents :=
    (List.map_congr_left fun e he => by simp [h e he]).trans (List.map_id _)
  simp [setContent, holding, others]

theorem length_fitting_iff {budget : Option Nat} :
    (fitting budget bytes).length = bytes.length ↔ ∀ n ∈ budget, bytes.length ≤ n := by
  cases budget with
  | none => simp [fitting]
  | some n =>
    simp only [fitting, List.length_take, Option.mem_some, forall_eq']
    omega

theorem fitting_eq_self {budget : Option Nat} (h : ∀ n ∈ budget, bytes.length ≤ n) :
    fitting budget bytes = bytes := by
  cases budget with
  | none => rfl
  | some n => exact List.take_of_length_le (h n rfl)

/-- What comes after a budget was overrun makes no difference. -/
theorem fitting_append_of_overrun {budget : Option Nat} (h : ¬∀ n ∈ budget, bytes.length ≤ n)
    (more : Bytes) : fitting budget (bytes ++ more) = fitting budget bytes := by
  cases budget with
  | none => simp at h
  | some n =>
    have hn : n ≤ bytes.length := by simpa using Nat.le_of_lt (by simpa using h)
    exact List.take_append_of_le_length hn

/-- A write adds what fits, and goes well if all of it does. -/
theorem write_holding (h : s.Lacks p) (old bytes : Bytes) :
    (destination rules sources).write p bytes (s.holding p old) =
      (decide (∀ n ∈ rules.budget, (old ++ bytes).length ≤ n),
        s.holding p (fitting rules.budget (old ++ bytes))) := by
  simp only [destination, content_holding h, setContent_holding h, length_fitting_iff]

/-- **Pieces written one after the other** are like one write of all of them, whether it goes well
or not. -/
theorem writeEach_holding (h : s.Lacks p) {old : Bytes}
    (hold : ∀ n ∈ rules.budget, old.length ≤ n) (pieces : List Bytes) :
    (destination rules sources).writeEach p pieces (s.holding p old) =
      (destination rules sources).write p pieces.flatten (s.holding p old) := by
  induction pieces generalizing old with
  | nil =>
    rw [write_holding h, List.flatten_nil, List.append_nil, fitting_eq_self hold]
    exact Prod.ext (decide_eq_true hold).symm rfl
  | cons piece pieces ih =>
    rw [write_holding h, List.flatten_cons, ← List.append_assoc]
    show (if ((destination rules sources).write p piece (s.holding p old)).1 then
      (destination rules sources).writeEach p pieces else pure false)
        ((destination rules sources).write p piece (s.holding p old)).2 = _
    rw [write_holding h]
    by_cases hfits : ∀ n ∈ rules.budget, (old ++ piece).length ≤ n
    · simp only [decide_eq_true hfits, ↓reduceIte]
      rw [fitting_eq_self hfits, ih hfits, write_holding h]
    · -- nothing is written after the piece that does not fit
      have hmore : ¬∀ n ∈ rules.budget, (old ++ piece ++ pieces.flatten).length ≤ n := by
        intro hall
        refine hfits fun n hn => ?_
        have := hall n hn
        rw [List.length_append] at this
        omega
      simp only [decide_eq_false hfits, decide_eq_false hmore, fitting_append_of_overrun hfits]
      rfl

/-! ### The steps of an artifact -/

/-- What is written for an artifact, or why there is nothing to write. -/
def contentOf (preamble : Option String) (sources : FileTree) : Artifact → Except EmitError Bytes
  | .copied source _ =>
    match sources.read? source with
    | some bytes => .ok bytes
    | none => .error (.cannotRead source)
  | .generated c => .ok (.ofText (c.render preamble))
  | .coders t => .ok (.ofText (t.classFile.render preamble))

/-- No sink has a part in it. -/
theorem content_eq (a : Artifact) (s : Sinks) :
    (destination rules sources).content preamble a s = (contentOf preamble sources a, s) := by
  cases a with
  | copied source l =>
    refine bind_state_eq_iff.2 ⟨sources.read? source, s, rfl, ?_⟩
    rw [contentOf]
    cases sources.read? source <;> rfl
  | generated c => rfl
  | coders t => rfl

theorem openSink_eq_true_iff :
    (destination rules sources).openSink p s = (true, s') ↔
      (∀ q ∈ rules.refused, ¬p.Same q) ∧ s' = s.openNew p := by
  simp only [destination]
  split
  · rename_i h
    simp only [List.any_eq_true, decide_eq_true_eq] at h
    obtain ⟨q, hq, hs⟩ := h
    exact iff_of_false nofun fun hall => hall.1 q hq hs
  · rename_i h
    simp only [List.any_eq_true, decide_eq_true_eq, not_exists, not_and] at h
    exact ⟨fun e => ⟨h, (Prod.mk.inj e).2.symm⟩, fun e => by rw [e.2]⟩

variable (rules sources) in
/-- Whatever becomes of it, an artifact has no part in the sinks of other paths: if one had none
before, it has none after. -/
theorem keeps_lacks (p : Path) :
    Destination.Related (fun _ x _ => Keeps (fun s s' : Sinks => s.Lacks p → s'.Lacks p) x)
      (· ≠ p) (destination rules sources) (destination rules sources) where
  toComposes := composes_keeps (fun _ h => h) fun h h' hp => h' (h hp)
  openSink q hq s hs := by
    simp only [destination]
    split
    · exact hs
    · intro e he
      rcases List.mem_append.1 he with he | he
      · exact hs e he
      · rw [List.mem_singleton.1 he]
        exact hq
  write q bytes _ s hs := by
    intro e he
    obtain ⟨e', he', rfl⟩ := List.mem_map.1 he
    exact hs e' he'
  flush _ _ _ hs := hs
  close _ _ _ hs := hs
  readSource _ _ hs := hs

theorem lacks_of_emit {r : Except EmitError Path}
    (h : (destination rules sources).emit preamble a s = (r, s')) (hs : s.Lacks p)
    (ha : a.path ≠ p) : s'.Lacks p := by
  have hlacks : ((destination rules sources).emit preamble a s).2.Lacks p :=
    (keeps_lacks rules sources p).emit ha s hs
  rwa [h] at hlacks

theorem ne_of_not_same {p q : Path} (h : ¬p.Same q) : p ≠ q := by
  rintro rfl
  exact h rfl

/-! ### Whole emissions in pieces -/

section Pieces

variable {cut : Path → Bytes → List Bytes} (hcut : ∀ p bytes, (cut p bytes).flatten = bytes)

include hcut

theorem write_inPieces (h : s.Lacks p) (bytes : Bytes) :
    ((destination rules sources).inPieces cut).write p bytes (s.openNew p) =
      (destination rules sources).write p bytes (s.openNew p) := by
  have hempty : ∀ n ∈ rules.budget, ([] : Bytes).length ≤ n := fun n _ => Nat.zero_le n
  have hpieces : ((destination rules sources).inPieces cut).write p bytes (s.openNew p) = _ :=
    writeEach_holding h hempty (cut p bytes)
  rw [hcut] at hpieces
  exact hpieces

theorem fill_inPieces (h : s.Lacks a.path) :
    ((destination rules sources).inPieces cut).fill preamble a (s.openNew a.path) =
      (destination rules sources).fill preamble a (s.openNew a.path) := by
  have hcontent : ((destination rules sources).inPieces cut).content preamble a =
      (destination rules sources).content preamble a := by
    cases a <;> rfl
  rw [Destination.fill, Destination.fill, bind_state, bind_state, hcontent, content_eq]
  cases contentOf preamble sources a with
  | error e => rfl
  | ok bytes =>
    simp only [bind_state, write_inPieces hcut h]
    rfl

theorem emit_inPieces (h : s.Lacks a.path) :
    ((destination rules sources).inPieces cut).emit preamble a s =
      (destination rules sources).emit preamble a s := by
  rw [Destination.emit, Destination.emit, bind_state, bind_state]
  have hopen : ((destination rules sources).inPieces cut).openSink a.path s =
      (destination rules sources).openSink a.path s := rfl
  rw [hopen]
  cases ho : (destination rules sources).openSink a.path s with
  | mk opened s₁ =>
    cases opened with
    | false => rfl
    | true =>
      obtain ⟨-, rfl⟩ := openSink_eq_true_iff.1 ho
      simp only [↓reduceIte, bind_state, fill_inPieces hcut h]
      rfl

theorem emitEach_inPieces (hnew : ∀ a ∈ as, s.Lacks a.path)
    (hpaths : as.Pairwise fun a b => a.path ≠ b.path) :
    ((destination rules sources).inPieces cut).emitEach preamble as s =
      (destination rules sources).emitEach preamble as s := by
  induction as generalizing s with
  | nil => rfl
  | cons a as ih =>
    obtain ⟨ha, has⟩ := List.forall_mem_cons.1 hnew
    obtain ⟨hfirst, hpaths⟩ := List.pairwise_cons.1 hpaths
    rw [Destination.emitEach, Destination.emitEach, bind_state, bind_state, emit_inPieces hcut ha]
    cases he : (destination rules sources).emit preamble a s with
    | mk r s₁ =>
      have hrest : ∀ b ∈ as, s₁.Lacks b.path := fun b hb =>
        lacks_of_emit he (has b hb) (hfirst b hb)
      cases r with
      | error e => rfl
      | ok p =>
        simp only [bind_state, ih hrest hpaths]

/-- **Emission in pieces.** In whatever pieces the bytes of each artifact are written, an emission
ends like one that writes them at once, with the same sinks. -/
theorem emitAll_inPieces (rules : SinkRules) (sources : FileTree) (preamble : Option String)
    (as : List Artifact) :
    ((destination rules sources).inPieces cut).emitAll preamble as .empty =
      (destination rules sources).emitAll preamble as .empty := by
  cases hr : firstRepeat [] (as.map Artifact.path) with
  | some p =>
    rw [Destination.emitAll_of_firstRepeat_eq_some hr, Destination.emitAll_of_firstRepeat_eq_some hr]
  | none =>
    rw [Destination.emitAll_of_firstRepeat_eq_none hr, Destination.emitAll_of_firstRepeat_eq_none hr]
    rw [firstRepeat_eq_none_iff_pairwise, List.pairwise_map] at hr
    exact emitEach_inPieces hcut (fun a _ => lacks_empty a.path) (hr.imp ne_of_not_same)

end Pieces

end Sinks

end Bindery
