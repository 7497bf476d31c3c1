import Bindery.Proofs.Shape.Faults

/-!
# The course of a reading

The reading of a type written out as the calls and the loops that it is made of, with no bound on
how they nest. A `Job` is a call or a round of a loop, with the text in front of it, and its course
says what it does by itself: it has its answer at once, or it starts another job and goes on with
whatever that answers. So a course cannot look at another reading except by starting it.

Where a call begins with a loop, over qualifiers, over a tag or over digits, the first round of the
loop is a part of the call. Every other round is a job of its own.

* `Job.course` : what each job does;
* `Job.answer` : what it gives, according to the readings with a bound;
* `Job.readShape_eq_answer`, `Job.readMembers_eq_answer`, `Job.readComposite_eq_answer` : a bound
  above the number of characters does not show in the answer;
* `Job.run_course` : the answers are those of the courses.
-/

namespace Bindery

/-- A loop that takes characters as long as they pass a test. -/
inductive Loop where
  | qualifiers
  | digits
  | tag (k : CompositeKind)
  | memberName

/-- The test of a loop. -/
def Loop.test : Loop → Char → Bool
  | .qualifiers => isQualifier
  | .digits => Char.isDigit
  | .tag k => isTagChar k
  | .memberName => (· != '"')

/-- A call or a round of a loop, with the text in front of it. -/
inductive Job where
  /-- Reads a type. -/
  | type (cs : List Char)
  /-- Reads what follows the opening character of a composite. -/
  | composite (k : CompositeKind) (cs : List Char)
  /-- Reads the length of an array. -/
  | length (cs : List Char)
  /-- A round of the loop over the members of a composite, the call for which began at `call`. -/
  | members (k : CompositeKind) (call cs : List Char)
  /-- A round of a loop over characters. -/
  | round (l : Loop) (cs : List Char)

namespace Job

/-- What a job gives. A loop over characters gives those that it takes, and the text behind. -/
abbrev Answer : Job → Type
  | .type _ | .composite _ _ => Reading (Shape × List Char)
  | .length _ => Reading (UInt32 × List Char)
  | .members _ _ _ => Reading (Members × List Char)
  | .round _ _ => List Char × List Char

/-- The text in front of a job. -/
def text : Job → List Char
  | .type cs | .composite _ cs | .length cs | .members _ _ cs | .round _ cs => cs

end Job

/-- The answers of all jobs. -/
abbrev Answers := (t : Job) → t.Answer

/-! ### Courses -/

/-- What there is to do: nothing more, or to start a job and to go on with its answer. -/
inductive Course (α : Type) where
  | done (a : α)
  | start (t : Job) (next : t.Answer → Course α)

namespace Course

variable {α : Type} (ω : Answers)

/-- The result, when jobs are answered by `ω`. -/
def run : Course α → α
  | .done a => a
  | .start t next => (next (ω t)).run

/-- The jobs that are started, in order, when they are answered by `ω`. -/
def starts : Course α → List Job
  | .done _ => []
  | .start t next => t :: (next (ω t)).starts

/-- A loop over characters: its first round, and as a job the round behind it. -/
def loop (l : Loop) (cs : List Char) (next : List Char → List Char → Course α) : Course α :=
  match cs with
  | [] => next [] []
  | c :: cs =>
    if l.test c then .start (.round l cs) fun (taken, rest) => next (c :: taken) rest
    else next [] (c :: cs)

/-- Goes on with what a reading gives, unless it has failed. -/
def ofReading {β : Type} (r : Reading β) (next : β → Course (Reading α)) : Course (Reading α) :=
  match r with
  | .ok b => next b
  | .error e => .done (.error e)

@[simp]
theorem run_ofReading {β : Type} (r : Reading β) (next : β → Course (Reading α)) :
    (ofReading r next).run ω = r >>= fun b => (next b).run ω := by
  cases r <;> rfl

end Course

open Course

namespace Job

/-- A member with the given name, from its type on, and the members behind it. -/
def member (k : CompositeKind) (call : List Char) (name : Option String) (cs : List Char) :
    Course (Reading (Members × List Char)) :=
  .start (.type cs) fun r => ofReading r fun (t, cs) =>
    .start (.members k call cs) fun r => ofReading r fun (ms, cs) =>
      .done (.ok (.cons name t ms, cs))

/-- What each job does. -/
def course : (t : Job) → Course t.Answer
  | .type cs => loop .qualifiers cs fun _ rest =>
    match rest with
    | [] => .done (.error (.fault .unexpectedEnd []))
    | c :: cs' =>
      match Primitive.ofLetter? c with
      | some p => .done (.ok (.primitive p, cs'))
      | none =>
        match c with
        | 'v' => .done (.ok (.void, cs'))
        | '@' => .done (.ok (.object, cs'))
        | '#' => .done (.ok (.classRef, cs'))
        | ':' => .done (.ok (.selector, cs'))
        | '^' => .start (.type cs') fun r => ofReading r fun (t, rest) =>
          .done (.ok (.pointer t, rest))
        | '{' => .start (.composite .struct cs') .done
        | '(' => .start (.composite .union cs') .done
        | '[' => .start (.length cs') fun r => ofReading r fun (n, rest) =>
          .start (.type rest) fun r => ofReading r fun (t, rest) =>
            .done (readChar ']' rest >>= fun rest => .ok (.array n t, rest))
        | c => .done (.error (.fault (.unexpectedChar c) (c :: cs')))
  | .composite k cs => loop (.tag k) cs fun tag rest =>
    match rest with
    | [] => .done (.error (.fault .unexpectedEnd []))
    | c :: rest =>
      if c = k.closing then .done (.ok (.composite k (tagOfChars tag) .nil, rest))
      else .start (.members k cs rest) fun r => ofReading r fun (ms, rest) =>
        .done (.ok (.composite k (tagOfChars tag) ms, rest))
  | .length cs => loop .digits cs fun digits rest =>
    let value := Nat.ofDigitChars 10 digits 0
    .done (if digits.isEmpty || lengthBound ≤ value then .error (.fault .badArrayLength cs)
      else .ok (UInt32.ofNat value, rest))
  | .members _ _ [] => .done (.error (.fault .unexpectedEnd []))
  | .members k call (c :: cs) =>
    if c = k.closing then .done (.ok (.nil, cs))
    else if c = '"' then
      .start (.round .memberName cs) fun (name, rest) =>
        match rest with
        | [] => .done (.error (.fault .unexpectedEnd []))
        | _ :: rest => member k call (some (String.ofList name)) rest
    else member k call none (c :: cs)
  | .round l cs => loop l cs fun taken rest => .done (taken, rest)

/-- What a job gives, by the readings with a bound. -/
def answer : (t : Job) → t.Answer
  | .type cs => readShape (cs.length + 1) cs
  | .composite k cs => readComposite k (readShape (cs.length + 1)) (cs.length + 1) cs
  | .length cs => readLength cs
  | .members k _ cs => readMembers k (readShape (cs.length + 1)) (cs.length + 1) cs
  | .round l cs => (cs.takeWhile l.test, cs.dropWhile l.test)

/-! ### Readings with a bound -/

section

variable {k : CompositeKind} {cs : List Char} {n m : Nat}

/-- A bound above the number of characters does not show in what is read. -/
theorem readShape_eq_answer (hn : cs.length < n) : readShape n cs = answer (.type cs) := by
  match h : readShape n cs with
  | .ok (t, rest) => exact ((spells_of_readShape h).read _ (Nat.lt_succ_self _)).symm
  | .error (.fault f rest) =>
    obtain ⟨pre, rfl, hpre⟩ := breaks_of_readShape h
    exact (hpre.read _ (Nat.lt_succ_self _)).symm
  | .error .bound => exact absurd h (readShape_ne_bound hn)

theorem readMembers_eq_answer (call : List Char) (hn : cs.length < n) (hm : cs.length < m) :
    readMembers k (readShape n) m cs = answer (.members k call cs) := by
  have hlt : cs.length < cs.length + 1 := Nat.lt_succ_self _
  match h : readMembers k (readShape n) m cs with
  | .ok (ms, rest) =>
    have hspells := spells_of_readMembers spells_of_readShape h
    exact (hspells.read rfl _ _ hlt hlt).symm
  | .error (.fault f rest) =>
    obtain ⟨pre, rfl, hpre⟩ := breaks_of_readMembers spells_of_readShape breaks_of_readShape h
    exact (hpre.read _ _ hlt hlt).symm
  | .error .bound =>
    exact absurd h (readMembers_ne_bound (consumes_readShape n) (fun _ => readShape_ne_bound) hm hn)

theorem readComposite_eq_answer (hn : cs.length < n) (hm : cs.length < m) :
    readComposite k (readShape n) m cs = answer (.composite k cs) := by
  simp only [readComposite, answer]
  split
  · rfl
  · rename_i c rest e
    have := length_lt_of_dropWhile e
    rw [readMembers_eq_answer cs (by omega) (by omega),
      readMembers_eq_answer cs (by omega) (by omega)]

end

/-! ### The answers are those of the courses -/

theorem run_loop {α : Type} (l : Loop) (cs : List Char)
    (next : List Char → List Char → Course α) :
    (loop l cs next).run answer =
      (next (cs.takeWhile l.test) (cs.dropWhile l.test)).run answer := by
  cases cs with
  | nil => rfl
  | cons c cs =>
    rw [loop, List.takeWhile_cons, List.dropWhile_cons]
    split_ifs <;> rfl

/-- The bounds may be any that are great enough for the type of the member, and for what is left of
the text behind it. -/
theorem run_member {k : CompositeKind} {call cs : List Char} {name : Option String} {n m : Nat}
    (hn : cs.length < n) (hm : cs.length ≤ m) :
    (member k call name cs).run answer = (do
      let (t, cs) ← readShape n cs
      let (ms, cs) ← readMembers k (readShape n) m cs
      return (.cons name t ms, cs)) := by
  simp only [member, run, run_ofReading, ← readShape_eq_answer hn]
  apply bind_congr_of_ok
  rintro ⟨t, rest⟩ h
  have hrest := consumes_readShape n h
  simp only [readMembers_eq_answer call (hrest.trans hn) (hrest.trans_le hm)]
  rfl

theorem run_course_members (k : CompositeKind) (call cs : List Char) :
    (course (.members k call cs)).run answer = answer (.members k call cs) := by
  cases cs with
  | nil => rfl
  | cons c cs =>
    rw [course, answer, readMembers]
    split_ifs with hc hquote
    · rfl
    · subst hquote
      simp only [run, answer, readMemberName, Loop.test]
      cases h : cs.dropWhile (· != '"') with
      | nil => rfl
      | cons _ rest =>
        have := length_lt_of_dropWhile h
        exact run_member (by simp; omega) (by simp; omega)
    · have hname : readMemberName (c :: cs) = .ok (none, c :: cs) := by
        simp [readMemberName, hquote]
      rw [hname]
      exact run_member (by simp) (by simp)

theorem run_course_type (cs : List Char) :
    (course (.type cs)).run answer = answer (.type cs) := by
  rw [course, run_loop, answer, readShape]
  simp only [Loop.test]
  cases h : cs.dropWhile isQualifier with
  | nil => rfl
  | cons c cs' =>
    have hlt := length_lt_of_dropWhile h
    simp only [readShape_eq_answer hlt, readComposite_eq_answer hlt hlt]
    cases Primitive.ofLetter? c with
    | some p => rfl
    | none =>
      simp only
      split
      -- the shapes of one character, a pointer, the composites, an array, and what is no type
      iterate 4 · rfl
      · simp only [run, run_ofReading]
        rfl
      iterate 2 · rfl
      · simp only [run, run_ofReading]
        apply bind_congr_of_ok
        rintro ⟨n, rest⟩ hn
        simp only [readShape_eq_answer ((length_of_readLength hn).trans_lt hlt)]
        rfl
      · simp_all [run]

/-- **Answers follow the courses.** What a job gives is what its course makes of the answers of the
jobs that it starts. -/
theorem run_course (t : Job) : t.course.run answer = t.answer := by
  cases t with
  | type cs => exact run_course_type cs
  | composite k cs =>
    rw [course, run_loop, answer, readComposite]
    simp only [Loop.test]
    cases h : cs.dropWhile (isTagChar k) with
    | nil => rfl
    | cons c cs' =>
      have := length_lt_of_dropWhile h
      simp only
      split_ifs
      · rfl
      · rw [readMembers_eq_answer cs (by omega) (by omega)]
        simp only [run, run_ofReading]
        rfl
  | length cs =>
    rw [course, run_loop]
    rfl
  | members k call cs => exact run_course_members k call cs
  | round l cs =>
    rw [course, run_loop]
    rfl

/-- The round for a named member: its name, its type, and the round behind it. -/
example :
    (Job.members .struct "a=\"x\"i\x7d".toList "\"x\"i\x7d".toList).course.starts answer =
      [.round .memberName "x\"i\x7d".toList, .type "i\x7d".toList,
        .members .struct "a=\"x\"i\x7d".toList "\x7d".toList] := by
  rfl

end Job

end Bindery
