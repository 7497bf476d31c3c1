import Bindery.Proofs.Shape.Course
import Bindery.Proofs.Shape.DecodeErrors
import Mathlib.Logic.Relation

/-!
# Termination of the reading

A reading only moves forward: what is started in the course of a job begins later in the text than
what it is started in. Hence every reading ends, and the bounds that the readings carry do not show.

* `Job.Starts.placed` : where the jobs begin that a job starts;
* `Job.Placed.later`, `Job.Reaches.inCall` : the step and the run, each call and each round begins
  later than what encloses it;
* `Job.wellFounded_starts`, `Job.eq_answer` : nothing nests without end, so that the courses
  determine the answers;
* `Later.advances` : the same in bytes, at the boundaries of characters;
* `reading_terminates` : all of it.
-/

namespace Bindery

open Course

/-- `rest` is an end of `cs`, and begins later. -/
structure Later (cs rest : List Char) : Prop where
  suffix : rest <:+ cs
  shorter : rest.length < cs.length

section

variable {p : Char → Bool} {c : Char} {cs mid rest : List Char} {k : CompositeKind} {n m : Nat}

theorem later_cons : Later (c :: cs) cs := ⟨List.suffix_cons c cs, by simp⟩

theorem Later.trans_suffix (h : Later cs mid) (h' : rest <:+ mid) : Later cs rest :=
  ⟨h'.trans h.suffix, h'.length_le.trans_lt h.shorter⟩

theorem Later.suffix_trans (h : mid <:+ cs) (h' : Later mid rest) : Later cs rest :=
  ⟨h'.suffix.trans h, h'.shorter.trans_le h.length_le⟩

theorem later_of_dropWhile (h : cs.dropWhile p = c :: rest) : Later cs rest :=
  .suffix_trans (h ▸ List.dropWhile_suffix p) later_cons

theorem later_of_readLength {l : UInt32} (h : readLength cs = .ok (l, rest)) : Later cs rest := by
  obtain ⟨ds, rfl, hne, -⟩ := digits_of_readLength h
  exact ⟨List.suffix_append ds rest, by simpa using List.length_pos_iff.2 hne⟩

theorem later_of_readShape {t : Shape} (h : readShape n cs = .ok (t, rest)) : Later cs rest := by
  obtain ⟨pre, rfl, -⟩ := (spells_of_readShape h).denotes
  exact ⟨List.suffix_append pre rest, consumes_readShape n h⟩

theorem later_of_readComposite {t : Shape}
    (h : readComposite k (readShape n) m cs = .ok (t, rest)) : Later cs rest := by
  have hlt := consumes_readComposite (consumes_readShape n) m h
  obtain ⟨pre, e, -⟩ := (spells_of_readComposite spells_of_readShape h).denotes
  -- the opening character is among what was taken, as the rest is shorter than the text behind it
  cases pre with
  | nil =>
    rw [List.nil_append] at e
    rw [← e, List.length_cons] at hlt
    omega
  | cons d pre => exact ⟨⟨pre, (List.cons.inj e).2.symm⟩, hlt⟩

end

/-! ### Where the jobs begin that are started -/

namespace Course

variable {α : Type} {ω : Answers} {u : Job}

theorem mem_starts_ofReading {β : Type} {r : Reading β} {next : β → Course (Reading α)} :
    u ∈ (ofReading r next).starts ω ↔ ∃ b, r = .ok b ∧ u ∈ (next b).starts ω := by
  cases r <;> simp [ofReading, starts]

theorem mem_starts_loop {l : Loop} {cs : List Char} {next : List Char → List Char → Course α}
    (h : u ∈ (loop l cs next).starts Job.answer) :
    (∃ c tail, cs = c :: tail ∧ u = .round l tail) ∨
      u ∈ (next (cs.takeWhile l.test) (cs.dropWhile l.test)).starts Job.answer := by
  cases cs with
  | nil => exact .inr h
  | cons c cs =>
    rw [loop] at h
    rw [List.takeWhile_cons, List.dropWhile_cons]
    split_ifs at h ⊢
    · rcases List.mem_cons.1 h with rfl | h
      · exact .inl ⟨c, cs, rfl, rfl⟩
      · exact .inr h
    · exact .inr h

end Course

namespace Job

/-- In the course of the first job the second one is started. -/
def Starts (t u : Job) : Prop := u ∈ t.course.starts answer

/-- Where the second job begins, when it is started in the course of the first. -/
inductive Placed : Job → Job → Prop where
  | round {t : Job} {l : Loop} {c : Char} {cs : List Char} (h : t.text = c :: cs) :
      Placed t (.round l cs)
  | type {cs rest : List Char} (h : Later cs rest) : Placed (.type cs) (.type rest)
  | composite {k : CompositeKind} {cs rest : List Char} (h : Later cs rest) :
      Placed (.type cs) (.composite k rest)
  | length {cs rest : List Char} (h : Later cs rest) : Placed (.type cs) (.length rest)
  | first {k : CompositeKind} {cs rest : List Char} (h : Later cs rest) :
      Placed (.composite k cs) (.members k cs rest)
  | member {k : CompositeKind} {call cs rest : List Char} (h : rest <:+ cs) :
      Placed (.members k call cs) (.type rest)
  | next {k : CompositeKind} {call cs rest : List Char} (h : Later cs rest) :
      Placed (.members k call cs) (.members k call rest)

theorem placed_member {k : CompositeKind} {call cs mid : List Char} {name : Option String}
    {u : Job} (hmid : mid <:+ cs) (h : u ∈ (member k call name mid).starts answer) :
    Placed (.members k call cs) u := by
  rcases List.mem_cons.1 h with rfl | h
  · exact .member hmid
  obtain ⟨⟨t, rest⟩, ht, h⟩ := mem_starts_ofReading.1 h
  rcases List.mem_cons.1 h with rfl | h
  · exact .next (.suffix_trans hmid (later_of_readShape ht))
  · obtain ⟨_, -, h⟩ := mem_starts_ofReading.1 h
    cases h

theorem placed_of_type {cs : List Char} {u : Job} (h : Starts (.type cs) u) :
    Placed (.type cs) u := by
  rw [Starts, course] at h
  rcases mem_starts_loop h with ⟨c, tail, rfl, rfl⟩ | h
  · exact .round rfl
  simp only [Loop.test] at h
  split at h
  · cases h
  rename_i c rest e
  have hrest := later_of_dropWhile e
  split at h
  · cases h
  split at h
  -- the shapes of one character, a pointer, the composites, an array, and what is no type
  iterate 4 · cases h
  · rcases List.mem_cons.1 h with rfl | h
    · exact .type hrest
    · obtain ⟨_, -, h⟩ := mem_starts_ofReading.1 h
      cases h
  iterate 2
    · obtain rfl := List.mem_singleton.1 h
      exact .composite hrest
  · rcases List.mem_cons.1 h with rfl | h
    · exact .length hrest
    obtain ⟨⟨n, rest'⟩, hn, h⟩ := mem_starts_ofReading.1 h
    rcases List.mem_cons.1 h with rfl | h
    · exact .type (hrest.trans_suffix (later_of_readLength hn).suffix)
    · obtain ⟨_, -, h⟩ := mem_starts_ofReading.1 h
      cases h
  · cases h

theorem placed_of_composite {k : CompositeKind} {cs : List Char} {u : Job}
    (h : Starts (.composite k cs) u) : Placed (.composite k cs) u := by
  rw [Starts, course] at h
  rcases mem_starts_loop h with ⟨c, tail, rfl, rfl⟩ | h
  · exact .round rfl
  simp only [Loop.test] at h
  split at h
  · cases h
  rename_i e
  split_ifs at h
  · cases h
  · rcases List.mem_cons.1 h with rfl | h
    · exact .first (later_of_dropWhile e)
    · obtain ⟨_, -, h⟩ := mem_starts_ofReading.1 h
      cases h

theorem placed_of_members {k : CompositeKind} {call cs : List Char} {u : Job}
    (h : Starts (.members k call cs) u) : Placed (.members k call cs) u := by
  cases cs with
  | nil => cases h
  | cons c cs =>
    rw [Starts, course] at h
    split_ifs at h
    · cases h
    · rcases List.mem_cons.1 h with rfl | h
      · exact .round rfl
      simp only [answer, Loop.test] at h
      split at h
      · cases h
      · rename_i e
        have hrest := (later_of_dropWhile e).suffix
        exact placed_member (hrest.trans (List.suffix_cons c cs)) h
    · exact placed_member (List.suffix_refl _) h

theorem Starts.placed {t u : Job} (h : t.Starts u) : Placed t u := by
  cases t with
  | type cs => exact placed_of_type h
  | composite k cs => exact placed_of_composite h
  | members k call cs => exact placed_of_members h
  | length cs | round l cs =>
    rw [Starts, course] at h
    rcases mem_starts_loop h with ⟨c, tail, rfl, rfl⟩ | h
    · exact .round rfl
    · cases h

theorem Placed.suffix {t u : Job} (h : Placed t u) : u.text <:+ t.text := by
  cases h with
  | round h => exact h ▸ List.suffix_cons _ _
  | type h | composite h | length h | first h | next h => exact h.suffix
  | member h => exact h

/-! ### Nothing nests without end -/

/-- Twice the number of characters, and one more for a round over members, since the type of a
member without a name begins where the round does. -/
def rank : Job → Nat
  | .members _ _ cs => 2 * cs.length + 1
  | t => 2 * t.text.length

theorem Placed.rank_lt {t u : Job} (h : Placed t u) : u.rank < t.rank := by
  cases h with
  | @round t l c cs h =>
    have : t.text.length = cs.length + 1 := by rw [h, List.length_cons]
    cases t <;> simp only [rank, text] at * <;> omega
  | type h | composite h | length h | first h | next h =>
    have := h.shorter
    simp only [rank, text]
    omega
  | member h =>
    have := h.length_le
    simp only [rank, text]
    omega

theorem wellFounded_starts : WellFounded fun u t : Job => t.Starts u :=
  Subrelation.wf (fun h => h.placed.rank_lt) (measure rank).wf

theorem run_congr {α : Type} {ω : Answers} {c : Course α}
    (h : ∀ u ∈ c.starts answer, ω u = answer u) : c.run ω = c.run answer := by
  induction c with
  | done a => rfl
  | start t next ih =>
    rw [Course.run, Course.run, h t (by simp [starts])]
    exact ih _ fun u hu => h u (List.mem_cons_of_mem _ hu)

/-- The courses determine the answers. -/
theorem eq_answer {ω : Answers} (h : ∀ t, ω t = t.course.run ω) : ω = answer := by
  funext t
  induction t using wellFounded_starts.induction with
  | h t ih => rw [h t, run_congr ih, run_course]

/-! ### Calls and rounds begin later -/

/-- The job is a call. -/
def isCall : Job → Bool
  | .type _ | .composite _ _ | .length _ => true
  | .members _ _ _ | .round _ _ => false

/-- Where the call began that the job is, or is a round over members in. -/
def callText : Job → List Char
  | .members _ call _ => call
  | t => t.text

/-- Where that began which encloses a started job: for a call the call around it, for a round of a
loop the round before it or, if it is the first, the job that the loop is in. -/
def enclosing (t u : Job) : List Char := if u.isCall then t.callText else t.text

/-- A round over members begins later than the call for their composite. -/
def InCall : Job → Prop
  | .members _ call cs => Later call cs
  | _ => True

/-- The step: a job that is started begins later than what encloses it. -/
theorem Placed.later {t u : Job} (ht : t.InCall) (h : Placed t u) :
    u.InCall ∧ Later (t.enclosing u) u.text := by
  cases h with
  | @round _ _ c cs h =>
    have hround : Later t.text cs := h ▸ later_cons
    exact ⟨trivial, hround⟩
  | type h | composite h | length h => exact ⟨trivial, h⟩
  | first h => exact ⟨h, h⟩
  | member h => exact ⟨trivial, ht.trans_suffix h⟩
  | next h => exact ⟨ht.trans_suffix h.suffix, h⟩

/-- All that is started in the course of a job, and in the course of that, and so on. -/
def Reaches : Job → Job → Prop := Relation.ReflTransGen Starts

/-- The run: nothing that a call comes to start begins outside the text of the call. -/
theorem Reaches.inCall {s t : Job} (hs : s.isCall = true) (h : s.Reaches t) :
    t.InCall ∧ t.text <:+ s.text := by
  induction h with
  | refl =>
    refine ⟨?_, List.suffix_refl _⟩
    cases s with
    | type cs | composite k cs | length cs => trivial
    | members k call cs | round l cs => cases hs
  | tail _ h ih => exact ⟨(h.placed.later ih.1).1, h.placed.suffix.trans ih.2⟩

end Job

/-! ### Places in a text -/

/-- The byte of a text at which its end `rest` begins. -/
def offset (text : String) (rest : List Char) : Nat := byteLength text.toList - byteLength rest

/-- `rest` is an end of `after` and begins at a character boundary of the text `before ++ after`. -/
structure Stays (before after : String) (rest : List Char) : Prop where
  suffix : rest <:+ after.toList
  boundary : (⟨offset (before ++ after) rest⟩ : String.Pos.Raw).IsValid (before ++ after)

/-- The same, and `rest` begins at least one character behind where `after` does. -/
structure Advances (before after : String) (rest : List Char) : Prop
    extends Stays before after rest where
  later : Later after.toList rest
  behind : before.utf8ByteSize < offset (before ++ after) rest

section

variable {before after : String} {rest taken : List Char}

theorem offset_append (before : String) (h : after.toList = taken ++ rest) :
    before ++ after = (before ++ String.ofList taken) ++ String.ofList rest ∧
      offset (before ++ after) rest = (before ++ String.ofList taken).utf8ByteSize := by
  have htext : before ++ after = (before ++ String.ofList taken) ++ String.ofList rest := by
    rw [String.append_assoc, ← String.ofList_append, ← h, String.ofList_toList]
  refine ⟨htext, ?_⟩
  rw [offset, byteLength_eq, byteLength_eq, String.ofList_toList, htext,
    String.utf8ByteSize_append (t := String.ofList rest), Nat.add_sub_cancel]

theorem stays_of_suffix (h : rest <:+ after.toList) : Stays before after rest := by
  obtain ⟨taken, htaken⟩ := h
  obtain ⟨htext, hoffset⟩ := offset_append before htaken.symm
  refine ⟨⟨taken, htaken⟩, ?_⟩
  rw [hoffset]
  exact String.Pos.Raw.isValid_iff_exists_append.2 ⟨_, _, htext, rfl⟩

theorem Later.advances (h : Later after.toList rest) : Advances before after rest := by
  refine ⟨stays_of_suffix h.suffix, h, ?_⟩
  obtain ⟨taken, htaken⟩ := h.suffix
  have hne : taken ≠ [] := by
    rintro rfl
    exact h.shorter.ne (congrArg List.length htaken)
  have hlt : byteLength before.toList < _ := byteLength_lt hne
  rw [byteLength_eq, String.ofList_toList] at hlt
  rwa [(offset_append before htaken.symm).2]

end

/-- A reading of `after`, behind `before`, takes a character if it succeeds, and does not leave the
text if it fails. -/
structure Progresses (before after : String) (r : Reading (Shape × List Char)) : Prop where
  ok : ∀ t rest, r = .ok (t, rest) → Advances before after rest
  fault : ∀ f rest, r = .error (.fault f rest) → Stays before after rest

theorem progresses_readShape (before after : String) (n : Nat) :
    Progresses before after (readShape n after.toList) where
  ok _ _ h := (later_of_readShape h).advances
  fault _ _ h := by
    obtain ⟨pre, hpre, -⟩ := breaks_of_readShape h
    exact stays_of_suffix ⟨pre, hpre.symm⟩

theorem progresses_readComposite (before after : String) (k : CompositeKind) (n m : Nat) :
    Progresses before after (readComposite k (readShape n) m after.toList) where
  ok _ _ h := (later_of_readComposite h).advances
  fault _ _ h := by
    obtain ⟨pre, e, hpre⟩ :=
      breaks_of_readComposite spells_of_readShape breaks_of_readShape h
    -- the opening character is in order, so the fault is behind it
    cases hpre with
    | ended => cases e
    | noType hc =>
      obtain ⟨rfl, -⟩ := List.cons.inj e
      have hopening : startsType k.opening = true := by cases k <;> decide
      cases hopening.symm.trans hc
    | qualified hc h | pointer h | badLength h | element _ _ _ _ h | unclosed _ _ _ _ h | tag h
    | members _ h => exact stays_of_suffix ⟨_, (List.cons.inj e).2.symm⟩

/-! ### Termination -/

/-- **Reading terminates on every text, and within it.** Wherever in a text a reading of a type or
of a composite begins:

* if it succeeds, it ends at a character boundary, at least one character later, and if it fails, it
  does not leave the text either;
* each call that is made in it begins later than the call around it, and each round of a loop later
  than the round before it;
* so nothing nests without end, and the courses of calls and rounds, which know no bound, have one
  answer each;
* this is what is read with any bound above the number of characters, and no such bound is met. -/
theorem reading_terminates (before after : String) :
    (∀ n, Progresses before after (readShape n after.toList)) ∧
      (∀ k n m, Progresses before after (readComposite k (readShape n) m after.toList)) ∧
      (∀ s t u : Job, s.isCall = true → s.text = after.toList → s.Reaches t → t.Starts u →
        Stays before after u.text ∧ Later (t.enclosing u) u.text) ∧
      (WellFounded (fun u t : Job => t.Starts u) ∧
        ∀ ω : Answers, (∀ t, ω t = t.course.run ω) ↔ ω = Job.answer) ∧
      ∀ n m, after.length < n → after.length < m →
        (readShape n after.toList = Job.answer (.type after.toList) ∧
          readShape n after.toList ≠ .error .bound) ∧
        ∀ k, readComposite k (readShape n) m after.toList = Job.answer (.composite k after.toList) ∧
          readComposite k (readShape n) m after.toList ≠ .error .bound := by
  refine ⟨progresses_readShape before after, progresses_readComposite before after,
    fun s t u hs htext ht hu => ?_, ⟨Job.wellFounded_starts, fun ω => ⟨Job.eq_answer, ?_⟩⟩,
    fun n m hn hm => ?_⟩
  · obtain ⟨hcall, hsuffix⟩ := ht.inCall hs
    exact ⟨stays_of_suffix (htext ▸ hu.placed.suffix.trans hsuffix), (hu.placed.later hcall).2⟩
  · rintro rfl t
    exact (Job.run_course t).symm
  · rw [← String.length_toList] at hn hm
    refine ⟨⟨Job.readShape_eq_answer hn, readShape_ne_bound hn⟩, fun k => ?_⟩
    have heq := Job.readComposite_eq_answer (k := k) hn hm
    refine ⟨heq, heq ▸ ?_⟩
    exact readComposite_ne_bound (consumes_readShape _) (fun _ => readShape_ne_bound)
      (Nat.lt_succ_self _)

/-- A letter of two bytes is taken, and a member without a name begins where its round does, but
later than the call for the composite. -/
theorem reading_terminates_member :
    (readShape 8 "r\x7bé=i\x7d]".toList =
        .ok (.composite .struct (some "é") (.cons none (.primitive .int) .nil), [']']) ∧
      Advances "[4" "r\x7bé=i\x7d]" [']']) ∧
    let call := "é=i\x7d".toList
    let round := Job.members .struct call "i\x7d".toList
    (Job.composite .struct call).Reaches round ∧ round.Starts (.type "i\x7d".toList) ∧
      Later call "i\x7d".toList := by
  have hread : readShape 8 "r\x7bé=i\x7d]".toList =
      .ok (.composite .struct (some "é") (.cons none (.primitive .int) .nil), [']']) := by rfl
  refine ⟨⟨hread, ((reading_terminates _ _).1 8).ok _ _ hread⟩, ?_⟩
  intro call round
  have hreaches : (Job.composite .struct call).Reaches round :=
    .single (List.mem_cons_of_mem (Job.round (.tag .struct) "=i\x7d".toList) List.mem_cons_self)
  have hstarts : round.Starts (.type "i\x7d".toList) := List.mem_cons_self
  have hlater := ((reading_terminates "" (String.ofList call)).2.2.1 _ _ _ rfl (by simp [Job.text])
    hreaches hstarts).2
  exact ⟨hreaches, hstarts, hlater⟩

end Bindery
