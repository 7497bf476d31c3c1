import Bindery.Proofs.Shape.Grammar

/-!
# Where a text stops being a type

A text that is not a type encoding has a place where it goes wrong: what stands in front of it may
still begin a type, and what follows does not go on with one. `Grammar.Breaks f pre rest` says so of
the text `pre ++ rest` by rules, one for each kind of place that a type has, in the way in which
`Grammar.Denotes` says what a whole type is.

* `Grammar.Breaks`, `Grammar.BreaksMembers` : the rules;
* `breaks_of_readShape`, `Grammar.Breaks.read` : a reading stops with a fault exactly where the
  rules say that the text breaks off.
-/

namespace Bindery

/-! ### Faults of the parts of a type -/

/-- No array length that can be held is at the front of the text: there is no digit, or the value of
the digits is too great. -/
def BadLength (cs : List Char) : Prop :=
  cs.takeWhile Char.isDigit = [] ∨ 2 ^ 32 ≤ Nat.ofDigitChars 10 (cs.takeWhile Char.isDigit) 0

/-- The text does not begin with the character that has to come. -/
inductive Misses (c : Char) : EncodingFault → List Char → Prop where
  | ended : Misses c .unexpectedEnd []
  | other {d : Char} {rest : List Char} (h : d ≠ c) : Misses c (.unexpectedChar d) (d :: rest)

/-- A type may begin with the character. -/
def startsType (c : Char) : Bool :=
  isQualifier c || (Primitive.ofLetter? c).isSome ||
    ['v', '@', '#', ':', '^', '{', '(', '['].contains c

theorem startsType_eq_false_iff {c : Char} :
    startsType c = false ↔ isQualifier c = false ∧ Primitive.ofLetter? c = none ∧ c ≠ 'v' ∧
      c ≠ '@' ∧ c ≠ '#' ∧ c ≠ ':' ∧ c ≠ '^' ∧ c ≠ '{' ∧ c ≠ '(' ∧ c ≠ '[' := by
  simp [startsType, and_assoc]

namespace Grammar

mutual

/-- Read as a type, the text `pre ++ rest` is in order as far as `pre` goes, and has the fault where
`rest` begins. -/
inductive Breaks : EncodingFault → List Char → List Char → Prop where
  | ended : Breaks .unexpectedEnd [] []
  | noType {c : Char} {rest : List Char} (hc : startsType c = false) :
      Breaks (.unexpectedChar c) [] (c :: rest)
  | qualified {f : EncodingFault} {c : Char} {pre rest : List Char} (hc : isQualifier c = true)
      (h : Breaks f pre rest) : Breaks f (c :: pre) rest
  | pointer {f : EncodingFault} {pre rest : List Char} (h : Breaks f pre rest) :
      Breaks f ('^' :: pre) rest
  | badLength {rest : List Char} (h : BadLength rest) : Breaks .badArrayLength ['['] rest
  | element {f : EncodingFault} {n : UInt32} {ds pre rest : List Char} (hne : ds ≠ [])
      (hds : ∀ d ∈ ds, d.isDigit = true) (hn : Nat.ofDigitChars 10 ds 0 = n.toNat)
      (hnext : ∀ c ∈ (pre ++ rest).head?, c.isDigit = false) (h : Breaks f pre rest) :
      Breaks f ('[' :: (ds ++ pre)) rest
  | unclosed {f : EncodingFault} {n : UInt32} {ds text rest : List Char} {t : Shape} (hne : ds ≠ [])
      (hds : ∀ d ∈ ds, d.isDigit = true) (hn : Nat.ofDigitChars 10 ds 0 = n.toNat)
      (ht : Denotes text t) (h : Misses ']' f rest) : Breaks f ('[' :: (ds ++ text)) rest
  | tag {k : CompositeKind} {tag : List Char} (htag : ∀ c ∈ tag, isTagChar k c = true) :
      Breaks .unexpectedEnd (k.opening :: tag) []
  | members {f : EncodingFault} {k : CompositeKind} {tag pre rest : List Char}
      (htag : ∀ c ∈ tag, isTagChar k c = true) (h : BreaksMembers k f pre rest) :
      Breaks f (k.opening :: (tag ++ '=' :: pre)) rest

/-- The same for the members of a composite, up to its closing character. -/
inductive BreaksMembers : CompositeKind → EncodingFault → List Char → List Char → Prop where
  | ended {k : CompositeKind} : BreaksMembers k .unexpectedEnd [] []
  | name {k : CompositeKind} {name : List Char} (h : '"' ∉ name) :
      BreaksMembers k .unexpectedEnd ('"' :: name) []
  | first {k : CompositeKind} {f : EncodingFault} {name : Option String} {pre rest : List Char}
      (hname : ∀ s ∈ name, '"' ∉ s.toList)
      (hnext : name = none → ∃ c ∈ (pre ++ rest).head?, c ≠ k.closing ∧ c ≠ '"')
      (h : Breaks f pre rest) : BreaksMembers k f (memberNameChars name ++ pre) rest
  | later {k : CompositeKind} {f : EncodingFault} {name : Option String} {t : Shape}
      {text pre rest : List Char} (hname : ∀ s ∈ name, '"' ∉ s.toList) (ht : Denotes text t)
      (h : BreaksMembers k f pre rest) :
      BreaksMembers k f (memberNameChars name ++ (text ++ pre)) rest

end

end Grammar

open Grammar

/-! ### Faults that a reading finds are faults by the rules -/

variable {f : EncodingFault} {k : CompositeKind} {n : Nat} {cs pre rest : List Char}
  {read : List Char → Reading (Shape × List Char)}

theorem readLength_of_badLength (h : BadLength cs) :
    readLength cs = .error (.fault .badArrayLength cs) := by
  have hbad : ((cs.takeWhile Char.isDigit).isEmpty ||
      decide (lengthBound ≤ Nat.ofDigitChars 10 (cs.takeWhile Char.isDigit) 0)) = true := by
    simp only [Bool.or_eq_true, List.isEmpty_iff, decide_eq_true_eq]
    exact h
  simp only [readLength, hbad, if_true]

theorem badLength_of_readLength (h : readLength cs = .error (.fault f rest)) :
    f = .badArrayLength ∧ rest = cs ∧ BadLength cs := by
  simp only [readLength] at h
  split at h
  · rename_i hbad
    obtain ⟨rfl, rfl⟩ := Stop.fault.inj (Except.error.inj h)
    simp only [Bool.or_eq_true, List.isEmpty_iff, decide_eq_true_eq] at hbad
    exact ⟨rfl, rfl, hbad⟩
  · cases h

/-- No digit is left behind a length. -/
theorem head_of_readLength {m : UInt32} (h : readLength cs = .ok (m, rest)) :
    ∀ c ∈ rest.head?, c.isDigit = false := by
  simp only [readLength] at h
  split at h
  · cases h
  · obtain rfl := (Prod.mk.inj (Except.ok.inj h)).2
    intro c hc
    have := List.head?_dropWhile_not Char.isDigit cs
    rw [Option.mem_def.1 hc] at this
    exact this

theorem misses_of_readChar {c : Char} (h : readChar c cs = .error (.fault f rest)) :
    rest = cs ∧ Misses c f rest := by
  cases cs with
  | nil =>
    obtain ⟨rfl, rfl⟩ := Stop.fault.inj (Except.error.inj h)
    exact ⟨rfl, .ended⟩
  | cons d cs =>
    rw [readChar] at h
    split_ifs at h with hd
    obtain ⟨rfl, rfl⟩ := Stop.fault.inj (Except.error.inj h)
    exact ⟨rfl, .other hd⟩

/-- A member has no name when what stands there does not begin one. -/
theorem eq_of_readMemberName_none (h : readMemberName cs = .ok (none, rest)) :
    rest = cs ∧ cs.head? ≠ some '"' := by
  unfold readMemberName at h
  split at h
  · split at h <;> simp at h
  · rename_i hquote
    obtain rfl := (Prod.mk.inj (Except.ok.inj h)).2
    refine ⟨rfl, fun e => ?_⟩
    obtain ⟨tail, rfl⟩ := List.head?_eq_some_iff.1 e
    exact hquote tail rfl

/-- A member name is at fault only when it is not closed. -/
theorem unclosed_of_readMemberName (h : readMemberName cs = .error (.fault f rest)) :
    f = .unexpectedEnd ∧ rest = [] ∧ ∃ name, cs = '"' :: name ∧ '"' ∉ name := by
  unfold readMemberName at h
  split at h
  · rename_i name
    split at h
    · rename_i e
      obtain ⟨rfl, rfl⟩ := Stop.fault.inj (Except.error.inj h)
      refine ⟨rfl, rfl, name, rfl, fun hmem => ?_⟩
      simpa using List.dropWhile_eq_nil_iff.1 e '"' hmem
    · cases h
  · cases h

theorem breaks_of_readMembers
    (hok : ∀ {cs t rest}, read cs = .ok (t, rest) → Spells t cs rest)
    (herr : ∀ {f cs rest}, read cs = .error (.fault f rest) →
      ∃ pre, cs = pre ++ rest ∧ Breaks f pre rest)
    (h : readMembers k read n cs = .error (.fault f rest)) :
    ∃ pre, cs = pre ++ rest ∧ BreaksMembers k f pre rest := by
  induction n generalizing cs with
  | zero => cases h
  | succ n ih =>
    cases cs with
    | nil =>
      obtain ⟨rfl, rfl⟩ := Stop.fault.inj (Except.error.inj h)
      exact ⟨[], rfl, .ended⟩
    | cons c cs =>
      simp only [readMembers] at h
      split at h
      · cases h
      rename_i hc
      simp only [bind_eq_error_iff, Prod.exists] at h
      -- the fault is in the name of the member, in its type, or in a later member
      rcases h with h | ⟨name, cs₁, hname, h | ⟨t, cs₂, ht, h | ⟨ms, cs₃, -, h⟩⟩⟩
      · obtain ⟨rfl, rfl, name, e, hquote⟩ := unclosed_of_readMemberName h
        exact ⟨'"' :: name, by rw [e, List.append_nil], .name hquote⟩
      · obtain ⟨e, hquote⟩ := chars_of_readMemberName hname
        obtain ⟨pre, rfl, hpre⟩ := herr h
        refine ⟨memberNameChars name ++ pre, by rw [e, List.append_assoc], .first hquote ?_ hpre⟩
        rintro rfl
        obtain ⟨e, hhead⟩ := eq_of_readMemberName_none hname
        rw [e] at *
        exact ⟨c, rfl, hc, by simpa using hhead⟩
      · obtain ⟨e, hquote⟩ := chars_of_readMemberName hname
        obtain ⟨text, rfl, htext⟩ := (hok ht).denotes
        obtain ⟨pre, rfl, hpre⟩ := ih h
        exact ⟨_, by simp [e], .later hquote htext hpre⟩
      · cases h

theorem breaks_of_readComposite
    (hok : ∀ {cs t rest}, read cs = .ok (t, rest) → Spells t cs rest)
    (herr : ∀ {f cs rest}, read cs = .error (.fault f rest) →
      ∃ pre, cs = pre ++ rest ∧ Breaks f pre rest)
    (h : readComposite k read n cs = .error (.fault f rest)) :
    ∃ pre, k.opening :: cs = pre ++ rest ∧ Breaks f pre rest := by
  simp only [readComposite] at h
  split at h
  · rename_i e
    obtain ⟨rfl, rfl⟩ := Stop.fault.inj (Except.error.inj h)
    exact ⟨_, (List.append_nil _).symm, .tag (List.dropWhile_eq_nil_iff.1 e)⟩
  · rename_i c cs' e
    obtain ⟨hcs, htag, hc⟩ := eq_of_dropWhile_eq_cons e
    split at h
    · cases h
    simp only [bind_eq_error_iff, Prod.exists] at h
    rcases h with h | ⟨ms, cs₁, -, h⟩
    · -- the tag has ended, but the composite has not
      obtain rfl : c = '=' := (isTagChar_eq_false_iff.1 hc).resolve_right ‹_›
      obtain ⟨pre, rfl, hpre⟩ := breaks_of_readMembers hok herr h
      refine ⟨_, ?_, .members htag hpre⟩
      rw [List.cons_append, List.append_assoc]
      exact congrArg (k.opening :: ·) hcs
    · cases h

/-- The qualifiers in front of a fault are in order. -/
theorem breaks_of_dropWhile
    (h : ∃ pre, cs.dropWhile isQualifier = pre ++ rest ∧ Breaks f pre rest) :
    ∃ pre, cs = pre ++ rest ∧ Breaks f pre rest := by
  induction cs with
  | nil => exact h
  | cons c cs ih =>
    rw [List.dropWhile_cons] at h
    split at h
    · rename_i hc
      obtain ⟨pre, rfl, hpre⟩ := ih h
      exact ⟨c :: pre, rfl, .qualified hc hpre⟩
    · exact h

/-- A reading that finds a fault has read as far as the rules say. -/
theorem breaks_of_readShape (h : readShape n cs = .error (.fault f rest)) :
    ∃ pre, cs = pre ++ rest ∧ Breaks f pre rest := by
  induction n generalizing f cs rest with
  | zero => cases h
  | succ n ih =>
    apply breaks_of_dropWhile
    simp only [readShape] at h
    split at h
    · rename_i e
      obtain ⟨rfl, rfl⟩ := Stop.fault.inj (Except.error.inj h)
      exact ⟨[], e, .ended⟩
    rename_i c cs' e
    rw [e]
    split at h
    · cases h
    split at h
    iterate 4 · cases h
    · simp only [bind_eq_error_iff, Prod.exists] at h
      rcases h with h | ⟨u, cs₁, -, h⟩
      · obtain ⟨pre, rfl, hpre⟩ := ih h
        exact ⟨'^' :: pre, rfl, .pointer hpre⟩
      · cases h
    · exact breaks_of_readComposite (k := .struct) spells_of_readShape ih h
    · exact breaks_of_readComposite (k := .union) spells_of_readShape ih h
    · simp only [bind_eq_error_iff, Prod.exists] at h
      -- the fault is in the length of the array, in its element, or where it should be closed
      rcases h with h | ⟨m, cs₁, hlen, h | ⟨t, cs₂, ht, h | ⟨cs₃, -, h⟩⟩⟩
      · obtain ⟨rfl, rfl, hbad⟩ := badLength_of_readLength h
        exact ⟨['['], rfl, .badLength hbad⟩
      · obtain ⟨ds, rfl, hne, hds, hm⟩ := digits_of_readLength hlen
        obtain ⟨pre, rfl, hpre⟩ := ih h
        exact ⟨'[' :: (ds ++ pre), by simp,
          .element hne hds hm (head_of_readLength hlen) hpre⟩
      · obtain ⟨ds, rfl, hne, hds, hm⟩ := digits_of_readLength hlen
        obtain ⟨text, rfl, htext⟩ := (spells_of_readShape ht).denotes
        obtain ⟨rfl, hmiss⟩ := misses_of_readChar h
        exact ⟨'[' :: (ds ++ text), by simp, .unclosed hne hds hm htext hmiss⟩
      · cases h
    · obtain ⟨rfl, rfl⟩ := Stop.fault.inj (Except.error.inj h)
      have hqualifier := (eq_of_dropWhile_eq_cons e).2.2
      exact ⟨[], rfl, .noType (startsType_eq_false_iff.2
        ⟨hqualifier, ‹_›, ‹_›, ‹_›, ‹_›, ‹_›, ‹_›, ‹_›, ‹_›, ‹_›⟩)⟩

/-! ### Faults by the rules are found -/

theorem readChar_of_misses {c : Char} (h : Misses c f rest) :
    readChar c rest = .error (.fault f rest) := by
  cases h with
  | ended => rfl
  | other h => rw [readChar, if_neg h]

theorem readMemberName_unclosed {name : List Char} (h : '"' ∉ name) :
    readMemberName ('"' :: name) = .error (.fault .unexpectedEnd []) := by
  have hdrop : name.dropWhile (· != '"') = [] := by
    rw [List.dropWhile_eq_nil_iff]
    intro c hc
    simpa using fun e : c = '"' => h (e ▸ hc)
  simp [readMemberName, hdrop]

theorem readMembers_unclosed_name {name : List Char} (h : '"' ∉ name) :
    readMembers k read (n + 1) ('"' :: name) = .error (.fault .unexpectedEnd []) := by
  have hne : '"' ≠ k.closing := by cases k <;> decide
  rw [readMembers, if_neg hne, readMemberName_unclosed h]
  rfl

theorem readComposite_unclosed_tag {tag : List Char} (htag : ∀ c ∈ tag, isTagChar k c = true) :
    readComposite k read n tag = .error (.fault .unexpectedEnd []) := by
  simp [readComposite, List.dropWhile_eq_nil_iff.2 htag]

theorem readShape_badLength (h : BadLength cs) :
    readShape (n + 1) ('[' :: cs) = .error (.fault .badArrayLength cs) := by
  show (readLength cs >>= _) = _
  rw [readLength_of_badLength h]
  rfl

theorem readShape_noType {c : Char} (hc : startsType c = false) :
    readShape (n + 1) (c :: cs) = .error (.fault (.unexpectedChar c) (c :: cs)) := by
  obtain ⟨hqualifier, hletter, h⟩ := startsType_eq_false_iff.1 hc
  simp [readShape, hqualifier, hletter, h]

mutual

/-- A fault by the rules is what the reading finds. -/
theorem Grammar.Breaks.read {f : EncodingFault} {pre rest : List Char} (h : Breaks f pre rest)
    (n : Nat) (hn : (pre ++ rest).length < n) :
    readShape n (pre ++ rest) = .error (.fault f rest) := by
  obtain ⟨n, rfl⟩ : ∃ m, n = m + 1 := ⟨n - 1, by omega⟩
  match h with
  | .ended => rfl
  | .noType hc => exact readShape_noType hc
  | .qualified hc h =>
    rw [List.cons_append, readShape_of_isQualifier hc]
    exact h.read (n + 1) (by rw [List.cons_append, List.length_cons] at hn; omega)
  | .pointer h =>
    rw [List.cons_append, readShape_pointer, h.read n (by simpa using hn)]
    rfl
  | .badLength h => exact readShape_badLength h
  | .element hne hds hm hnext h =>
    rw [List.cons_append, List.append_assoc, List.length_cons, List.length_append] at hn
    rw [List.cons_append, List.append_assoc, readShape_array hne hds hm hnext, h.read n (by omega)]
    rfl
  | .unclosed hne hds hm ht h =>
    have hspells := ht.spells rest
    rw [List.cons_append, List.append_assoc, List.length_cons, List.length_append] at hn
    rw [List.cons_append, List.append_assoc, readShape_array hne hds hm hspells.head_not_digit,
      hspells.read n (by omega)]
    show (readChar ']' rest >>= _) = _
    rw [readChar_of_misses h]
    rfl
  | .tag htag =>
    rw [List.append_nil, readShape_opening, readComposite_unclosed_tag htag]
  | .members htag h =>
    rw [List.cons_append, List.append_assoc, List.cons_append] at hn ⊢
    rw [List.length_cons, List.length_append, List.length_cons] at hn
    rw [readShape_opening, readComposite_members htag, h.read n n (by omega) (by omega)]
    rfl

/-- The same for the members of a composite. -/
theorem Grammar.BreaksMembers.read {k : CompositeKind} {f : EncodingFault} {pre rest : List Char}
    (h : BreaksMembers k f pre rest) (n m : Nat) (hn : (pre ++ rest).length < n)
    (hm : (pre ++ rest).length < m) :
    readMembers k (readShape n) m (pre ++ rest) = .error (.fault f rest) := by
  obtain ⟨m, rfl⟩ : ∃ l, m = l + 1 := ⟨m - 1, by omega⟩
  match h with
  | .ended => rfl
  | .name h => rw [List.append_nil, readMembers_unclosed_name h]
  | .first hname hnext h =>
    rw [List.append_assoc, List.length_append] at hn hm
    rw [List.append_assoc, readMembers_member hname hnext, h.read n (by omega)]
    rfl
  | @BreaksMembers.later _ _ _ _ _ pre _ hname ht h =>
    have hspells := ht.spells (pre ++ rest)
    rw [List.append_assoc, List.length_append, List.append_assoc] at hn hm
    have hfirst := hspells.read n (by omega)
    -- the member takes a character, so the bound on the number of members holds for the rest
    have hshorter := consumes_readShape n hfirst
    rw [List.append_assoc, List.append_assoc,
      readMembers_member hname fun _ => hspells.head_of_member k, hfirst]
    show (readMembers k (readShape n) m _ >>= _) = _
    rw [h.read n m (by omega) (by omega)]
    rfl

end

end Bindery
