import Bindery.Shape.Progress
import Mathlib.Data.List.TakeWhile

/-!
# The grammar of type encodings

Which texts encode a shape? The rules of `Spells` say it without a reading: `Spells t cs rest` holds
when `cs` is a spelling of `t` followed by `rest`. No rule looks at `rest`, so what a text spells
does not depend on what follows it.

* `spells_of_readShape` : what is read is spelled by what was taken off the front of the text;
* `Spells.read` : every spelling is read, and the text behind it is left. The reading takes as many
  qualifiers, digits and characters of a tag as there are, and this is never too many;
* `spells_of_decodeChars`, `decodeChars_of_spells` : both for whole texts.
-/

namespace Bindery

mutual

/-- The text is a spelling of the shape, followed by `rest`. -/
inductive Spells : Shape → List Char → List Char → Prop where
  | qualified {c : Char} {t : Shape} {cs rest : List Char} (hc : isQualifier c = true)
      (ht : Spells t cs rest) : Spells t (c :: cs) rest
  | void {rest : List Char} : Spells .void ('v' :: rest) rest
  | object {rest : List Char} : Spells .object ('@' :: rest) rest
  | classRef {rest : List Char} : Spells .classRef ('#' :: rest) rest
  | selector {rest : List Char} : Spells .selector (':' :: rest) rest
  | primitive {p : Primitive} {rest : List Char} : Spells (.primitive p) (p.letter :: rest) rest
  | pointer {t : Shape} {cs rest : List Char} (ht : Spells t cs rest) :
      Spells (.pointer t) ('^' :: cs) rest
  | array {n : UInt32} {ds cs rest : List Char} {t : Shape} (hne : ds ≠ [])
      (hds : ∀ d ∈ ds, d.isDigit = true) (hn : Nat.ofDigitChars 10 ds 0 = n.toNat)
      (ht : Spells t cs (']' :: rest)) : Spells (.array n t) ('[' :: (ds ++ cs)) rest
  /-- A composite without members may have no `=`. -/
  | bare {k : CompositeKind} {tag rest : List Char} (htag : ∀ c ∈ tag, isTagChar k c = true) :
      Spells (.composite k (tagOfChars tag) .nil) (k.opening :: (tag ++ k.closing :: rest)) rest
  | composite {k : CompositeKind} {tag cs rest : List Char} {ms : Members}
      (htag : ∀ c ∈ tag, isTagChar k c = true) (hms : SpellsMembers ms cs (k.closing :: rest)) :
      Spells (.composite k (tagOfChars tag) ms) (k.opening :: (tag ++ '=' :: cs)) rest

/-- The text is a spelling of the members, followed by `rest`. -/
inductive SpellsMembers : Members → List Char → List Char → Prop where
  | nil {rest : List Char} : SpellsMembers .nil rest rest
  | cons {name : Option String} {t : Shape} {ms : Members} {cs cs' rest : List Char}
      (hname : ∀ s ∈ name, '"' ∉ s.toList) (ht : Spells t cs cs')
      (hms : SpellsMembers ms cs' rest) :
      SpellsMembers (.cons name t ms) (memberNameChars name ++ cs) rest

end

/-! ### What is read is spelled -/

theorem Spells.of_dropWhile {t : Shape} {cs rest : List Char}
    (h : Spells t (cs.dropWhile isQualifier) rest) : Spells t cs rest := by
  induction cs with
  | nil => exact h
  | cons c cs ih =>
    rw [List.dropWhile_cons] at h
    split at h
    · exact .qualified ‹_› (ih h)
    · exact h

/-- A run of characters that a test accepts ends at the first one that it does not. -/
theorem eq_of_dropWhile_eq_cons {p : Char → Bool} {cs rest : List Char} {c : Char}
    (h : cs.dropWhile p = c :: rest) :
    cs = cs.takeWhile p ++ c :: rest ∧ (∀ d ∈ cs.takeWhile p, p d = true) ∧ p c = false := by
  refine ⟨?_, fun d hd => List.mem_takeWhile_imp hd, ?_⟩
  · rw [← h, List.takeWhile_append_dropWhile]
  · have := List.head_dropWhile_not p (l := cs) (by simp [h])
    simpa [h] using this

theorem isTagChar_eq_false_iff {k : CompositeKind} {c : Char} :
    isTagChar k c = false ↔ c = '=' ∨ c = k.closing := by
  by_cases h : c = '=' <;> simp [isTagChar, h]

theorem eq_of_readChar {c : Char} {cs rest : List Char} (h : readChar c cs = .ok rest) :
    cs = c :: rest := by
  cases cs with
  | nil => simp [readChar] at h
  | cons d cs =>
    simp only [readChar] at h
    split at h <;> simp_all

theorem digits_of_readLength {n : UInt32} {cs rest : List Char}
    (h : readLength cs = .ok (n, rest)) :
    ∃ ds : List Char, cs = ds ++ rest ∧ ds ≠ [] ∧ (∀ d ∈ ds, d.isDigit = true) ∧
      Nat.ofDigitChars 10 ds 0 = n.toNat := by
  simp only [readLength] at h
  split at h
  · simp at h
  · rename_i hc
    simp only [Bool.or_eq_true, List.isEmpty_iff, decide_eq_true_eq, not_or, Nat.not_le] at hc
    simp only [Except.ok.injEq, Prod.mk.injEq] at h
    obtain ⟨rfl, rfl⟩ := h
    refine ⟨_, List.takeWhile_append_dropWhile.symm, hc.1, fun d hd => ?_, ?_⟩
    · exact List.mem_takeWhile_imp hd
    · exact (UInt32.toNat_ofNat_of_lt hc.2).symm

theorem chars_of_readMemberName {name : Option String} {cs rest : List Char}
    (h : readMemberName cs = .ok (name, rest)) :
    cs = memberNameChars name ++ rest ∧ ∀ s ∈ name, '"' ∉ s.toList := by
  unfold readMemberName at h
  split at h
  · rename_i cs
    split at h
    · simp at h
    · rename_i c rest' e
      simp only [Except.ok.injEq, Prod.mk.injEq] at h
      obtain ⟨rfl, rfl⟩ := h
      obtain ⟨hcs, hname, hc⟩ := eq_of_dropWhile_eq_cons e
      obtain rfl : c = '"' := by simpa using hc
      constructor
      · simpa [memberNameChars] using hcs
      · rintro s ⟨⟩ hs
        rw [String.toList_ofList] at hs
        simpa using hname _ hs
  · simp only [Except.ok.injEq, Prod.mk.injEq] at h
    obtain ⟨rfl, rfl⟩ := h
    simp [memberNameChars]

variable {k : CompositeKind} {read : List Char → Reading (Shape × List Char)} {n : Nat}
  {cs rest : List Char}

theorem spells_of_readMembers {ms : Members}
    (hr : ∀ {cs t rest}, read cs = .ok (t, rest) → Spells t cs rest)
    (h : readMembers k read n cs = .ok (ms, rest)) : SpellsMembers ms cs (k.closing :: rest) := by
  induction n generalizing cs ms rest with
  | zero => simp [readMembers] at h
  | succ n ih =>
    cases cs with
    | nil => simp [readMembers] at h
    | cons c cs =>
      simp only [readMembers] at h
      split at h
      · obtain ⟨rfl, rfl⟩ := Prod.mk.inj (Except.ok.inj h)
        rw [‹c = k.closing›]
        exact .nil
      · simp only [bind_eq_ok_iff, Prod.exists] at h
        obtain ⟨name, cs₁, h₁, t, cs₂, h₂, ms', cs₃, h₃, h₄⟩ := h
        obtain ⟨rfl, rfl⟩ := Prod.mk.inj (Except.ok.inj h₄)
        obtain ⟨e, hname⟩ := chars_of_readMemberName h₁
        rw [e]
        exact .cons hname (hr h₂) (ih h₃)

theorem spells_of_readComposite {t : Shape}
    (hr : ∀ {cs t rest}, read cs = .ok (t, rest) → Spells t cs rest)
    (h : readComposite k read n cs = .ok (t, rest)) : Spells t (k.opening :: cs) rest := by
  simp only [readComposite] at h
  split at h
  · simp at h
  · rename_i c cs' e
    obtain ⟨hcs, htag, hc⟩ := eq_of_dropWhile_eq_cons e
    rw [hcs]
    split at h
    · obtain ⟨rfl, rfl⟩ := Prod.mk.inj (Except.ok.inj h)
      rw [‹c = k.closing›]
      exact .bare htag
    · simp only [bind_eq_ok_iff, Prod.exists] at h
      obtain ⟨ms, cs₁, h₁, h₂⟩ := h
      obtain ⟨rfl, rfl⟩ := Prod.mk.inj (Except.ok.inj h₂)
      -- the tag has ended, but the composite has not
      obtain rfl : c = '=' := (isTagChar_eq_false_iff.1 hc).resolve_right ‹_›
      exact .composite htag (spells_of_readMembers hr h₁)

/-- What is read is spelled by what was taken off the front of the text. -/
theorem spells_of_readShape {t : Shape} (h : readShape n cs = .ok (t, rest)) :
    Spells t cs rest := by
  induction n generalizing cs t rest with
  | zero => simp [readShape] at h
  | succ n ih =>
    -- the qualifiers are dropped first, and each of them is one of the spelling
    apply Spells.of_dropWhile
    simp only [readShape] at h
    split at h
    · simp at h
    · rename_i c cs' e
      rw [e]
      split at h
      · obtain ⟨rfl, rfl⟩ := Prod.mk.inj (Except.ok.inj h)
        rw [Primitive.ofLetter?_eq_some_iff.1 ‹Primitive.ofLetter? c = some _›]
        exact .primitive
      · split at h
        · obtain ⟨rfl, rfl⟩ := Prod.mk.inj (Except.ok.inj h)
          exact .void
        · obtain ⟨rfl, rfl⟩ := Prod.mk.inj (Except.ok.inj h)
          exact .object
        · obtain ⟨rfl, rfl⟩ := Prod.mk.inj (Except.ok.inj h)
          exact .classRef
        · obtain ⟨rfl, rfl⟩ := Prod.mk.inj (Except.ok.inj h)
          exact .selector
        · simp only [bind_eq_ok_iff, Prod.exists] at h
          obtain ⟨u, cs₁, h₁, h₂⟩ := h
          obtain ⟨rfl, rfl⟩ := Prod.mk.inj (Except.ok.inj h₂)
          exact .pointer (ih h₁)
        · exact spells_of_readComposite (k := .struct) ih h
        · exact spells_of_readComposite (k := .union) ih h
        · simp only [bind_eq_ok_iff, Prod.exists] at h
          obtain ⟨m, cs₁, h₁, u, cs₂, h₂, cs₃, h₃, h₄⟩ := h
          obtain ⟨rfl, rfl⟩ := Prod.mk.inj (Except.ok.inj h₄)
          obtain ⟨ds, rfl, hne, hds, hm⟩ := digits_of_readLength h₁
          rw [eq_of_readChar h₃] at h₂
          exact .array hne hds hm (ih h₂)
        · simp at h

/-! ### What is spelled is read -/

/-- A reading that takes characters as long as a test accepts them takes `xs`, when what follows
does not go on with such a character. -/
theorem span_append {p : Char → Bool} {xs : List Char} (hxs : ∀ c ∈ xs, p c = true)
    (ys : List Char) (hys : ∀ c ∈ ys.head?, p c = false) :
    (xs ++ ys).takeWhile p = xs ∧ (xs ++ ys).dropWhile p = ys := by
  rw [List.takeWhile_append_of_pos hxs, List.dropWhile_append_of_pos hxs]
  cases ys with
  | nil => simp
  | cons y ys =>
    have hy : p y = false := hys y rfl
    simp [hy]

/-- The character starts no length and no member name, and ends no composite. -/
def opensType (c : Char) : Bool := !c.isDigit && c != '"' && c != '}' && c != ')'

theorem opensType_of_isQualifier {c : Char} (h : isQualifier c = true) : opensType c = true := by
  have all : ['r', 'n', 'N', 'o', 'O', 'R', 'V'].all opensType = true := by decide
  exact List.all_eq_true.1 all c (by simpa [isQualifier] using h)

theorem opensType_letter (p : Primitive) : opensType p.letter = true := by cases p <;> decide

theorem opensType_opening (k : CompositeKind) : opensType k.opening = true := by cases k <;> decide

theorem ne_closing_of_opensType {c : Char} (h : opensType c = true) (k : CompositeKind) :
    c ≠ k.closing := by
  rintro rfl
  revert h
  cases k <;> decide

theorem Spells.head {t : Shape} (h : Spells t cs rest) :
    ∃ c cs', cs = c :: cs' ∧ opensType c = true := by
  cases h with
  | qualified hc ht => exact ⟨_, _, rfl, opensType_of_isQualifier hc⟩
  | primitive => exact ⟨_, _, rfl, opensType_letter _⟩
  | bare | composite => exact ⟨_, _, rfl, opensType_opening _⟩
  | void | object | classRef | selector | pointer | array => exact ⟨_, _, rfl, by decide⟩

/-- A type does not go on with the digits of a length in front of it. -/
theorem Spells.head_not_digit {t : Shape} (h : Spells t cs rest) :
    ∀ c ∈ cs.head?, c.isDigit = false := by
  obtain ⟨c, cs', rfl, hc⟩ := h.head
  rintro d ⟨⟩
  simp_all [opensType]

/-- A type is neither taken for the end of a composite nor for the name of a member. -/
theorem Spells.head_of_member {t : Shape} (h : Spells t cs rest) (k : CompositeKind) :
    ∃ c ∈ cs.head?, c ≠ k.closing ∧ c ≠ '"' := by
  obtain ⟨c, cs', rfl, hc⟩ := h.head
  refine ⟨c, rfl, ne_closing_of_opensType hc k, ?_⟩
  simp_all [opensType]

theorem readLength_append {m : UInt32} {ds : List Char} (hne : ds ≠ [])
    (hds : ∀ d ∈ ds, d.isDigit = true) (hm : Nat.ofDigitChars 10 ds 0 = m.toNat)
    (hcs : ∀ c ∈ cs.head?, c.isDigit = false) : readLength (ds ++ cs) = .ok (m, cs) := by
  obtain ⟨htake, hdrop⟩ := span_append hds cs hcs
  have hlt : ¬ lengthBound ≤ m.toNat := Nat.not_le.2 m.toNat_lt
  simp [readLength, htake, hdrop, hm, hne, hlt]

theorem readMemberName_append {name : Option String} (hname : ∀ s ∈ name, '"' ∉ s.toList)
    (hcs : name = none → cs.head? ≠ some '"') :
    readMemberName (memberNameChars name ++ cs) = .ok (name, cs) := by
  cases name with
  | none =>
    rw [memberNameChars, List.nil_append]
    unfold readMemberName
    split
    · exact absurd rfl (hcs rfl)
    · rfl
  | some s =>
    have hs : ∀ c ∈ s.toList, (c != '"') = true := by
      intro c hc
      simpa using fun e : c = '"' => hname s rfl (e ▸ hc)
    obtain ⟨htake, hdrop⟩ := span_append hs ('"' :: cs) (by simp)
    simp [memberNameChars, readMemberName, htake, hdrop]

theorem readShape_of_isQualifier {c : Char} (hc : isQualifier c = true) :
    readShape n (c :: cs) = readShape n cs := by
  cases n with
  | zero => rfl
  | succ n => simp [readShape, hc]

theorem readComposite_bare {tag : List Char} (htag : ∀ c ∈ tag, isTagChar k c = true) :
    readComposite k read n (tag ++ k.closing :: rest) =
      .ok (.composite k (tagOfChars tag) .nil, rest) := by
  have hstop : isTagChar k k.closing = false := isTagChar_eq_false_iff.2 (.inr rfl)
  obtain ⟨htake, hdrop⟩ := span_append htag (k.closing :: rest) (by simpa using hstop)
  simp [readComposite, htake, hdrop]

theorem readComposite_members {tag : List Char} (htag : ∀ c ∈ tag, isTagChar k c = true) :
    readComposite k read n (tag ++ '=' :: cs) =
      (do
        let (ms, cs) ← readMembers k read n cs
        return (.composite k (tagOfChars tag) ms, cs)) := by
  have hstop : isTagChar k '=' = false := isTagChar_eq_false_iff.2 (.inl rfl)
  obtain ⟨htake, hdrop⟩ := span_append htag ('=' :: cs) (by simpa using hstop)
  have hne : '=' ≠ k.closing := by cases k <;> decide
  simp only [readComposite, htake, hdrop, if_neg hne]

theorem readShape_opening (k : CompositeKind) :
    readShape (n + 1) (k.opening :: cs) = readComposite k (readShape n) n cs := by
  cases k <;> rfl

theorem readShape_letter (p : Primitive) :
    readShape (n + 1) (p.letter :: cs) = .ok (.primitive p, cs) := by
  cases p <;> rfl

theorem readShape_pointer :
    readShape (n + 1) ('^' :: cs) =
      (do
        let (t, cs) ← readShape n cs
        return (.pointer t, cs)) :=
  rfl

/-- All digits of the length are taken when no digit follows them. -/
theorem readShape_array {m : UInt32} {ds : List Char} (hne : ds ≠ [])
    (hds : ∀ d ∈ ds, d.isDigit = true) (hm : Nat.ofDigitChars 10 ds 0 = m.toNat)
    (hcs : ∀ c ∈ cs.head?, c.isDigit = false) :
    readShape (n + 1) ('[' :: (ds ++ cs)) =
      (do
        let (t, cs) ← readShape n cs
        let cs ← readChar ']' cs
        return (.array m t, cs)) := by
  show (readLength (ds ++ cs) >>= _) = _
  rw [readLength_append hne hds hm hcs]
  rfl

/-- Without a name in front of it, a type must not be taken for one, nor for the end of the
composite. -/
theorem readMembers_member {name : Option String} (hname : ∀ s ∈ name, '"' ∉ s.toList)
    (hcs : name = none → ∃ c ∈ cs.head?, c ≠ k.closing ∧ c ≠ '"') :
    readMembers k read (n + 1) (memberNameChars name ++ cs) =
      (do
        let (t, cs) ← read cs
        let (ms, cs) ← readMembers k read n cs
        return (.cons name t ms, cs)) := by
  have hread : readMemberName (memberNameChars name ++ cs) = .ok (name, cs) := by
    refine readMemberName_append hname fun hnone e => ?_
    obtain ⟨c, hc, -, hquote⟩ := hcs hnone
    exact hquote (Option.some.inj (hc.symm.trans e))
  obtain ⟨d, ds, e, hd⟩ : ∃ d ds, memberNameChars name ++ cs = d :: ds ∧ d ≠ k.closing := by
    cases name with
    | none =>
      obtain ⟨c, hc, hclosing, -⟩ := hcs rfl
      obtain ⟨ds, rfl⟩ := List.head?_eq_some_iff.1 hc
      exact ⟨c, ds, rfl, hclosing⟩
    | some s => exact ⟨'"', _, rfl, by cases k <;> decide⟩
  rw [e] at hread ⊢
  rw [readMembers, if_neg hd, hread]
  rfl

mutual

/-- Every spelling of a shape is read, and the text behind it is left. -/
theorem Spells.read {t : Shape} {cs rest : List Char} (h : Spells t cs rest) (n : Nat)
    (hn : cs.length < n) : readShape n cs = .ok (t, rest) := by
  match n, h, hn with
  | n, .qualified hc ht, hn =>
    rw [readShape_of_isQualifier hc]
    exact ht.read n (by rw [List.length_cons] at hn; omega)
  | n + 1, .void, _ | n + 1, .object, _ | n + 1, .classRef, _ | n + 1, .selector, _ => rfl
  | n + 1, .primitive, _ => exact readShape_letter _
  | n + 1, .pointer ht, hn =>
    rw [readShape_pointer, ht.read n (by simpa using hn)]
    rfl
  | n + 1, .array hne hds hm ht, hn =>
    simp only [List.length_cons, List.length_append] at hn
    rw [readShape_array hne hds hm ht.head_not_digit, ht.read n (by omega)]
    rfl
  | n + 1, .bare htag, _ => rw [readShape_opening, readComposite_bare htag]
  | n + 1, .composite htag hms, hn =>
    simp only [List.length_cons, List.length_append] at hn
    rw [readShape_opening, readComposite_members htag, hms.read rfl n n (by omega) (by omega)]
    rfl

/-- The same for the members of a composite, up to its closing character. -/
theorem SpellsMembers.read {ms : Members} {cs stop : List Char}
    (h : SpellsMembers ms cs stop) {k : CompositeKind} {rest : List Char}
    (hs : stop = k.closing :: rest) (n m : Nat) (hn : cs.length < n) (hm : cs.length < m) :
    readMembers k (readShape n) m cs = .ok (ms, rest) := by
  match m, h, hn, hm with
  | m + 1, .nil, _, _ => rw [hs, readMembers, if_pos rfl]
  | m + 1, .cons hname ht hms, hn, hm =>
    rw [List.length_append] at hn hm
    have hfirst := ht.read n (by omega)
    -- the first member takes a character, so the bound on the number of members holds for the rest
    have hshorter := consumes_readShape n hfirst
    rw [readMembers_member hname fun _ => ht.head_of_member k, hfirst]
    show (readMembers k (readShape n) m _ >>= _) = _
    rw [hms.read hs n m (by omega) (by omega)]
    rfl

end

/-! ### Whole texts -/

theorem decodeChars_of_spells {t : Shape} (h : Spells t cs []) : decodeChars cs = .ok t := by
  have hread := h.read (cs.length + 1) (Nat.lt_succ_self _)
  simp [decodeChars, hread]

theorem spells_of_decodeChars {t : Shape} (h : decodeChars cs = .ok t) : Spells t cs [] := by
  rcases decodeChars_eq cs with ⟨u, hread, e⟩ | ⟨u, c, rest, -, e⟩ | ⟨fault, rest, -, e⟩
  · obtain rfl : u = t := Except.ok.inj (e.symm.trans h)
    exact spells_of_readShape hread
  · cases e.symm.trans h
  · cases e.symm.trans h

end Bindery
