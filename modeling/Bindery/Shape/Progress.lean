import Bindery.Except
import Bindery.Shape.Decoding

/-!
# Progress of a reading

A reading takes characters off the front of a text and returns the rest. Here it is shown that the
rest is always shorter, and what follows for the bound of `readShape`.

* `consumes_readShape`: a type that is read takes at least one character;
* `readShape_ne_bound`: a bound above the number of characters is never met;
* `decodeChars_eq`: so `decodeChars` gives a shape or a fault of the text, and nothing else.
-/

namespace Bindery

/-! ### Readings of characters -/

theorem length_dropWhile_le (p : Char → Bool) (cs : List Char) :
    (cs.dropWhile p).length ≤ cs.length :=
  (List.dropWhile_sublist p).length_le

theorem length_lt_of_dropWhile {p : Char → Bool} {cs rest : List Char} {c : Char}
    (h : cs.dropWhile p = c :: rest) : rest.length < cs.length := by
  have := length_dropWhile_le p cs
  rw [h, List.length_cons] at this
  omega

/-! ### The rest is shorter -/

theorem length_of_readChar {c : Char} {cs rest : List Char} (h : readChar c cs = .ok rest) :
    rest.length < cs.length := by
  cases cs with
  | nil => simp [readChar] at h
  | cons d cs =>
    simp only [readChar] at h
    split at h <;> simp_all

theorem length_of_readLength {n : UInt32} {cs rest : List Char}
    (h : readLength cs = .ok (n, rest)) : rest.length ≤ cs.length := by
  simp only [readLength] at h
  split at h
  · simp at h
  · simp only [Except.ok.injEq, Prod.mk.injEq] at h
    exact h.2 ▸ length_dropWhile_le _ _

theorem length_of_readMemberName {name : Option String} {cs rest : List Char}
    (h : readMemberName cs = .ok (name, rest)) : rest.length ≤ cs.length := by
  unfold readMemberName at h
  split at h
  · split at h
    · simp at h
    · rename_i e
      have := length_lt_of_dropWhile e
      simp only [Except.ok.injEq, Prod.mk.injEq] at h
      rw [← h.2, List.length_cons]
      omega
  · simp only [Except.ok.injEq, Prod.mk.injEq] at h
    simp [h.2]

/-- What the reading returns is followed by fewer characters than it was given. -/
def Consumes {α : Type} (read : List Char → Reading (α × List Char)) : Prop :=
  ∀ ⦃cs a rest⦄, read cs = .ok (a, rest) → rest.length < cs.length

variable {k : CompositeKind} {read : List Char → Reading (Shape × List Char)}

theorem consumes_readMembers (hr : Consumes read) (n : Nat) :
    Consumes (readMembers k read n) := by
  intro cs ms rest h
  induction n generalizing cs ms rest with
  | zero => simp [readMembers] at h
  | succ n ih =>
    cases cs with
    | nil => simp [readMembers] at h
    | cons c cs =>
      simp only [readMembers] at h
      split at h
      · simp_all
      · simp only [bind_eq_ok_iff, Prod.exists] at h
        obtain ⟨name, cs₁, h₁, t, cs₂, h₂, ms', cs₃, h₃, h₄⟩ := h
        obtain rfl : cs₃ = rest := (Prod.mk.inj (Except.ok.inj h₄)).2
        have := length_of_readMemberName h₁
        have := hr h₂
        have := ih h₃
        omega

theorem consumes_readComposite (hr : Consumes read) (n : Nat) :
    Consumes (readComposite k read n) := by
  intro cs t rest h
  simp only [readComposite] at h
  split at h
  · simp at h
  · rename_i c cs' e
    have := length_lt_of_dropWhile e
    split at h
    · obtain rfl := (Prod.mk.inj (Except.ok.inj h)).2
      exact this
    · simp only [bind_eq_ok_iff, Prod.exists] at h
      obtain ⟨ms, cs₁, h₁, h₂⟩ := h
      obtain rfl : cs₁ = rest := (Prod.mk.inj (Except.ok.inj h₂)).2
      have := consumes_readMembers hr n h₁
      omega

theorem consumes_readShape (n : Nat) : Consumes (readShape n) := by
  induction n with
  | zero =>
    intro cs t rest h
    simp [readShape] at h
  | succ n ih =>
    intro cs t rest h
    simp only [readShape] at h
    split at h
    · simp at h
    · rename_i c cs' e
      have := length_lt_of_dropWhile e
      split at h
      · obtain rfl := (Prod.mk.inj (Except.ok.inj h)).2
        exact this
      · split at h
        -- the four shapes of one character
        iterate 4
          · obtain rfl := (Prod.mk.inj (Except.ok.inj h)).2
            exact this
        · simp only [bind_eq_ok_iff, Prod.exists] at h
          obtain ⟨u, cs₁, h₁, h₂⟩ := h
          obtain rfl : cs₁ = rest := (Prod.mk.inj (Except.ok.inj h₂)).2
          have := ih h₁
          omega
        · have := consumes_readComposite ih n h
          omega
        · have := consumes_readComposite ih n h
          omega
        · simp only [bind_eq_ok_iff, Prod.exists] at h
          obtain ⟨m, cs₁, h₁, u, cs₂, h₂, cs₃, h₃, h₄⟩ := h
          obtain rfl : cs₃ = rest := (Prod.mk.inj (Except.ok.inj h₄)).2
          have := length_of_readLength h₁
          have := ih h₂
          have := length_of_readChar h₃
          omega
        · simp at h

/-! ### The bound is not met -/

theorem readChar_ne_bound (c : Char) (cs : List Char) : readChar c cs ≠ .error .bound := by
  cases cs with
  | nil => simp [readChar]
  | cons d cs =>
    simp only [readChar]
    split <;> simp

theorem readLength_ne_bound (cs : List Char) : readLength cs ≠ .error .bound := by
  simp only [readLength]
  split <;> simp

theorem readMemberName_ne_bound (cs : List Char) : readMemberName cs ≠ .error .bound := by
  unfold readMemberName
  split
  · split <;> simp
  · simp

theorem readMembers_ne_bound {limit : Nat} (hr : Consumes read)
    (hb : ∀ cs : List Char, cs.length < limit → read cs ≠ .error .bound) {n : Nat}
    {cs : List Char} (hn : cs.length < n) (hl : cs.length < limit) :
    readMembers k read n cs ≠ .error .bound := by
  induction n generalizing cs with
  | zero => omega
  | succ n ih =>
    cases cs with
    | nil => simp [readMembers]
    | cons c cs =>
      simp only [readMembers]
      split
      · simp
      · intro h
        simp only [bind_eq_error_iff, Prod.exists] at h
        rcases h with h | ⟨name, cs₁, h₁, h | ⟨t, cs₂, h₂, h | ⟨ms, cs₃, _, h⟩⟩⟩
        · exact readMemberName_ne_bound _ h
        · have := length_of_readMemberName h₁
          exact hb cs₁ (by omega) h
        · have := length_of_readMemberName h₁
          have := hr h₂
          exact ih (by omega) (by omega) h
        · simp [pure, Except.pure] at h

theorem readComposite_ne_bound (hr : Consumes read) {n : Nat}
    (hb : ∀ cs : List Char, cs.length < n → read cs ≠ .error .bound) {cs : List Char}
    (hn : cs.length < n) : readComposite k read n cs ≠ .error .bound := by
  simp only [readComposite]
  split
  · simp
  · rename_i c cs' e
    have := length_lt_of_dropWhile e
    split
    · simp
    · intro h
      simp only [bind_eq_error_iff, Prod.exists] at h
      rcases h with h | ⟨ms, cs₁, _, h⟩
      · exact readMembers_ne_bound hr hb (by omega) (by omega) h
      · simp [pure, Except.pure] at h

theorem readShape_ne_bound {n : Nat} {cs : List Char} (hn : cs.length < n) :
    readShape n cs ≠ .error .bound := by
  induction n generalizing cs with
  | zero => omega
  | succ n ih =>
    have hb : ∀ cs : List Char, cs.length < n → readShape n cs ≠ .error .bound := fun _ => ih
    simp only [readShape]
    split
    · simp
    · rename_i c cs' e
      have := length_lt_of_dropWhile e
      split
      · simp
      · split
        iterate 4 · simp
        · intro h
          simp only [bind_eq_error_iff, Prod.exists] at h
          rcases h with h | ⟨u, cs₁, _, h⟩
          · exact hb cs' (by omega) h
          · simp [pure, Except.pure] at h
        · exact readComposite_ne_bound (consumes_readShape n) hb (by omega)
        · exact readComposite_ne_bound (consumes_readShape n) hb (by omega)
        · intro h
          simp only [bind_eq_error_iff, Prod.exists] at h
          rcases h with h | ⟨m, cs₁, h₁, h | ⟨u, cs₂, _, h | ⟨cs₃, _, h⟩⟩⟩
          · exact readLength_ne_bound _ h
          · have := length_of_readLength h₁
            exact hb cs₁ (by omega) h
          · exact readChar_ne_bound _ _ h
          · simp [pure, Except.pure] at h
        · simp

/-- A text is read to its end, or has a fault. -/
theorem decodeChars_eq (text : List Char) :
    (∃ t, readShape (text.length + 1) text = .ok (t, []) ∧ decodeChars text = .ok t) ∨
    (∃ t c rest, readShape (text.length + 1) text = .ok (t, c :: rest) ∧
      decodeChars text = .error (faultAt text (c :: rest) .trailingInput)) ∨
    ∃ fault rest, readShape (text.length + 1) text = .error (.fault fault rest) ∧
      decodeChars text = .error (faultAt text rest fault) := by
  have hb := readShape_ne_bound (Nat.lt_succ_self text.length)
  unfold decodeChars
  match h : readShape (text.length + 1) text with
  | .ok (t, []) => exact .inl ⟨t, rfl, rfl⟩
  | .ok (t, c :: rest) => exact .inr (.inl ⟨t, c, rest, rfl, rfl⟩)
  | .error (.fault fault rest) => exact .inr (.inr ⟨fault, rest, rfl, rfl⟩)
  | .error .bound => exact absurd h hb

end Bindery
