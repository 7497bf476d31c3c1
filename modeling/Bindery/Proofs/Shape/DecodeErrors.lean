import Bindery.Proofs.Shape.Faults

/-!
# What a decoding error says of the text

The rules for faults are turned into facts about all texts that begin like the rejected one. In
front of a fault stands the beginning of a type, which can be completed. Behind it stands what no
type has there, so that no more text can mend the fault, except where the text has merely ended.

* `Grammar.Breaks.completed` : the part in front of a fault can be completed to a type;
* `Grammar.Breaks.goes_on` : the fault stays when the text behind its first character changes;
* `Grammar.Denotes.eq_nil_of_append` : no type goes on as another;
* `Shape.decode_error_tells` : all of it for `Shape.decode`, with the place of a fault in bytes.
-/

namespace Bindery

open Grammar Shape

/-! ### Completions -/

namespace Grammar

theorem denotes_void : Denotes ['v'] .void := .letter (by simp [letters])

mutual

/-- The part in front of a fault can be completed to a type. -/
theorem Breaks.completed {f : EncodingFault} {pre rest : List Char} (h : Breaks f pre rest) :
    ∃ ext t, Denotes (pre ++ ext) t := by
  match h with
  | .ended | .noType _ => exact ⟨['v'], .void, denotes_void⟩
  | .qualified hc h =>
    obtain ⟨ext, t, ht⟩ := h.completed
    exact ⟨ext, t, .qualified (isQualifier_iff.1 hc) ht⟩
  | .pointer h =>
    obtain ⟨ext, t, ht⟩ := h.completed
    exact ⟨ext, .pointer t, .pointer ht⟩
  | .badLength _ =>
    have harray : Denotes ('[' :: (['0'] ++ ['v'] ++ [']'])) (.array 0 .void) :=
      denotes_array (by simp) (by simp) rfl denotes_void
    exact ⟨['0', 'v', ']'], _, harray⟩
  | .element hne hds hn _ h =>
    obtain ⟨ext, t, ht⟩ := h.completed
    exact ⟨ext ++ [']'], _, by simpa using denotes_array hne hds hn ht⟩
  | .unclosed hne hds hn ht _ => exact ⟨[']'], _, denotes_array hne hds hn ht⟩
  | .tag (k := k) htag => exact ⟨[k.closing], _, denotes_bare htag⟩
  | .members (k := k) htag h =>
    obtain ⟨ext, ms, hms⟩ := h.completed
    exact ⟨ext ++ [k.closing], _, by simpa using denotes_composite htag hms⟩

theorem BreaksMembers.completed {k : CompositeKind} {f : EncodingFault} {pre rest : List Char}
    (h : BreaksMembers k f pre rest) : ∃ ext ms, DenotesMembers (pre ++ ext) ms := by
  match h with
  | .ended => exact ⟨[], .nil, .nil⟩
  | @BreaksMembers.name _ name hquote =>
    have hname : MemberName ('"' :: (name ++ ['"'])) (some (String.ofList name)) := by
      have hquoted := MemberName.quoted (s := String.ofList name) (by rwa [String.toList_ofList])
      rwa [String.toList_ofList] at hquoted
    exact ⟨['"', 'v'], _, by simpa using DenotesMembers.cons hname denotes_void .nil⟩
  | .first hname _ h =>
    obtain ⟨ext, t, ht⟩ := h.completed
    have hcons := DenotesMembers.cons (memberName_iff.2 ⟨rfl, hname⟩) ht .nil
    exact ⟨ext, _, by simpa using hcons⟩
  | .later hname ht h =>
    obtain ⟨ext, ms, hms⟩ := h.completed
    have hcons := DenotesMembers.cons (memberName_iff.2 ⟨rfl, hname⟩) ht hms
    exact ⟨ext, _, by simpa using hcons⟩

end

end Grammar

/-! ### Texts that go on in the same way -/

theorem Misses.goes_on {c : Char} {f : EncodingFault} {rest tail : List Char}
    (h : Misses c f rest) (htail : tail.head? = rest.head?) : Misses c f tail := by
  cases h with
  | ended =>
    obtain rfl := List.head?_eq_none_iff.1 htail
    exact .ended
  | other hd =>
    obtain ⟨later, rfl⟩ := List.head?_eq_some_iff.1 htail
    exact .other hd

namespace Grammar

theorem head?_append_congr {pre rest tail : List Char} (h : tail.head? = rest.head?) :
    (pre ++ tail).head? = (pre ++ rest).head? := by
  rw [List.head?_append, List.head?_append, h]

mutual

/-- A fault stays when the text behind its first character changes, unless it is the length of an
array that is wrong. -/
theorem Breaks.goes_on {f : EncodingFault} {pre rest tail : List Char} (h : Breaks f pre rest)
    (htail : tail.head? = rest.head?) (hlen : f = .badArrayLength → BadLength tail) :
    Breaks f pre tail := by
  match h with
  | .ended =>
    obtain rfl := List.head?_eq_none_iff.1 htail
    exact .ended
  | .noType hc =>
    obtain ⟨later, rfl⟩ := List.head?_eq_some_iff.1 htail
    exact .noType hc
  | .qualified hc h => exact .qualified hc (h.goes_on htail hlen)
  | .pointer h => exact .pointer (h.goes_on htail hlen)
  | .badLength _ => exact .badLength (hlen rfl)
  | .element hne hds hn hnext h =>
    exact .element hne hds hn (by rwa [head?_append_congr htail]) (h.goes_on htail hlen)
  | .unclosed hne hds hn ht h => exact .unclosed hne hds hn ht (h.goes_on htail)
  | .tag htag =>
    obtain rfl := List.head?_eq_none_iff.1 htail
    exact .tag htag
  | .members htag h => exact .members htag (h.goes_on htail hlen)

theorem BreaksMembers.goes_on {k : CompositeKind} {f : EncodingFault} {pre rest tail : List Char}
    (h : BreaksMembers k f pre rest) (htail : tail.head? = rest.head?)
    (hlen : f = .badArrayLength → BadLength tail) : BreaksMembers k f pre tail := by
  match h with
  | .ended =>
    obtain rfl := List.head?_eq_none_iff.1 htail
    exact .ended
  | .name hquote =>
    obtain rfl := List.head?_eq_none_iff.1 htail
    exact .name hquote
  | .first hname hnext h =>
    exact .first hname (by rwa [head?_append_congr htail]) (h.goes_on htail hlen)
  | .later hname ht h => exact .later hname ht (h.goes_on htail hlen)

end

end Grammar

/-! ### What is no type -/

section

variable {f : EncodingFault} {pre rest : List Char} {t u : Shape}

/-- No type goes on as another. -/
theorem Grammar.Denotes.eq_nil_of_append {cs ext : List Char} (h : Denotes cs t)
    (hext : Denotes (cs ++ ext) u) : ext = [] := by
  have hu := hext.spells []
  rw [List.append_nil] at hu
  have hread := (h.spells ext).read ((cs ++ ext).length + 1) (Nat.lt_succ_self _)
  rw [hu.read _ (Nat.lt_succ_self _)] at hread
  exact (Prod.mk.inj (Except.ok.inj hread)).2.symm

/-- A text with a fault is no type. -/
theorem Grammar.Breaks.not_denotes (h : Breaks f pre rest) : ¬ Denotes (pre ++ rest) t := by
  intro ht
  have hspells := ht.spells []
  rw [List.append_nil] at hspells
  have hread := h.read ((pre ++ rest).length + 1) (Nat.lt_succ_self _)
  cases hread.symm.trans (hspells.read _ (Nat.lt_succ_self _))

end

/-! ### Where each kind of fault stands -/

/-- How a text stands before and behind a fault of its parts. -/
inductive EncodingFault.Place : EncodingFault → List Char → List Char → Prop where
  | ended {pre : List Char} : Place .unexpectedEnd pre []
  | char {c : Char} {pre rest : List Char} : Place (.unexpectedChar c) pre (c :: rest)
  | length {pre rest : List Char} (h : BadLength rest) : Place .badArrayLength (pre ++ ['[']) rest

theorem EncodingFault.Place.append_left {f : EncodingFault} {pre rest : List Char}
    (h : f.Place pre rest) (cs : List Char) : f.Place (cs ++ pre) rest := by
  cases h with
  | ended => exact .ended
  | char => exact .char
  | length h =>
    rw [← List.append_assoc]
    exact .length h

theorem Misses.place {c : Char} {f : EncodingFault} {rest : List Char} (h : Misses c f rest)
    (pre : List Char) : f.Place pre rest := by
  cases h with
  | ended => exact .ended
  | other => exact .char

namespace Grammar

mutual

theorem Breaks.place {f : EncodingFault} {pre rest : List Char} (h : Breaks f pre rest) :
    f.Place pre rest := by
  match h with
  | .ended | .tag _ => exact .ended
  | .noType _ => exact .char
  | .qualified (c := c) _ h => exact h.place.append_left [c]
  | .pointer h => exact h.place.append_left ['^']
  | .badLength h =>
    show EncodingFault.Place _ ([] ++ ['[']) _
    exact .length h
  | .element _ _ _ _ h => exact h.place.append_left ('[' :: _)
  | .unclosed _ _ _ _ h => exact h.place _
  | @Breaks.members _ k tag _ _ _ h =>
    have hplace := h.place.append_left (k.opening :: (tag ++ ['=']))
    simpa using hplace

theorem BreaksMembers.place {k : CompositeKind} {f : EncodingFault} {pre rest : List Char}
    (h : BreaksMembers k f pre rest) : f.Place pre rest := by
  match h with
  | .ended | .name _ => exact .ended
  | .first _ _ h => exact h.place.append_left _
  | .later _ _ h => exact (h.place.append_left _).append_left _

end

end Grammar

/-- A wrong length stays wrong behind more text, unless it has just not begun. -/
theorem BadLength.append {cs : List Char} (h : BadLength cs) (hne : cs ≠ []) (ext : List Char) :
    BadLength (cs ++ ext) := by
  rcases h with hempty | hgreat
  · left
    cases cs with
    | nil => exact absurd rfl hne
    | cons c cs =>
      have hc : ¬ c.isDigit = true := by
        intro hc
        simp [hc] at hempty
      rw [List.cons_append, List.takeWhile_cons_of_neg hc]
  · right
    rw [List.takeWhile_append]
    split
    · -- further digits do not make the value smaller
      rename_i hall
      rw [(List.takeWhile_sublist Char.isDigit).eq_of_length hall] at hgreat
      rw [Nat.ofDigitChars_append, Nat.ofDigitChars_eq_ofDigitChars_zero]
      have hmul := Nat.le_mul_of_pos_left (Nat.ofDigitChars 10 cs 0)
        (Nat.pow_pos (n := (ext.takeWhile Char.isDigit).length) (show 0 < 10 by decide))
      omega
    · exact hgreat

/-- Only where the text has ended can more text mend a fault. -/
theorem Grammar.Breaks.not_completed {f : EncodingFault} {pre rest : List Char} {t : Shape}
    (h : Breaks f pre rest) (hne : rest ≠ []) (ext : List Char) :
    ¬ Denotes (pre ++ (rest ++ ext)) t := by
  have hhead : (rest ++ ext).head? = rest.head? := by
    obtain ⟨c, later, rfl⟩ := List.exists_cons_of_ne_nil hne
    rfl
  refine Breaks.not_denotes (h.goes_on hhead ?_)
  rintro rfl
  cases h.place with
  | length hbad => exact hbad.append hne ext

/-! ### Whole texts -/

theorem byteLength_eq (cs : List Char) : byteLength cs = (String.ofList cs).utf8ByteSize := by
  have hfold (n : Nat) :
      cs.foldl (fun n c => n + c.utf8Size) n = n + (String.ofList cs).utf8ByteSize := by
    induction cs generalizing n with
    | nil => simp
    | cons c cs ih =>
      rw [List.foldl_cons, ih, String.ofList_cons, String.utf8ByteSize_append,
        String.utf8ByteSize_singleton, Nat.add_assoc]
  rw [byteLength, hfold, Nat.zero_add]

theorem byteLength_append (cs ds : List Char) :
    byteLength (cs ++ ds) = byteLength cs + byteLength ds := by
  simp [byteLength_eq, String.ofList_append]

/-- A rejected text has a whole type in front of further text, or breaks off. -/
theorem decodeChars_eq_error {cs : List Char} {e : DecodeError}
    (h : decodeChars cs = .error e) :
    ∃ pre rest, cs = pre ++ rest ∧ e.offset = byteLength pre ∧
      ((e.fault = .trailingInput ∧ rest ≠ [] ∧ ∃ t, Denotes pre t) ∨ Breaks e.fault pre rest) := by
  rcases decodeChars_eq cs with ⟨t, -, e'⟩ | ⟨t, c, rest, hread, e'⟩ | ⟨f, rest, hread, e'⟩
  · cases e'.symm.trans h
  · obtain rfl := Except.error.inj (e'.symm.trans h)
    obtain ⟨pre, rfl, hpre⟩ := (spells_of_readShape hread).denotes
    refine ⟨pre, c :: rest, rfl, ?_, .inl ⟨rfl, by simp, t, hpre⟩⟩
    simp [faultAt, byteLength_append]
  · obtain rfl := Except.error.inj (e'.symm.trans h)
    obtain ⟨pre, rfl, hpre⟩ := breaks_of_readShape hread
    refine ⟨pre, rest, rfl, ?_, .inr hpre⟩
    simp [faultAt, byteLength_append]

namespace Shape

/-- The text is the encoding of a shape. -/
def IsEncoding (s : String) : Prop := ∃ t, decode s = .ok t

theorem isEncoding_iff {s : String} : IsEncoding s ↔ ∃ t, Denotes s.toList t := by
  refine exists_congr fun t => ⟨fun h => ?_, fun h => ?_⟩
  · obtain ⟨text, e, ht⟩ := (spells_of_decodeChars h).denotes
    rwa [e, List.append_nil]
  · have hspells := h.spells []
    rw [List.append_nil] at hspells
    exact decodeChars_of_spells hspells

end Shape

/-- What a decoding error says of a text with `pre` in front of the fault and `rest` behind it. -/
structure DecodeError.Tells (e : DecodeError) (pre rest : String) : Prop where
  offset : e.offset = pre.utf8ByteSize
  /-- What stands in front of the fault begins an encoding. -/
  begins : ∃ ext, IsEncoding (pre ++ ext)
  trailing : e.fault = .trailingInput → IsEncoding pre ∧ e.offset < (pre ++ rest).utf8ByteSize
  ended : e.fault = .unexpectedEnd → e.offset = (pre ++ rest).utf8ByteSize
  char : ∀ c, e.fault = .unexpectedChar c →
    (∃ later, rest = String.singleton c ++ later) ∧
      ∀ ext, ¬ IsEncoding (pre ++ String.singleton c ++ ext)
  length : e.fault = .badArrayLength → (∃ outer, pre = outer ++ "[") ∧ BadLength rest.toList
  /-- The faults of truncated texts, which more text can mend, are told apart from all others. -/
  truncated : (∃ ext, IsEncoding (pre ++ rest ++ ext)) ↔
    e.fault = .unexpectedEnd ∨
      (e.fault = .badArrayLength ∧ e.offset = (pre ++ rest).utf8ByteSize)

theorem byteLength_lt {pre rest : List Char} (hne : rest ≠ []) :
    byteLength pre < (String.ofList pre ++ String.ofList rest).utf8ByteSize := by
  obtain ⟨c, later, rfl⟩ := List.exists_cons_of_ne_nil hne
  have hc := c.utf8Size_pos
  rw [String.utf8ByteSize_append, byteLength_eq, String.ofList_cons, String.utf8ByteSize_append,
    String.utf8ByteSize_singleton]
  omega

theorem tells_of_denotes {pre rest : List Char} {t : Shape} (h : Denotes pre t)
    (hne : rest ≠ []) :
    DecodeError.Tells ⟨byteLength pre, .trailingInput⟩ (String.ofList pre)
      (String.ofList rest) where
  offset := byteLength_eq pre
  begins := ⟨"", isEncoding_iff.2 ⟨t, by simpa using h⟩⟩
  trailing _ := ⟨isEncoding_iff.2 ⟨t, by simpa using h⟩, byteLength_lt hne⟩
  ended := nofun
  char := nofun
  length := nofun
  truncated := by
    constructor
    · rintro ⟨ext, hext⟩
      obtain ⟨u, hu⟩ := isEncoding_iff.1 hext
      rw [String.toList_append, String.toList_append, String.toList_ofList, String.toList_ofList,
        List.append_assoc] at hu
      exact absurd (List.append_eq_nil_iff.1 (h.eq_nil_of_append hu)).1 hne
    · rintro (h | ⟨h, -⟩) <;> cases h

theorem tells_of_breaks {f : EncodingFault} {pre rest : List Char} (h : Breaks f pre rest) :
    DecodeError.Tells ⟨byteLength pre, f⟩ (String.ofList pre) (String.ofList rest) where
  offset := byteLength_eq pre
  begins := by
    obtain ⟨ext, t, ht⟩ := h.completed
    exact ⟨String.ofList ext, isEncoding_iff.2 ⟨t, by simpa using ht⟩⟩
  trailing e := by
    obtain rfl : f = .trailingInput := e
    cases h.place
  ended e := by
    obtain rfl : f = .unexpectedEnd := e
    cases h.place with
    | ended => simp [byteLength_eq]
  char c e := by
    obtain rfl : f = .unexpectedChar c := e
    cases h.place with
    | char =>
      refine ⟨⟨_, String.ofList_cons⟩, fun ext hext => ?_⟩
      obtain ⟨t, ht⟩ := isEncoding_iff.1 hext
      have hagain : Breaks (.unexpectedChar c) pre (c :: ext.toList) := h.goes_on rfl nofun
      exact hagain.not_denotes (by simpa using ht)
  length e := by
    obtain rfl : f = .badArrayLength := e
    cases h.place with
    | length hbad => exact ⟨⟨_, String.ofList_append⟩, by simpa using hbad⟩
  truncated := by
    by_cases hne : rest = []
    · subst hne
      obtain ⟨ext, t, ht⟩ := h.completed
      refine iff_of_true ⟨String.ofList ext, isEncoding_iff.2 ⟨t, by simpa using ht⟩⟩ ?_
      cases h.place with
      | ended => exact .inl rfl
      | length => exact .inr ⟨rfl, by simp [byteLength_eq]⟩
    · refine iff_of_false ?_ ?_
      · rintro ⟨ext, hext⟩
        obtain ⟨t, ht⟩ := isEncoding_iff.1 hext
        exact h.not_completed hne ext.toList (by simpa using ht)
      · rintro (e | ⟨-, e⟩)
        · obtain rfl : f = .unexpectedEnd := e
          cases h.place
          exact hne rfl
        · exact absurd e (byteLength_lt hne).ne

namespace Shape

/-- **Decoding errors are precise.** In front of the offset stands the beginning of an encoding, the
fault says what is wrong behind it, and no encoding is the beginning of another. -/
theorem decode_error_tells (s : String) :
    (∀ e, decode s = .error e → ∃ pre rest, s = pre ++ rest ∧ e.Tells pre rest) ∧
      ∀ ext, IsEncoding s → IsEncoding (s ++ ext) → ext = "" := by
  constructor
  · intro e h
    obtain ⟨pre, rest, hs, hoffset, hfault⟩ := decodeChars_eq_error h
    refine ⟨String.ofList pre, String.ofList rest, ?_, ?_⟩
    · rw [← String.ofList_append, ← hs, String.ofList_toList]
    obtain ⟨offset, fault⟩ := e
    obtain rfl : offset = byteLength pre := hoffset
    rcases hfault with ⟨e', hne, t, ht⟩ | hbreaks
    · obtain rfl : fault = .trailingInput := e'
      exact tells_of_denotes ht hne
    · exact tells_of_breaks hbreaks
  · -- both texts are read alike, up to where the first ends
    intro ext hs hext
    obtain ⟨t, ht⟩ := isEncoding_iff.1 hs
    obtain ⟨u, hu⟩ := isEncoding_iff.1 hext
    rw [String.toList_append] at hu
    exact String.toList_eq_nil_iff.1 (ht.eq_nil_of_append hu)

/-- The element of an array is missing, behind a tag of two bytes. -/
theorem decode_error_tells_two_byte_tag :
    decode "\x7bé=[4x" = .error ⟨6, .unexpectedChar 'x'⟩ ∧
      ∃ pre rest, "\x7bé=[4x" = pre ++ rest ∧
        DecodeError.Tells ⟨6, .unexpectedChar 'x'⟩ pre rest :=
  have h : decode "\x7bé=[4x" = .error ⟨6, .unexpectedChar 'x'⟩ := by decide +kernel
  ⟨h, (decode_error_tells _).1 _ h⟩

-- a length that is too great cannot be mended by more digits, and its fault is not at the end
example : decode "[4294967296" = .error ⟨1, .badArrayLength⟩ := by decide +kernel

end Shape

end Bindery
