import Bindery.Proofs.Shape.Erasure
import Bindery.Proofs.Shape.Spelling
import Mathlib.Data.List.Induction
import Mathlib.Tactic.TFAE

/-!
# Printing and reading

A shape is printed as a type encoding, and read from one. Not every shape survives this: a tag with
a `=` in it would be cut there. Those that do are exactly those that can be read at all.

* `Shape.Printable` : no tag and no member name holds a character that would end it;
* `Spells.printable` : what a text spells is printable;
* `Shape.Printable.spells` : the encoding of a printable shape spells it;
* `Normalizes` says what may differ between a text and the encoding of the shape that it spells,
  and `Spells.normalizes` that nothing else does;
* `Shape.print_read` : the round trip.
-/

namespace Bindery

mutual

/-- Each tag and each member name can be read back from where it is written. -/
def Shape.Printable : Shape → Prop
  | .pointer t => t.Printable
  | .composite k tag ms =>
    (∀ s ∈ tag, s ≠ "" ∧ s ≠ "?" ∧ '=' ∉ s.toList ∧ k.closing ∉ s.toList) ∧ ms.Printable
  | .array _ t => t.Printable
  | .void | .primitive _ | .object | .classRef | .selector => True

/-- The same for the names and shapes of some members. -/
def Members.Printable : Members → Prop
  | .nil => True
  | .cons name t ms => (∀ s ∈ name, '"' ∉ s.toList) ∧ t.Printable ∧ ms.Printable

end

/-! ### Tags -/

theorem isTagChar_eq_true_iff {k : CompositeKind} {c : Char} :
    isTagChar k c = true ↔ c ≠ '=' ∧ c ≠ k.closing := by
  simp [isTagChar]

theorem printable_tagOfChars {k : CompositeKind} {tag : List Char}
    (htag : ∀ c ∈ tag, isTagChar k c = true) :
    ∀ s ∈ tagOfChars tag, s ≠ "" ∧ s ≠ "?" ∧ '=' ∉ s.toList ∧ k.closing ∉ s.toList := by
  intro s hs
  unfold tagOfChars at hs
  split_ifs at hs with h
  · cases hs
  · obtain rfl : String.ofList tag = s := Option.some.inj hs
    obtain ⟨hne, hq⟩ := not_or.1 h
    simp only [String.toList_ofList]
    refine ⟨fun e => hne ?_, fun e => hq ?_, fun he => ?_, fun hc => ?_⟩
    · simpa using congrArg String.toList e
    · simpa using congrArg String.toList e
    · exact (isTagChar_eq_true_iff.1 (htag _ he)).1 rfl
    · exact (isTagChar_eq_true_iff.1 (htag _ hc)).2 rfl

theorem isTagChar_of_mem_tagChars {k : CompositeKind} {tag : Option String}
    (h : ∀ s ∈ tag, '=' ∉ s.toList ∧ k.closing ∉ s.toList) :
    ∀ c ∈ tagChars tag, isTagChar k c = true := by
  intro c hc
  rw [isTagChar_eq_true_iff]
  cases tag with
  | none =>
    obtain rfl : c = '?' := by simpa [tagChars] using hc
    cases k <;> decide
  | some s =>
    obtain ⟨he, hk⟩ := h s rfl
    exact ⟨fun e => he (e ▸ hc), fun e => hk (e ▸ hc)⟩

theorem tagOfChars_tagChars {tag : Option String} (h : ∀ s ∈ tag, s ≠ "" ∧ s ≠ "?") :
    tagOfChars (tagChars tag) = tag := by
  cases tag with
  | none => rfl
  | some s =>
    obtain ⟨hne, hq⟩ := h s rfl
    have hq' : s.toList ≠ ['?'] := fun e => hq (String.toList_inj.1 e)
    simp [tagOfChars, tagChars, hne, hq']

/-! ### Lengths -/

theorem isDigit_of_mem_toDigits {n : Nat} : ∀ d ∈ Nat.toDigits 10 n, d.isDigit = true :=
  fun _ hd => Nat.isDigit_of_mem_toDigits (by decide) (by decide) hd

theorem toDigits_of_isDigit {d : Char} (h : d.isDigit = true) :
    d.toNat - '0'.toNat < 10 ∧ Nat.toDigits 10 (d.toNat - '0'.toNat) = [d] := by
  have hrange : '0'.toNat ≤ d.toNat ∧ d.toNat ≤ '9'.toNat := Char.isDigit_iff_toNat.1 h
  simp only [Char.reduceToNat] at hrange ⊢
  have hlt : d.toNat - 48 < 10 := by omega
  refine ⟨hlt, ?_⟩
  rw [Nat.toDigits_of_lt_base hlt]
  congr 1
  apply Char.toNat_inj.1
  rw [Nat.toNat_digitChar_of_lt_ten hlt]
  omega

/-- Digits are the decimal digits of their value, with some zeros in front. -/
theorem exists_replicate_zero {ds : List Char} (hne : ds ≠ [])
    (hds : ∀ d ∈ ds, d.isDigit = true) :
    ∃ z, ds = List.replicate z '0' ++ Nat.toDigits 10 (Nat.ofDigitChars 10 ds 0) := by
  induction ds using List.reverseRecOn with
  | nil => exact absurd rfl hne
  | append_singleton ds d ih =>
    obtain ⟨hlt, hd⟩ := toDigits_of_isDigit (hds d (by simp))
    rw [Nat.ofDigitChars_append, Nat.ofDigitChars_cons, Nat.ofDigitChars_nil]
    rcases eq_or_ne ds [] with rfl | hne'
    · exact ⟨0, by simpa using hd.symm⟩
    · obtain ⟨z, hz⟩ := ih hne' fun c hc => hds c (by simp [hc])
      rcases Nat.eq_zero_or_pos (Nat.ofDigitChars 10 ds 0) with h0 | hpos
      · -- only zeros so far, so they all stand in front of the last digit
        rw [h0, Nat.toDigits_zero] at hz
        refine ⟨z + 1, ?_⟩
        rw [h0, Nat.mul_zero, Nat.zero_add, hd, hz, List.replicate_succ']
      · refine ⟨z, ?_⟩
        rw [← Nat.toDigits_append_toDigits (by decide) hpos hlt, hd, ← List.append_assoc, ← hz]

/-! ### Spellings and printable shapes -/

mutual

theorem Spells.printable {t : Shape} {cs rest : List Char} (h : Spells t cs rest) :
    t.Printable := by
  match h with
  | .qualified _ ht => exact ht.printable
  | .void | .object | .classRef | .selector | .primitive => trivial
  | .pointer ht => exact ht.printable
  | .array _ _ _ ht => exact ht.printable
  | .bare htag => exact ⟨printable_tagOfChars htag, trivial⟩
  | .composite htag hms => exact ⟨printable_tagOfChars htag, hms.printable⟩

theorem SpellsMembers.printable {ms : Members} {cs rest : List Char}
    (h : SpellsMembers ms cs rest) : ms.Printable := by
  match h with
  | .nil => trivial
  | .cons hname ht hms => exact ⟨hname, ht.printable, hms.printable⟩

end

mutual

/-- The encoding of a printable shape spells it, whatever text follows. -/
theorem Shape.Printable.spells {t : Shape} (h : t.Printable) (rest : List Char) :
    Spells t (t.encodeOnto rest) rest := by
  match t, h with
  | .void, _ => exact .void
  | .object, _ => exact .object
  | .classRef, _ => exact .classRef
  | .selector, _ => exact .selector
  | .primitive _, _ => exact .primitive
  | .pointer t, h => exact .pointer (Shape.Printable.spells (t := t) h rest)
  | .array n t, h =>
    exact .array Nat.toDigits_ne_nil isDigit_of_mem_toDigits Nat.ofDigitChars_ten_toDigits
      (Shape.Printable.spells (t := t) h (']' :: rest))
  | .composite k tag ms, ⟨htag, hms⟩ =>
    -- the tag as written is read up to its end, and as the same tag
    have hchars := isTagChar_of_mem_tagChars fun s hs => (htag s hs).2.2
    have hread := tagOfChars_tagChars fun s hs => ⟨(htag s hs).1, (htag s hs).2.1⟩
    have hspells := Members.Printable.spells hms (k.closing :: rest)
    cases ms with
    | nil =>
      have hbare : Spells (.composite k (tagOfChars (tagChars tag)) .nil)
          (k.opening :: (tagChars tag ++ k.closing :: rest)) rest := .bare hchars
      rwa [hread] at hbare
    | cons name t ms =>
      have hmembers := Spells.composite hchars hspells
      rwa [hread] at hmembers

theorem Members.Printable.spells {ms : Members} (h : ms.Printable) (rest : List Char) :
    SpellsMembers ms (ms.encodeOnto rest) rest := by
  match ms, h with
  | .nil, _ => exact .nil
  | .cons name t ms, ⟨hname, ht, hms⟩ =>
    exact .cons hname (Shape.Printable.spells ht _) (Members.Printable.spells hms rest)

end

/-! ### Normal spellings -/

/-- An empty tag is written `?`. -/
def shownTag (tag : List Char) : List Char := if tag = [] then ['?'] else tag

mutual

/-- The type in front of `rest` in one text is the one in front of `rest'` in another, except that
there it has no qualifiers, no zeros in front of its lengths, `?` for empty tags, and no `=` in
front of no members. -/
inductive Normalizes : List Char → List Char → List Char → List Char → Prop where
  | qualified {c : Char} {cs rest cs' rest' : List Char} (hc : isQualifier c = true)
      (h : Normalizes cs rest cs' rest') : Normalizes (c :: cs) rest cs' rest'
  | letter {c : Char} {rest rest' : List Char} : Normalizes (c :: rest) rest (c :: rest') rest'
  | pointer {cs rest cs' rest' : List Char} (h : Normalizes cs rest cs' rest') :
      Normalizes ('^' :: cs) rest ('^' :: cs') rest'
  | array {z : Nat} {ds cs rest cs' rest' : List Char} (hne : ds ≠ [])
      (hds : ∀ d ∈ ds, d.isDigit = true) (h : Normalizes cs (']' :: rest) cs' (']' :: rest')) :
      Normalizes ('[' :: (List.replicate z '0' ++ ds ++ cs)) rest ('[' :: (ds ++ cs')) rest'
  | bare {k : CompositeKind} {tag rest rest' : List Char}
      (htag : ∀ c ∈ tag, isTagChar k c = true) :
      Normalizes (k.opening :: (tag ++ k.closing :: rest)) rest
        (k.opening :: (shownTag tag ++ k.closing :: rest')) rest'
  | empty {k : CompositeKind} {tag rest rest' : List Char}
      (htag : ∀ c ∈ tag, isTagChar k c = true) :
      Normalizes (k.opening :: (tag ++ '=' :: k.closing :: rest)) rest
        (k.opening :: (shownTag tag ++ k.closing :: rest')) rest'
  | composite {k : CompositeKind} {tag cs rest cs' rest' : List Char}
      (htag : ∀ c ∈ tag, isTagChar k c = true)
      (h : NormalizesMembers cs (k.closing :: rest) cs' (k.closing :: rest')) :
      Normalizes (k.opening :: (tag ++ '=' :: cs)) rest
        (k.opening :: (shownTag tag ++ '=' :: cs')) rest'

/-- The same for members, with their names as they are. -/
inductive NormalizesMembers : List Char → List Char → List Char → List Char → Prop where
  | nil {rest rest' : List Char} : NormalizesMembers rest rest rest' rest'
  | cons {name : Option String} {cs cs₁ rest cs' cs₁' rest' : List Char}
      (h : Normalizes cs cs₁ cs' cs₁') (hms : NormalizesMembers cs₁ rest cs₁' rest') :
      NormalizesMembers (memberNameChars name ++ cs) rest (memberNameChars name ++ cs') rest'

end

theorem tagChars_tagOfChars (tag : List Char) : tagChars (tagOfChars tag) = shownTag tag := by
  unfold tagOfChars shownTag
  by_cases h : tag = []
  · simp [h, tagChars]
  · by_cases hq : tag = ['?'] <;> simp [h, hq, tagChars]

mutual

/-- A spelling of a shape and its encoding differ only in how a spelling may differ. -/
theorem Spells.normalizes {t : Shape} {cs rest : List Char} (h : Spells t cs rest)
    (rest' : List Char) : Normalizes cs rest (t.encodeOnto rest') rest' := by
  match t, h with
  | _, .qualified hc ht => exact .qualified hc (ht.normalizes rest')
  | _, .void | _, .object | _, .classRef | _, .selector | _, .primitive => exact .letter
  | _, .pointer ht => exact .pointer (ht.normalizes rest')
  | .array n t, .array hne hds hn ht =>
    obtain ⟨z, hz⟩ := exists_replicate_zero hne hds
    rw [hn] at hz
    rw [hz]
    exact .array Nat.toDigits_ne_nil isDigit_of_mem_toDigits (ht.normalizes (']' :: rest'))
  | .composite k _ _, .bare htag =>
    rw [Shape.encodeOnto, tagChars_tagOfChars]
    exact .bare htag
  | .composite k _ ms, .composite htag hms =>
    have hn := hms.normalizes (k.closing :: rest')
    rw [Shape.encodeOnto, tagChars_tagOfChars]
    -- a `=` in front of no members is not printed
    cases hms with
    | nil => exact .empty htag
    | cons hname ht hms => exact .composite htag hn

theorem SpellsMembers.normalizes {ms : Members} {cs rest : List Char}
    (h : SpellsMembers ms cs rest) (rest' : List Char) :
    NormalizesMembers cs rest (ms.encodeOnto rest') rest' := by
  match h with
  | .nil => exact .nil
  | .cons _ ht hms => exact .cons (ht.normalizes _) (hms.normalizes rest')

end

/-! ### Merged shapes -/

mutual

theorem Shape.Printable.overlay {a b : Shape} (ha : a.Printable) (hb : b.Printable)
    (h : a.erase = b.erase) : (a.overlay b).Printable := by
  match a, b, h with
  | .pointer x, .pointer y, h =>
    exact Shape.Printable.overlay (a := x) (b := y) ha hb (Shape.pointer.inj h)
  | .array _ x, .array _ y, h =>
    exact Shape.Printable.overlay (a := x) (b := y) ha hb (Shape.array.inj h).2
  | .composite k s xs, .composite l t ys, h =>
    obtain ⟨rfl, -, hms⟩ := Shape.composite.inj h
    -- the tag is that of one of the two, and both end at the same characters
    refine ⟨fun u hu => ?_, Members.Printable.overlay ha.2 hb.2 hms⟩
    rcases Option.or_eq_some_iff.1 hu with hs | ⟨-, ht⟩
    · exact ha.1 u hs
    · exact hb.1 u ht
  | .void, _, _ | .primitive _, _, _ | .object, _, _ | .classRef, _, _ | .selector, _, _ =>
    simpa [Shape.overlay] using ha

theorem Members.Printable.overlay {xs ys : Members} (hx : xs.Printable) (hy : ys.Printable)
    (h : xs.erase = ys.erase) : (xs.overlay ys).Printable := by
  match xs, ys, h with
  | .nil, _, _ => simpa [Members.overlay] using hx
  | .cons name x xs, .cons _ y ys, h =>
    obtain ⟨-, ht, hms⟩ := Members.cons.inj h
    exact ⟨hx.1, Shape.Printable.overlay hx.2.1 hy.2.1 ht,
      Members.Printable.overlay hx.2.2 hy.2.2 hms⟩

end

/-! ### The round trip -/

namespace Shape

theorem Printable.decode_encode {t : Shape} (h : t.Printable) : decode t.encode = .ok t := by
  rw [decode, toList_encode]
  exact decodeChars_of_spells (h.spells [])

theorem printable_of_decode {s : String} {t : Shape} (h : decode s = .ok t) : t.Printable :=
  (spells_of_decodeChars h).printable

theorem Printable.merge {a b c : Shape} (ha : a.Printable) (hb : b.Printable)
    (h : a.merge b = .ok c) : c.Printable := by
  obtain ⟨he, rfl⟩ := (a.merge_eq_ok_iff b).1 h
  exact ha.overlay hb he

/-- **The round trip.** A shape is printable exactly when its encoding is read as that shape, and
exactly when some text is. So a text that is read can be printed and read again; what was printed
differs from it only in the normal spelling. And what two printable shapes merge into is
printable. -/
theorem print_read :
    (∀ t : Shape, [t.Printable, decode t.encode = .ok t, ∃ s, decode s = .ok t].TFAE) ∧
      (∀ (s : String) (t : Shape), decode s = .ok t →
        decode t.encode = .ok t ∧ Normalizes s.toList [] t.encode.toList []) ∧
      ∀ a b c : Shape, a.Printable → b.Printable → a.merge b = .ok c → c.Printable := by
  refine ⟨fun t => ?_, fun s t h => ⟨?_, ?_⟩, fun a b c ha hb h => ha.merge hb h⟩
  · tfae_have 1 → 2 := Printable.decode_encode
    tfae_have 2 → 3 := fun h => ⟨_, h⟩
    tfae_have 3 → 1 := fun ⟨_, h⟩ => printable_of_decode h
    tfae_finish
  · exact (printable_of_decode h).decode_encode
  · rw [toList_encode]
    exact (spells_of_decodeChars h).normalizes []

example : (decode "rn[004\x7b=i^v\x7d]").map encode = .ok "[4\x7b?=i^v\x7d]" := by
  decide +kernel

end Shape

end Bindery
