import Bindery.Proofs.Shape.RoundTrip
import Mathlib.Algebra.Group.Nat.Defs

/-!
# The grammar of type encodings

`Grammar.Denotes cs t` holds when the rules of the grammar make the whole text `cs` a type that
stands for `t`. The rules put texts together and spell out every character that they ask for. They
know no order of reading: where a run of qualifiers, digits or characters of a name ends is left
open.

* `Grammar.Denotes`, `Grammar.DenotesMembers` : the rules;
* `Grammar.Denotes.spells`, `Spells.denotes` : what denotes a shape spells it in front of any text,
  and the part of a text that spells a shape denotes it;
* `Shape.decode_eq_ok_iff_denotes` : a text is read as a shape exactly when it denotes the shape.
-/

namespace Bindery

namespace Grammar

/-! ### Characters and names -/

/-- What may stand in front of a type any number of times. -/
def qualifiers : List Char := ['r', 'n', 'N', 'o', 'O', 'R', 'V']

/-- The types of one character. -/
def letters : List (Char × Shape) :=
  [('c', .primitive .char), ('C', .primitive .uchar), ('s', .primitive .short),
    ('S', .primitive .ushort), ('i', .primitive .int), ('I', .primitive .uint),
    ('l', .primitive .long), ('L', .primitive .ulong), ('q', .primitive .longLong),
    ('Q', .primitive .ulongLong), ('f', .primitive .float), ('d', .primitive .double),
    ('B', .primitive .bool), ('v', .void), ('@', .object), ('#', .classRef), (':', .selector)]

/-- The characters that open and close a composite. -/
inductive Brackets : CompositeKind → Char → Char → Prop where
  | struct : Brackets .struct '{' '}'
  | union : Brackets .union '(' ')'

/-- The tag that a composite has when a text stands for its name. -/
inductive Tag : List Char → Option String → Prop where
  | empty : Tag [] none
  | anonymous : Tag ['?'] none
  | named {s : String} (hne : s ≠ "") (hq : s ≠ "?") : Tag s.toList (some s)

/-- What may stand in front of the type of a member, and the name that the member has then. -/
inductive MemberName : List Char → Option String → Prop where
  | absent : MemberName [] none
  | quoted {s : String} (h : '"' ∉ s.toList) : MemberName ('"' :: (s.toList ++ ['"'])) (some s)

/-! ### The rules -/

mutual

/-- The text is a type, and stands for the shape. -/
inductive Denotes : List Char → Shape → Prop where
  | qualified {q : Char} {cs : List Char} {t : Shape} (hq : q ∈ qualifiers) (ht : Denotes cs t) :
      Denotes (q :: cs) t
  | letter {c : Char} {t : Shape} (h : (c, t) ∈ letters) : Denotes [c] t
  | pointer {cs : List Char} {t : Shape} (ht : Denotes cs t) : Denotes ('^' :: cs) (.pointer t)
  | array {ds cs : List Char} {t : Shape} (hne : ds ≠ []) (hds : ∀ d ∈ ds, d.isDigit = true)
      (hlt : Nat.ofDigitChars 10 ds 0 < 2 ^ 32) (ht : Denotes cs t) :
      Denotes ('[' :: (ds ++ cs ++ [']'])) (.array (.ofNat (Nat.ofDigitChars 10 ds 0)) t)
  | bare {k : CompositeKind} {o c : Char} {name : List Char} {tag : Option String}
      (hk : Brackets k o c) (hname : ∀ x ∈ name, x ≠ '=' ∧ x ≠ c) (htag : Tag name tag) :
      Denotes (o :: (name ++ [c])) (.composite k tag .nil)
  | composite {k : CompositeKind} {o c : Char} {name cs : List Char} {tag : Option String}
      {ms : Members} (hk : Brackets k o c) (hname : ∀ x ∈ name, x ≠ '=' ∧ x ≠ c)
      (htag : Tag name tag) (hms : DenotesMembers cs ms) :
      Denotes (o :: (name ++ '=' :: (cs ++ [c]))) (.composite k tag ms)

/-- The text is a sequence of members, and stands for them. -/
inductive DenotesMembers : List Char → Members → Prop where
  | nil : DenotesMembers [] .nil
  | cons {n cs cs' : List Char} {name : Option String} {t : Shape} {ms : Members}
      (hname : MemberName n name) (ht : Denotes cs t) (hms : DenotesMembers cs' ms) :
      DenotesMembers (n ++ cs ++ cs') (.cons name t ms)

end

/-! ### Characters and names as they are read -/

theorem isQualifier_iff {c : Char} : isQualifier c = true ↔ c ∈ qualifiers := by
  simp [isQualifier, qualifiers]

theorem letter_mem_letters (p : Primitive) : (p.letter, Shape.primitive p) ∈ letters := by
  cases p <;> simp [letters, Primitive.letter]

theorem spells_of_mem_letters {c : Char} {t : Shape} (h : (c, t) ∈ letters) (rest : List Char) :
    Spells t (c :: rest) rest := by
  have all : ∀ e ∈ letters, Spells e.2 (e.1 :: rest) rest := by
    simp only [letters, List.forall_mem_cons]
    exact ⟨.primitive, .primitive, .primitive, .primitive, .primitive, .primitive, .primitive,
      .primitive, .primitive, .primitive, .primitive, .primitive, .primitive, .void, .object,
      .classRef, .selector, by simp⟩
  exact all (c, t) h

theorem brackets_iff {k : CompositeKind} {o c : Char} :
    Brackets k o c ↔ o = k.opening ∧ c = k.closing := by
  constructor
  · rintro (_ | _) <;> exact ⟨rfl, rfl⟩
  · rintro ⟨rfl, rfl⟩
    cases k with
    | struct => exact .struct
    | union => exact .union

theorem tag_iff {cs : List Char} {tag : Option String} : Tag cs tag ↔ tagOfChars cs = tag := by
  constructor
  · intro h
    cases h with
    | empty => rfl
    | anonymous => rfl
    | @named s hne hq =>
      have hnamed : ∀ n ∈ some s, n ≠ "" ∧ n ≠ "?" := by simp [hne, hq]
      exact tagOfChars_tagChars hnamed
  · rintro rfl
    unfold tagOfChars
    split_ifs with h
    · rcases h with rfl | rfl
      · exact .empty
      · exact .anonymous
    · have hnamed : Tag (String.ofList cs).toList (some (String.ofList cs)) := by
        obtain ⟨hne, hq⟩ := not_or.1 h
        refine .named (fun e => hne ?_) fun e => hq ?_
        · simpa using congrArg String.toList e
        · simpa using congrArg String.toList e
      rwa [String.toList_ofList] at hnamed

theorem memberName_iff {n : List Char} {name : Option String} :
    MemberName n name ↔ n = memberNameChars name ∧ ∀ s ∈ name, '"' ∉ s.toList := by
  constructor
  · rintro (_ | h)
    · exact ⟨rfl, by simp⟩
    · exact ⟨rfl, by simpa using h⟩
  · rintro ⟨rfl, h⟩
    cases name with
    | none => exact .absent
    | some s => exact .quoted (h s rfl)

theorem isTagChar_of_brackets {k : CompositeKind} {o c x : Char} (hk : Brackets k o c) :
    isTagChar k x = true ↔ x ≠ '=' ∧ x ≠ c := by
  rw [isTagChar_eq_true_iff, (brackets_iff.1 hk).2]

/-! ### The rules with the parts as they are read -/

section

variable {k : CompositeKind} {n : UInt32} {ds cs tag : List Char} {t : Shape} {ms : Members}

theorem denotes_array (hne : ds ≠ []) (hds : ∀ d ∈ ds, d.isDigit = true)
    (hn : Nat.ofDigitChars 10 ds 0 = n.toNat) (ht : Denotes cs t) :
    Denotes ('[' :: (ds ++ cs ++ [']'])) (.array n t) := by
  have harray := Denotes.array hne hds (hn ▸ n.toNat_lt) ht
  rwa [hn, UInt32.ofNat_toNat] at harray

theorem denotes_bare (htag : ∀ c ∈ tag, isTagChar k c = true) :
    Denotes (k.opening :: (tag ++ [k.closing])) (.composite k (tagOfChars tag) .nil) := by
  have hk : Brackets k k.opening k.closing := brackets_iff.2 ⟨rfl, rfl⟩
  exact .bare hk (fun x hx => (isTagChar_of_brackets hk).1 (htag x hx)) (tag_iff.2 rfl)

theorem denotes_composite (htag : ∀ c ∈ tag, isTagChar k c = true) (hms : DenotesMembers cs ms) :
    Denotes (k.opening :: (tag ++ '=' :: (cs ++ [k.closing])))
      (.composite k (tagOfChars tag) ms) := by
  have hk : Brackets k k.opening k.closing := brackets_iff.2 ⟨rfl, rfl⟩
  exact .composite hk (fun x hx => (isTagChar_of_brackets hk).1 (htag x hx)) (tag_iff.2 rfl) hms

end

/-! ### What denotes a shape spells it -/

mutual

/-- What denotes a shape spells it, whatever text follows. -/
theorem Denotes.spells {cs : List Char} {t : Shape} (h : Denotes cs t) (rest : List Char) :
    Spells t (cs ++ rest) rest := by
  match h with
  | .qualified hq ht => exact .qualified (isQualifier_iff.2 hq) (ht.spells rest)
  | .letter h => exact spells_of_mem_letters h rest
  | .pointer ht => exact .pointer (ht.spells rest)
  | @Denotes.array ds cs _ hne hds hlt ht =>
    have hvalue : Nat.ofDigitChars 10 ds 0 = (UInt32.ofNat (Nat.ofDigitChars 10 ds 0)).toNat :=
      (UInt32.toNat_ofNat_of_lt hlt).symm
    have harray := Spells.array hne hds hvalue (ht.spells (']' :: rest))
    simpa only [List.cons_append, List.append_assoc, List.nil_append] using harray
  | .bare hk hname htag =>
    obtain ⟨rfl, rfl⟩ := brackets_iff.1 hk
    obtain rfl := tag_iff.1 htag
    have hbare : Spells _ _ rest :=
      .bare fun x hx => (isTagChar_of_brackets hk).2 (hname x hx)
    simpa only [List.cons_append, List.append_assoc, List.nil_append] using hbare
  | .composite hk hname htag hms =>
    obtain ⟨rfl, rfl⟩ := brackets_iff.1 hk
    obtain rfl := tag_iff.1 htag
    have hcomposite := Spells.composite (fun x hx => (isTagChar_of_brackets hk).2 (hname x hx))
      (hms.spells (_ :: rest))
    simpa only [List.cons_append, List.append_assoc, List.nil_append] using hcomposite

theorem DenotesMembers.spells {cs : List Char} {ms : Members} (h : DenotesMembers cs ms)
    (rest : List Char) : SpellsMembers ms (cs ++ rest) rest := by
  match h with
  | .nil => exact .nil
  | @DenotesMembers.cons _ _ cs' _ _ _ hname ht hms =>
    obtain ⟨rfl, hquote⟩ := memberName_iff.1 hname
    have hcons := SpellsMembers.cons hquote (ht.spells (cs' ++ rest)) (hms.spells rest)
    simpa only [List.append_assoc] using hcons

end

end Grammar

/-! ### What spells a shape denotes it -/

open Grammar

mutual

/-- The part of a text that spells a shape denotes it. -/
theorem Spells.denotes {t : Shape} {cs rest : List Char} (h : Spells t cs rest) :
    ∃ text, cs = text ++ rest ∧ Denotes text t := by
  match h with
  | .qualified hc ht =>
    obtain ⟨text, rfl, hd⟩ := ht.denotes
    exact ⟨_ :: text, rfl, .qualified (isQualifier_iff.1 hc) hd⟩
  | .void | .object | .classRef | .selector => exact ⟨[_], rfl, .letter (by simp [letters])⟩
  | .primitive (p := p) => exact ⟨[_], rfl, .letter (letter_mem_letters p)⟩
  | .pointer ht =>
    obtain ⟨text, rfl, hd⟩ := ht.denotes
    exact ⟨'^' :: text, rfl, .pointer hd⟩
  | .array hne hds hn ht =>
    obtain ⟨text, rfl, hd⟩ := ht.denotes
    exact ⟨_, by simp, denotes_array hne hds hn hd⟩
  | .bare htag => exact ⟨_, by simp, denotes_bare htag⟩
  | .composite htag hms =>
    obtain ⟨text, rfl, hd⟩ := hms.denotes
    exact ⟨_, by simp, denotes_composite htag hd⟩

theorem SpellsMembers.denotes {ms : Members} {cs rest : List Char}
    (h : SpellsMembers ms cs rest) : ∃ text, cs = text ++ rest ∧ DenotesMembers text ms := by
  match h with
  | .nil => exact ⟨[], rfl, .nil⟩
  | .cons hname ht hms =>
    obtain ⟨later, rfl, hlater⟩ := hms.denotes
    obtain ⟨text, rfl, hd⟩ := ht.denotes
    exact ⟨_, by simp, .cons (memberName_iff.2 ⟨rfl, hname⟩) hd hlater⟩

end

/-! ### Whole texts -/

namespace Shape

/-- **A text is read as a shape exactly when it denotes the shape** by the rules of the grammar. -/
theorem decode_eq_ok_iff_denotes (s : String) (t : Shape) :
    decode s = .ok t ↔ Denotes s.toList t := by
  constructor
  · intro h
    obtain ⟨text, e, hd⟩ := (spells_of_decodeChars h).denotes
    rw [List.append_nil] at e
    rwa [e]
  · intro h
    have hspells := h.spells []
    rw [List.append_nil] at hspells
    exact decodeChars_of_spells hspells

end Shape

end Bindery
