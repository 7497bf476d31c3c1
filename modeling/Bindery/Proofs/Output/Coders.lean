import Bindery.Proofs.Output.ScanOrder

/-!
# The coders of types and the table of coders

The mapping names the coder of each type on its own, and the table is made from all types of the
registry at once. They meet in the text of the names only. Here it is shown that they fit: the
coders that types refer to are the fields of the table.

* `Binding.field_coderNaming_inj` : different pairs of primitives have different fields;
* `Binding.Mapping.coder_target_eq_iff` : the coders in the table are those of mixed types;
* `MixedCoder.nodup_fields` : no two fields of a table have one name;
* `Session.coders_of_types` is the main result.
-/

namespace Bindery

/-! ### The names of coders -/

namespace Binding

theorem stem_injective : Function.Injective stem := by
  intro p q h
  cases p <;> cases q <;> first | rfl | (revert h; decide)

theorem underscore_notMem_stem (p : Primitive) : '_' ∉ (stem p).toList := by
  cases p <;> decide

/-- The field of a pair can be taken apart at its underscore, as there is no other one. -/
theorem field_coderNaming_inj {runtime : String} {p q p' q' : Primitive} :
    (coderNaming runtime).field p q = (coderNaming runtime).field p' q' ↔ p = p' ∧ q = q' := by
  refine ⟨fun h => ?_, ?_⟩
  · have hchars : (stem p).toList ++ '_' :: (stem q).toList =
        (stem p').toList ++ '_' :: (stem q').toList := by
      simpa [coderNaming, String.toList_append] using congrArg String.toList h
    obtain ⟨hp, -, hq⟩ := (List.append_cons_inj_of_notMem (underscore_notMem_stem p)
      (underscore_notMem_stem q)).1 hchars
    exact ⟨stem_injective (String.toList_inj.1 hp), stem_injective (String.toList_inj.1 hq)⟩
  · rintro ⟨rfl, rfl⟩
    rfl

/-- The classes of both kinds of coders have different names. -/
theorem primitiveCoder_ne_mixed (runtime field stem : String) :
    runtime ++ "." ++ "PrimitiveCoder" ++ "." ++ stem ≠
      CoderTable.qualifiedName runtime ++ "." ++ field := by
  intro h
  simp only [CoderTable.qualifiedName, CoderTable.className, String.append_assoc,
    String.append_right_inj] at h
  have hhead := congrArg (fun s => s.toList.head?) h
  simp [String.toList_append] at hhead

namespace Mapping

variable {m : Mapping} {t : NativeType} {p q : Primitive} {field : String}

theorem coder_target_of_mixed (h : t.mixed? = some (p, q)) :
    (m.target t).coder = some
      (CoderTable.qualifiedName m.runtime ++ "." ++ (coderNaming m.runtime).field p q) := by
  simp only [target, h]

/-- A type that is not mixed has no coder, or one of the runtime. -/
theorem coder_target_of_not_mixed (h : t.mixed? = none) :
    (m.target t).coder = none ∨
      ∃ p, (m.target t).coder = some (m.runtimeClass "PrimitiveCoder" ++ "." ++ stem p) := by
  simp only [target, h]
  split_ifs
  · exact .inl rfl
  · cases t.shape64 with
    | primitive p => exact .inr ⟨p, rfl⟩
    | composite k tag ms =>
      left
      simp only [ofShape]
      cases wrapperName? t <;> rfl
    | void | pointer | array | object | classRef | selector => exact .inl rfl

/-- The coders that lie in the table are those of mixed types. -/
theorem coder_target_eq_iff :
    (m.target t).coder = some (CoderTable.qualifiedName m.runtime ++ "." ++ field) ↔
      ∃ p q, t.mixed? = some (p, q) ∧ (coderNaming m.runtime).field p q = field := by
  cases h : t.mixed? with
  | none =>
    refine iff_of_false (fun hc => ?_) (by simp)
    rcases coder_target_of_not_mixed (m := m) h with hn | ⟨p, hp⟩
    · rw [hn] at hc
      cases hc
    · rw [hp] at hc
      exact primitiveCoder_ne_mixed _ _ _ (Option.some.inj hc)
  | some pq =>
    obtain ⟨p, q⟩ := pq
    rw [coder_target_of_mixed h, Option.some_inj, String.append_right_inj]
    constructor
    · exact fun e => ⟨p, q, rfl, e⟩
    · rintro ⟨p', q', ⟨⟩, e⟩
      exact e

end Mapping

end Binding

/-! ### The fields of a table -/

namespace MixedCoder

variable {naming : CoderNaming} {types : List NativeType}

theorem mem_group {c : MixedCoder} :
    c ∈ group naming types ↔
      ∃ t ∈ types, ∃ p q, t.mixed? = some (p, q) ∧ ofPair naming types (p, q) = c := by
  rw [group_eq, List.mem_map]
  constructor
  · rintro ⟨⟨p, q⟩, hk, rfl⟩
    obtain ⟨t, ht, hm⟩ := mem_pairs.1 hk
    exact ⟨t, ht, p, q, hm, rfl⟩
  · rintro ⟨t, ht, p, q, hm, rfl⟩
    exact ⟨(p, q), mem_pairs.2 ⟨t, ht, hm⟩, rfl⟩

/-- If different pairs have different fields, so have all coders. -/
theorem nodup_fields (h : ∀ p q p' q', naming.field p q = naming.field p' q' → p = p' ∧ q = q') :
    ((group naming types).map field).Nodup := by
  rw [group_eq, List.map_map]
  refine List.Nodup.map ?_ (nodup_firstSeen id _)
  rintro ⟨p, q⟩ ⟨p', q'⟩ e
  obtain ⟨rfl, rfl⟩ := h p q p' q' e
  rfl

end MixedCoder

namespace Output

variable {o : Output} {m : Binding.Mapping}

theorem nodup_fields (o : Output) : (o.coderTable.coders.map MixedCoder.field).Nodup :=
  MixedCoder.nodup_fields fun _ _ _ _ => Binding.field_coderNaming_inj.1

/-- The coder of a mixed type is in the table. -/
theorem mem_coderTable_of_mixed {i : Instance} (hi : i ∈ o.registry.pool) {p q : Primitive}
    (h : i.type.mixed? = some (p, q)) :
    MixedCoder.ofPair (Binding.coderNaming o.runtime) (o.registry.pool.map Instance.type) (p, q) ∈
      o.coderTable.coders :=
  MixedCoder.mem_group.2 ⟨i.type, List.mem_map_of_mem hi, p, q, h, rfl⟩

/-- A coder is the one with its field. -/
theorem eq_of_field_eq {c c' : MixedCoder} (hc : c ∈ o.coderTable.coders)
    (hc' : c' ∈ o.coderTable.coders) (h : c.field = c'.field) : c = c' :=
  List.inj_on_of_nodup_map o.nodup_fields hc hc' h

/-- The table is the last artifact. -/
theorem getLast?_artifacts {as : List Artifact} (h : o.artifacts = .ok as) :
    as.getLast? = some (.coders o.coderTable) := by
  rw [artifacts_eq] at h
  cases hf : o.copies.map (fun as => as ++ o.wrappers.map .generated ++ [.generated o.index]) with
  | error e =>
    rw [hf] at h
    cases h
  | ok first =>
    rw [hf] at h
    cases h
    exact List.getLast?_concat

end Output

namespace Session

/-- **Types and the table of coders fit.** A client makes any moves with a new registry, and all its
questions go to one mapping. Then the mapping resolves all types, and for the output with the
mapping's runtime:

* the table is the last artifact, and no two of its fields have one name;
* a type whose coder lies in the table is a different primitive on each binary interface; the table
  has the field exactly once, and defines it by the letters of these two primitives;
* each field of the table is the coder of a type. -/
theorem coders_of_types (moves : List Move) (m : Binding.Mapping) (manifest : Manifest)
    (base : Path) (h : (Transcript.run moves).session.instances.AskedOnly m) :
    let s := (Transcript.run moves).session
    let o := s.output m manifest base m.runtime
    let coder (field : String) := Binding.CoderTable.qualifiedName m.runtime ++ "." ++ field
    (s.registry.resolveAll s.instances m.resolver).1 = .ok o.registry.pool.length ∧
    (∀ i ∈ o.registry.pool, o.instances.target? i = some (m.target i.type)) ∧
    (∀ as, o.artifacts = .ok as → as.getLast? = some (.coders o.coderTable)) ∧
    (o.coderTable.coders.map MixedCoder.field).Nodup ∧
    (∀ i ∈ o.registry.pool, ∀ t field, o.instances.target? i = some t →
      t.coder = some (coder field) →
        ∃ p q, i.type.shape32 = .primitive p ∧ i.type.shape64 = .primitive q ∧ p ≠ q ∧
          (o.coderTable.coders.map MixedCoder.field).count field = 1 ∧
          ∀ c ∈ o.coderTable.coders, c.field = field → c.definition =
            "new " ++ m.runtime ++ ".PrimitiveCoder.Mixed('" ++ p.code ++ "', '" ++ q.code ++
              "')") ∧
    ∀ c ∈ o.coderTable.coders, ∃ i ∈ o.registry.pool, ∃ t,
      o.instances.target? i = some t ∧ t.coder = some (coder c.field) := by
  intro s o coder
  have hs : s.Sound := (Transcript.sound_run moves).session
  obtain ⟨hdone, htargets⟩ := resolveAll_of_mapped hs (Transcript.mapped_run h)
  refine ⟨hdone, htargets, fun as => Output.getLast?_artifacts, o.nodup_fields, ?_, ?_⟩
  · intro i hi t field ht hc
    obtain rfl : m.target i.type = t := Option.some.inj ((htargets i hi).symm.trans ht)
    obtain ⟨p, q, hmixed, rfl⟩ := Binding.Mapping.coder_target_eq_iff.1 hc
    obtain ⟨h32, h64, hne⟩ := i.type.mixed?_eq_some_iff.1 hmixed
    have hmem := Output.mem_coderTable_of_mixed (o := o) hi hmixed
    refine ⟨p, q, h32, h64, hne, ?_, fun c hcoder hfield => ?_⟩
    · exact List.count_eq_one_of_mem o.nodup_fields (List.mem_map_of_mem hmem)
    · rw [Output.eq_of_field_eq hcoder hmem hfield]
      rfl
  · intro c hc
    obtain ⟨t, ht, p, q, hmixed, rfl⟩ := MixedCoder.mem_group.1 hc
    obtain ⟨i, hi, rfl⟩ := List.mem_map.1 ht
    exact ⟨i, hi, _, htargets i hi, Binding.Mapping.coder_target_of_mixed hmixed⟩

/-- Two mixed types of one pair, one of them with a target before the registry is resolved. -/
theorem coders_of_types_nsinteger :
    let a : NativeType := .make (some (.ofDeclared "NSInteger")) (.primitive .int)
      (some (.primitive .longLong))
    let b : NativeType := .make (some (.ofDeclared "CFIndex")) (.primitive .int)
      (some (.primitive .longLong))
    let m : Binding.Mapping := ⟨"runtime", "wrappers"⟩
    let moves : List Move :=
      [.call (.declare "NSInteger" (.primitive .int) (some (.primitive .longLong))),
        .ask m.resolver ⟨2, a⟩, .call (.intern ⟨2, a⟩),
        .call (.declare "CFIndex" (.primitive .int) (some (.primitive .longLong))),
        .call (.adopt ⟨4, b⟩)]
    let s := (Transcript.run moves).session
    let o := s.output m ⟨none, [], []⟩ .empty m.runtime
    s.instances.AskedOnly m ∧ (o.coderTable.coders.map MixedCoder.field).Nodup ∧
      (∀ c ∈ o.coderTable.coders, ∃ i ∈ o.registry.pool, ∃ t,
        o.instances.target? i = some t ∧
          t.coder = some (Binding.CoderTable.qualifiedName m.runtime ++ "." ++ c.field)) ∧
      o.coderTable.coders.map MixedCoder.field = ["SINT_SLONGLONG"] := by
  intro a b m moves s o
  have hasked : s.instances.AskedOnly m := by decide +kernel
  obtain ⟨-, -, -, hnodup, -, htable⟩ := coders_of_types moves m ⟨none, [], []⟩ .empty hasked
  exact ⟨hasked, hnodup, htable, by decide +kernel⟩

end Session

end Bindery
