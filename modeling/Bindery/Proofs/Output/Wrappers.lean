import Bindery.Proofs.Binding.Literal
import Bindery.Proofs.Generate.Plan

/-!
# The wrappers of structs and unions

The mapping binds a struct or union to the wrapper class of its name, or else of its tag. Different
types may have one such name, and then the sorted order decides: the first type gets the class, and
the others are passed over, as are all types with the name of the index. The mapping does not take
part in this. A type with neither name nor tag gets the generic class, but one that is passed over
is still bound to the class of its name: to a wrapper with other constants, or to the index.

* `Binding.IsWrapperOf` says that a class is the wrapper of a type, with the type's own encodings,
  and `Binding.IsWrapperOf.iff_encode_eq` when it is the wrapper of another type as well;
* `Binding.filter_selectWrappers` : of the wrappers of one name the first is kept, if any;
* `Output.filter_artifacts` : so the artifacts have one class of a name at most;
* `Output.exists_wrapper_iff` : when a type has a wrapper of its own;
* `Plan.wrapper_of_type` is the main result, and `Plan.wrapper_of_type_shared` shows two types that
  are bound to classes which are not their own.
-/

namespace Bindery

namespace Binding

/-- The class is the wrapper of a type: it lies in the package, has the name of the type's wrapper
and the supertype of its kind, and starts with the encodings of the type. -/
structure IsWrapperOf (c : ClassFile) (t : NativeType) (package runtime : String) : Prop where
  package : c.header.package = package
  name : wrapperName? t = some c.header.name
  supertype : ∃ k tag ms, t.shape64 = .composite k tag ms ∧
    c.header.supertype = runtime ++ "." ++ genericName k
  encoding32 : c.lines[0]? = some (constantLine "ENCODING_32" t.shape32.encode)
  encoding64 : c.lines[1]? = some (constantLine "ENCODING_64" t.shape64.encode)

/-- A mapping sends the type to a struct or union, through a name of a wrapper class. -/
def Mapping.WrapsAs (m : Mapping) (t : NativeType) (name : String) : Prop :=
  wrapperName? t = some name ∧
    ((m.target t).kind = .struct ∨ (m.target t).kind = .union) ∧
    (m.target t).name = m.wrappers ++ "." ++ name

instance (m : Mapping) (t : NativeType) (name : String) : Decidable (m.WrapsAs t name) :=
  inferInstanceAs (Decidable (_ ∧ _ ∧ _))

variable {t u : NativeType} {package runtime name : String} {c : ClassFile} {cs : List ClassFile}

/-! ### One wrapper -/

theorem isWrapperOf_of_wrapper? (h : wrapper? t package runtime = some c) :
    IsWrapperOf c t package runtime := by
  unfold wrapper? at h
  split at h
  · next k tag ms name hshape hname =>
    cases h
    exact ⟨rfl, hname, ⟨k, tag, ms, hshape, rfl⟩, rfl, rfl⟩
  · cases h

theorem map_name_wrapper? (t : NativeType) (package runtime : String) :
    (wrapper? t package runtime).map (fun c => c.header.name) = wrapperName? t := by
  cases hs : t.shape64 with
  | composite k tag ms =>
    simp only [wrapper?, hs]
    cases wrapperName? t <;> rfl
  | void | primitive | pointer | array | object | classRef | selector =>
    simp [wrapper?, wrapperName?, hs]

theorem exists_composite_of_wrapperName? (h : wrapperName? t = some name) :
    ∃ k tag ms, t.shape64 = .composite k tag ms := by
  unfold wrapperName? at h
  split at h
  · exact ⟨_, _, _, ‹_›⟩
  · cases h

/-- Structs and unions are written differently. -/
theorem kind_eq_of_encode_eq {k k' : CompositeKind} {tag tag' : Option String} {ms ms' : Members}
    (h : (Shape.composite k tag ms).encode = (Shape.composite k' tag' ms').encode) : k = k' := by
  have hopening : k.opening = k'.opening := by
    simpa [Shape.encodeChars, Shape.encodeOnto] using congrArg (fun s : String => s.toList.head?) h
  revert hopening
  cases k <;> cases k' <;> decide

theorem constantLine_injective (name : String) : Function.Injective (constantLine name) := by
  intro value value' h
  unfold constantLine at h
  exact quote_injective ((String.append_right_inj _).1 ((String.append_left_inj _).1 h))

/-- The wrapper of a type is also that of another one whose wrapper has the same name, exactly if
the two have the same encodings. -/
theorem IsWrapperOf.iff_encode_eq (h : IsWrapperOf c t package runtime)
    (hname : wrapperName? u = wrapperName? t) :
    IsWrapperOf c u package runtime ↔
      t.shape32.encode = u.shape32.encode ∧ t.shape64.encode = u.shape64.encode := by
  constructor
  · intro hu
    have h32 := Option.some.inj (h.encoding32.symm.trans hu.encoding32)
    have h64 := Option.some.inj (h.encoding64.symm.trans hu.encoding64)
    exact ⟨constantLine_injective _ h32, constantLine_injective _ h64⟩
  · rintro ⟨h32, h64⟩
    have hu : wrapperName? u = some c.header.name := hname.trans h.name
    obtain ⟨k, tag, ms, hshape, hsuper⟩ := h.supertype
    obtain ⟨k', tag', ms', hshape'⟩ := exists_composite_of_wrapperName? hu
    -- the kind, and with it the supertype, can be told from the encoding
    obtain rfl : k = k' := kind_eq_of_encode_eq (by rw [← hshape, ← hshape', h64])
    exact ⟨h.package, hu, ⟨k, tag', ms', hshape', hsuper⟩, h32 ▸ h.encoding32,
      h64 ▸ h.encoding64⟩

/-- The index is the wrapper of no type. -/
theorem not_isWrapperOf_typeIndex (types : List (NativeType × Option Target)) :
    ¬IsWrapperOf (typeIndex types package) t package runtime := by
  intro h
  have hfirst : (typeIndex types package).lines[0]? =
    some "\tpublic static final String[][] ENTRIES = \x7b" := rfl
  have hline := Option.some.inj (hfirst.symm.trans h.encoding32)
  unfold constantLine at hline
  -- the first line of the index opens a brace, and a constant ends with a semicolon
  have hlast := congrArg (fun line : String => line.toList.getLast?) hline
  simp only [String.toList_append, List.getLast?_append] at hlast
  simp at hlast

/-! ### All wrappers -/

/-- **Of the wrappers of one name the first is kept**, if the name is not taken. -/
theorem filter_selectWrappers (name : String) (taken : List String) (cs : List ClassFile) :
    (selectWrappers taken cs).filter (fun c => c.header.name = name) =
      if name = indexName ∨ name ∈ taken then []
      else (cs.find? fun c => c.header.name = name).toList := by
  induction cs generalizing taken with
  | nil => simp [selectWrappers]
  | cons c cs ih =>
    rw [selectWrappers, List.find?_cons]
    by_cases hc : c.header.name = name
    · subst hc
      by_cases htaken : c.header.name = indexName ∨ c.header.name ∈ taken
      · rw [if_pos htaken, ih, if_pos htaken, if_pos htaken]
      · rw [if_neg htaken, if_neg htaken, List.filter_cons_of_pos (by simp), ih,
          if_pos (.inr List.mem_cons_self)]
        simp
    · have hfind : decide (c.header.name = name) = false := by simpa using hc
      have hseen : name ∈ c.header.name :: taken ↔ name ∈ taken := by simp [Ne.symm hc]
      rw [hfind]
      by_cases hskip : c.header.name = indexName ∨ c.header.name ∈ taken
      · rw [if_pos hskip, ih]
      · rw [if_neg hskip, List.filter_cons_of_neg (by simpa using hc), ih]
        simp only [hseen]

end Binding

/-! ### The classes of an output -/

/-- The name of a generated class. Neither a copy nor the table of coders counts as one. -/
def Artifact.generatedName? : Artifact → Option String
  | .generated c => some c.header.name
  | .copied _ _ | .coders _ => none

namespace Output

variable {o : Output} {name : String} {as : List Artifact}

/-- The first type, in sorted order, whose wrapper has a given name. -/
def firstNamed? (o : Output) (name : String) : Option Instance :=
  o.registry.sorted.find? fun i => Binding.wrapperName? i.type = some name

theorem mem_pool_of_firstNamed? {i : Instance} (h : o.firstNamed? name = some i) :
    i ∈ o.registry.pool ∧ Binding.wrapperName? i.type = some name :=
  ⟨(List.mergeSort_perm _ _).mem_iff.1 (List.mem_of_find?_eq_some h),
    by simpa using List.find?_some h⟩

theorem exists_firstNamed? {i : Instance} (hi : i ∈ o.registry.pool)
    (h : Binding.wrapperName? i.type = some name) : ∃ j, o.firstNamed? name = some j := by
  refine Option.ne_none_iff_exists'.1 fun hn => ?_
  have hsorted : i ∈ o.registry.sorted := (List.mergeSort_perm _ _).mem_iff.2 hi
  exact List.find?_eq_none.1 hn i hsorted (by simpa using h)

theorem type_firstNamed? (o : Output) (name : String) :
    (o.firstNamed? name).map Instance.type = (o.registry.sorted.map Instance.type).find?
      fun t => Binding.wrapperName? t = some name := by
  rw [firstNamed?, List.find?_map]
  rfl

/-- A type with no earlier one of its name is the first. -/
theorem firstNamed?_eq_of_sorted {i : Instance} {before after : List Instance}
    (hs : o.registry.sorted = before ++ i :: after)
    (hb : ∀ j ∈ before, Binding.wrapperName? j.type ≠ some name)
    (h : Binding.wrapperName? i.type = some name) : o.firstNamed? name = some i := by
  have hnone : before.find? (fun j => Binding.wrapperName? j.type = some name) = none :=
    List.find?_eq_none.2 fun j hj => by simpa using hb j hj
  rw [firstNamed?, hs, List.find?_append, hnone, Option.none_or,
    List.find?_cons_of_pos (by simpa using h)]

/-- The wrapper of a name is that of the first type with the name. -/
theorem filter_wrappers (o : Output) (hname : name ≠ Binding.indexName) :
    o.wrappers.filter (fun c => c.header.name = name) =
      ((o.firstNamed? name).bind fun i =>
        Binding.wrapper? i.type o.manifest.wrapperPackage o.runtime).toList := by
  rw [wrappers, Binding.filter_selectWrappers, if_neg (by simpa using hname),
    List.find?_filterMap, firstNamed?]
  -- a class has the name exactly if its type has
  congr 3
  funext i
  have hmap := Binding.map_name_wrapper? i.type o.manifest.wrapperPackage o.runtime
  rw [← hmap]
  cases Binding.wrapper? i.type o.manifest.wrapperPackage o.runtime <;> simp

theorem filter_wrappers_indexName (o : Output) :
    o.wrappers.filter (fun c => c.header.name = Binding.indexName) = [] := by
  rw [wrappers, Binding.filter_selectWrappers, if_pos (.inl rfl)]

theorem generatedName?_of_mem_copies {copies : List Artifact} (h : o.copies = .ok copies) :
    ∀ a ∈ copies, a.generatedName? = none := by
  unfold Output.copies at h
  generalize o.manifest.copies = cs at h
  induction cs generalizing copies with
  | nil =>
    cases h
    nofun
  | cons c cs ih =>
    rw [List.mapM_cons] at h
    obtain ⟨a, ha, h⟩ := bind_eq_ok_iff.1 h
    obtain ⟨rest, hrest, h⟩ := bind_eq_ok_iff.1 h
    obtain ⟨fileName, -, ha⟩ := bind_eq_ok_iff.1 ha
    cases ha
    cases h
    exact List.forall_mem_cons.2 ⟨rfl, ih hrest⟩

/-- The artifacts of a name are the wrappers of the name, and the index if it has the name. -/
theorem filter_artifacts (h : o.artifacts = .ok as) (name : String) :
    as.filter (fun a => a.generatedName? = some name) =
      (o.wrappers.filter fun c => c.header.name = name).map .generated ++
        if Binding.indexName = name then [.generated o.index] else [] := by
  obtain ⟨copies, hc, h⟩ := bind_eq_ok_iff.1 h
  obtain rfl := pure_eq_ok_iff.1 h
  have hcopies : copies.filter (fun a => a.generatedName? = some name) = [] := by
    refine List.filter_eq_nil_iff.2 fun a ha => ?_
    simp [generatedName?_of_mem_copies hc a ha]
  have hwrappers : (o.wrappers.map Artifact.generated).filter
      (fun a => a.generatedName? = some name) =
        (o.wrappers.filter fun c => c.header.name = name).map .generated := by
    rw [List.filter_map]
    simp [Function.comp_def, Artifact.generatedName?]
  have hindex : [Artifact.generated o.index, .coders o.coderTable].filter
      (fun a => a.generatedName? = some name) =
        if Binding.indexName = name then [.generated o.index] else [] := by
    have hheader : o.index.header.name = Binding.indexName := rfl
    by_cases hn : Binding.indexName = name <;> simp [Artifact.generatedName?, hheader, hn]
  rw [List.filter_append, List.filter_append, hcopies, hwrappers, hindex, List.nil_append]

/-- The classes of the index's name are the index alone. -/
theorem filter_artifacts_indexName (h : o.artifacts = .ok as) :
    as.filter (fun a => a.generatedName? = some Binding.indexName) = [.generated o.index] := by
  rw [filter_artifacts h, filter_wrappers_indexName, if_pos rfl]
  rfl

/-- The classes of any other name are the wrapper of the first type with it. -/
theorem filter_artifacts_of_firstNamed? (h : o.artifacts = .ok as)
    (hname : name ≠ Binding.indexName) {i : Instance} (hi : o.firstNamed? name = some i) :
    ∃ c, as.filter (fun a => a.generatedName? = some name) = [.generated c] ∧
      Binding.IsWrapperOf c i.type o.manifest.wrapperPackage o.runtime := by
  obtain ⟨-, hn⟩ := mem_pool_of_firstNamed? hi
  rw [← Binding.map_name_wrapper? i.type o.manifest.wrapperPackage o.runtime] at hn
  obtain ⟨c, hc, -⟩ := Option.map_eq_some_iff.1 hn
  refine ⟨c, ?_, Binding.isWrapperOf_of_wrapper? hc⟩
  rw [filter_artifacts h, o.filter_wrappers hname, hi, Option.bind_some, hc,
    if_neg (Ne.symm hname)]
  rfl

/-- The one class of a name among artifacts. -/
theorem generated_mem_iff {c d : Binding.ClassFile}
    (hd : as.filter (fun a => a.generatedName? = some name) = [.generated d]) :
    .generated c ∈ as ∧ c.header.name = name ↔ c = d := by
  have hmem : Artifact.generated c ∈ as.filter (fun a => a.generatedName? = some name) ↔ _ :=
    List.mem_filter
  rw [hd] at hmem
  simpa [Artifact.generatedName?] using hmem.symm

/-- A wrapper of a type is the one class of its name. -/
theorem eq_of_isWrapperOf {t : NativeType} {c d : Binding.ClassFile} {package runtime : String}
    (hd : as.filter (fun a => a.generatedName? = some name) = [.generated d])
    (ht : Binding.wrapperName? t = some name) (hc : Artifact.generated c ∈ as)
    (h : Binding.IsWrapperOf c t package runtime) : c = d :=
  (generated_mem_iff hd).1 ⟨hc, Option.some.inj (h.name.symm.trans ht)⟩

/-- **When a type has a wrapper of its own**: if its name is not that of the index, and the first
type in sorted order with the name has the same encodings. -/
theorem exists_wrapper_iff (h : o.artifacts = .ok as) {i : Instance} (hi : i ∈ o.registry.pool)
    (hn : Binding.wrapperName? i.type = some name) :
    (∃ c, .generated c ∈ as ∧
        Binding.IsWrapperOf c i.type o.manifest.wrapperPackage o.runtime) ↔
      name ≠ Binding.indexName ∧ ∃ j, o.firstNamed? name = some j ∧
        j.type.shape32.encode = i.type.shape32.encode ∧
        j.type.shape64.encode = i.type.shape64.encode := by
  by_cases hname : name = Binding.indexName
  · subst hname
    refine iff_of_false ?_ fun hne => hne.1 rfl
    rintro ⟨c, hc, hw⟩
    obtain rfl := eq_of_isWrapperOf (filter_artifacts_indexName h) hn hc hw
    exact Binding.not_isWrapperOf_typeIndex _ hw
  · obtain ⟨j, hj⟩ := exists_firstNamed? hi hn
    obtain ⟨d, hd, hdj⟩ := filter_artifacts_of_firstNamed? h hname hj
    have hsame := hdj.iff_encode_eq (hn.trans (mem_pool_of_firstNamed? hj).2.symm)
    constructor
    · rintro ⟨c, hc, hw⟩
      obtain rfl := eq_of_isWrapperOf hd hn hc hw
      exact ⟨hname, j, hj, hsame.1 hw⟩
    · rintro ⟨-, k, hk, hencodings⟩
      obtain rfl : j = k := Option.some.inj (hj.symm.trans hk)
      exact ⟨d, ((generated_mem_iff hd).2 rfl).1, hsame.2 hencodings⟩

end Output

namespace Plan

variable {m : Manifest} {base : Path} {runtime name : String} {plan : Plan} {i : Instance}

/-- **Which structs and unions have a wrapper of their own.** In a plan, let a type be mapped to a
struct or union through a name of a wrapper class.

* If that is the name of the index, the only class of the name is the index.
* If not, there is exactly one class of the name: the wrapper, in the package of the manifest and
  with the type's own kind and encodings, of the first type in sorted order that has the name.
* So the type has its own wrapper if no type before it has the name.
* It has one exactly if the name is not that of the index, and the first type with the name has the
  same encodings on both interfaces. Any other type is mapped to a class that is not its own. -/
theorem wrapper_of_type (h : Plan.ofManifest m base runtime = .ok plan)
    (hi : i ∈ plan.output.registry.pool) (hw : (m.mapping runtime).WrapsAs i.type name) :
    let classes := plan.artifacts.filter fun a => a.generatedName? = some name
    (name = Binding.indexName → classes = [.generated plan.output.index]) ∧
    (name ≠ Binding.indexName →
      ∃ j c, plan.output.firstNamed? name = some j ∧ classes = [.generated c] ∧
        Binding.IsWrapperOf c j.type m.wrapperPackage runtime) ∧
    (name ≠ Binding.indexName → ∀ before after,
      plan.output.registry.sorted = before ++ i :: after →
        (∀ j ∈ before, Binding.wrapperName? j.type ≠ some name) →
          ∃ c, classes = [.generated c] ∧
            Binding.IsWrapperOf c i.type m.wrapperPackage runtime) ∧
    ((∃ c, .generated c ∈ plan.artifacts ∧
        Binding.IsWrapperOf c i.type m.wrapperPackage runtime) ↔
      name ≠ Binding.indexName ∧ ∃ j, plan.output.firstNamed? name = some j ∧
        j.type.shape32.encode = i.type.shape32.encode ∧
        j.type.shape64.encode = i.type.shape64.encode) := by
  intro classes
  obtain ⟨hout, ha⟩ := artifacts_of_ofManifest h
  rw [hout] at hi ⊢
  refine ⟨?_, fun hname => ?_, fun hname before after hs hb => ?_,
    Output.exists_wrapper_iff ha hi hw.1⟩
  · rintro rfl
    exact Output.filter_artifacts_indexName ha
  · obtain ⟨j, hj⟩ := Output.exists_firstNamed? hi hw.1
    obtain ⟨c, hc, hwrapper⟩ := Output.filter_artifacts_of_firstNamed? ha hname hj
    exact ⟨j, c, hj, hc, hwrapper⟩
  · have hfirst := Output.firstNamed?_eq_of_sorted hs hb hw.1
    exact Output.filter_artifacts_of_firstNamed? ha hname hfirst

/-- A struct of a name, one without a name whose tag is the same, and one with the name of the
index. -/
def sharing : Manifest :=
  ⟨some "com.example", [⟨some "CGPoint", "a.h:1", 32, "{CGPoint=ff}"⟩,
    ⟨some "CGPoint", "a.h:1", 64, "{CGPoint=dd}"⟩, ⟨none, "b.h:2", 32, "{CGPoint=ii}"⟩,
    ⟨some "Types", "c.h:3", 32, "{t=i}"⟩], []⟩

/-- A struct with two members of one primitive. -/
def cgPoint (name : Option String) (p32 p64 : Primitive) : NativeType :=
  let members (p : Primitive) := Members.cons none (.primitive p) (.cons none (.primitive p) .nil)
  .make (name.map .ofDeclared) (.composite .struct (some "CGPoint") (members p32))
    (some (.composite .struct (some "CGPoint") (members p64)))

theorem firstNamed?_sharing :
    ((sharing.output .empty "runtime").firstNamed? "CGPoint").map Instance.type =
      some (cgPoint none .int .int) := by
  have hsorted : (sharing.output .empty "runtime").registry.sorted.map Instance.type =
      [cgPoint none .int .int, cgPoint (some "CGPoint") .float .double,
        .make (some (.ofDeclared "Types"))
          (.composite .struct (some "t") (.cons none (.primitive .int) .nil)) none,
        .void, .voidPtr] :=
    FrozenRegistry.types_sorted_eq (by decide +kernel) (by decide +kernel) (by decide +kernel)
  rw [Output.type_firstNamed?, hsorted]
  decide +kernel

theorem exists_sharing : ∃ plan, ofManifest sharing .empty "runtime" = .ok plan := by
  have herrors : sharing.typeErrors.isEmpty = true := by decide +kernel
  exact Plan.exists_ofManifest (List.isEmpty_iff.1 herrors) ⟨by decide, nofun⟩ .empty "runtime"

/-- The struct without a name comes first, and gets the class. -/
theorem wrapper_of_type_cgpoint :
    ∃ plan i c, Plan.ofManifest sharing .empty "runtime" = .ok plan ∧
      i ∈ plan.output.registry.pool ∧ i.type = cgPoint none .int .int ∧
      (sharing.mapping "runtime").WrapsAs i.type "CGPoint" ∧
      plan.artifacts.filter (fun a => a.generatedName? = some "CGPoint") = [.generated c] ∧
      Binding.IsWrapperOf c i.type "com.example" "runtime" ∧
      c.lines[0]? = some "\tpublic static final String ENCODING_32 = \"\x7bCGPoint=ii\x7d\";" ∧
      c.lines[1]? = some "\tpublic static final String ENCODING_64 = \"\x7bCGPoint=ii\x7d\";" := by
  obtain ⟨plan, hplan⟩ := exists_sharing
  obtain ⟨hout, -⟩ := artifacts_of_ofManifest hplan
  obtain ⟨i, hi, hw, ht⟩ : ∃ i ∈ (sharing.output .empty "runtime").registry.pool,
      (sharing.mapping "runtime").WrapsAs i.type "CGPoint" ∧ i.type = cgPoint none .int .int := by
    decide +kernel
  have hfirst := firstNamed?_sharing
  rw [← hout] at hi hfirst
  obtain ⟨j, c, hj, hc, hwrapper⟩ := (wrapper_of_type hplan hi hw).2.1 (by decide)
  rw [hj, ← ht] at hfirst
  rw [Option.some.inj hfirst] at hwrapper
  have h32 := hwrapper.encoding32
  have h64 := hwrapper.encoding64
  rw [ht] at h32 h64
  exact ⟨plan, i, c, hplan, hi, ht, hw, hc, hwrapper, h32, h64⟩

/-- The struct with the name is bound to that class, and the one with the name of the index to the
index. Neither has a wrapper of its own. -/
theorem wrapper_of_type_shared :
    ∃ plan, Plan.ofManifest sharing .empty "runtime" = .ok plan ∧
      (∃ i ∈ plan.output.registry.pool, i.type = cgPoint (some "CGPoint") .float .double ∧
        (sharing.mapping "runtime").WrapsAs i.type "CGPoint" ∧
        (∃ c, .generated c ∈ plan.artifacts ∧ c.header.name = "CGPoint" ∧
          Binding.IsWrapperOf c (cgPoint none .int .int) "com.example" "runtime") ∧
        ∀ c, .generated c ∈ plan.artifacts →
          ¬Binding.IsWrapperOf c i.type "com.example" "runtime") ∧
      ∃ i ∈ plan.output.registry.pool, (sharing.mapping "runtime").WrapsAs i.type "Types" ∧
        ∀ c, .generated c ∈ plan.artifacts →
          ¬Binding.IsWrapperOf c i.type "com.example" "runtime" := by
  obtain ⟨plan, hplan⟩ := exists_sharing
  obtain ⟨hout, ha⟩ := artifacts_of_ofManifest hplan
  obtain ⟨i, hi, hw, ht⟩ : ∃ i ∈ (sharing.output .empty "runtime").registry.pool,
      (sharing.mapping "runtime").WrapsAs i.type "CGPoint" ∧
        i.type = cgPoint (some "CGPoint") .float .double := by decide +kernel
  obtain ⟨k, hk, hwk⟩ : ∃ k ∈ (sharing.output .empty "runtime").registry.pool,
      (sharing.mapping "runtime").WrapsAs k.type "Types" := by decide +kernel
  obtain ⟨j, hj, htj⟩ := Option.map_eq_some_iff.1 firstNamed?_sharing
  obtain ⟨c, hc, hwrapper⟩ := Output.filter_artifacts_of_firstNamed? ha (by decide) hj
  obtain ⟨hmem, hname⟩ := (Output.generated_mem_iff hc).2 rfl
  refine ⟨plan, hplan, ?_⟩
  rw [hout]
  refine ⟨⟨i, hi, ht, hw, ⟨c, hmem, hname, htj ▸ hwrapper⟩, fun d hd hown => ?_⟩,
    k, hk, hwk, fun d hd hown => ?_⟩
  · obtain ⟨-, j', hj', h32, -⟩ := (Output.exists_wrapper_iff ha hi hw.1).1 ⟨d, hd, hown⟩
    obtain rfl : j' = j := Option.some.inj (hj'.symm.trans hj)
    rw [htj, ht] at h32
    revert h32
    decide
  · exact ((Output.exists_wrapper_iff ha hk hwk.1).1 ⟨d, hd, hown⟩).1 rfl

end Plan

end Bindery
