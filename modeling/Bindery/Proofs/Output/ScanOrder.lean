import Bindery.Output
import Bindery.Proofs.NativeType.Mixed
import Bindery.Proofs.NativeType.Order
import Bindery.Proofs.Registry.Mapped

/-!
# The output does not depend on the scan order

Headers may be scanned in any order, and so the same types may be interned in any order and any
number of times. The output is the same: only the table of coders keeps the order of interning.

* `Shape.Scanned` says that a shape comes from the reader or from a merge of such;
* `Session.Collected` says which types a registry holds that was asked for no target;
* `Session.resolveAll_of_collected` : the mapping then gives each of them its target;
* `Output.SameButCoderOrder` says that two outputs are the same but for the order of the coders;
* `Session.output_of_same_types` : so are the outputs for the same types in two orders.
-/

namespace Bindery

/-! ### Scanned shapes -/

/-- The shape comes from the reader, or from a merge of such shapes. -/
inductive Shape.Scanned : Shape → Prop where
  | read {s : String} {t : Shape} (h : Shape.decode s = .ok t) : Scanned t
  | merged {a b c : Shape} (ha : Scanned a) (hb : Scanned b) (h : a.merge b = .ok c) : Scanned c

theorem Shape.Scanned.printable {t : Shape} (h : t.Scanned) : t.Printable := by
  induction h with
  | read h => exact Shape.printable_of_decode h
  | merged _ _ h iha ihb => exact iha.merge ihb h

/-! ### Interning without questions -/

namespace Call

/-- The call may intern a type, but asks for no target. -/
def AsksNothing : Call → Prop
  | .target _ _ | .resolveAll _ => False
  | .declare _ _ _ | .copy _ | .intern _ | .adopt _ => True

instance : DecidablePred AsksNothing := fun c => by
  cases c <;> unfold AsksNothing <;> infer_instance

end Call

theorem Registry.Interned.mem_types {r r' : Registry} {t u : NativeType} {p : Instance}
    (h : r.Interned t p r') :
    u ∈ r'.pool.map Instance.type ↔ u ∈ r.pool.map Instance.type ∨ u = t := by
  rcases h.grows with ⟨⟨q, hq, ht⟩, e⟩ | ⟨-, e⟩
  · have htr : t ∈ r.pool.map Instance.type := List.mem_map.2 ⟨q, hq, ht⟩
    rw [e]
    exact ⟨.inl, fun hu => hu.elim id fun e' => e' ▸ htr⟩
  · rw [e, List.map_append, List.mem_append, List.map_singleton, List.mem_singleton, h.type_eq]

namespace Session

/-- The types that a client interned. -/
def interned (s : Session) : List NativeType := s.answers.map fun a => a.1.type

/-- The registry holds `void`, `void*` and the types that were interned, and no instance has a
target. -/
structure Collected (s : Session) : Prop extends s.Sound where
  mem_types : ∀ t, t ∈ s.registry.pool.map Instance.type ↔
    t = .void ∨ t = .voidPtr ∨ t ∈ s.interned
  unsettled : ∀ i, s.instances.target? i = none

variable {s : Session}

theorem collected_start : start.Collected where
  toSound := sound_start
  mem_types t := by simp [start, Registry.new, interned, Registry.push, Instances.make]
  unsettled i := by
    simp only [start, Registry.new, Instances.target?_make]
    rfl

/-- The registry interned a type, and settled no target. -/
theorem Collected.answer (h : s.Collected) {i p : Instance} {r : Registry} {is : Instances}
    (hi : s.registry.Interned i.type p r) (hn : ∀ j, is.target? j = none)
    (hs : Sound ⟨r, is, s.handles ++ [p], s.answers ++ [(i, p)]⟩) :
    Collected ⟨r, is, s.handles ++ [p], s.answers ++ [(i, p)]⟩ where
  toSound := hs
  mem_types t := by
    rw [hi.mem_types, h.mem_types]
    simp [interned, or_assoc]
  unsettled := hn

theorem Collected.perform (h : s.Collected) {c : Call} (hn : c.AsksNothing)
    (hc : ∀ i ∈ c.subject?, i ∈ s.handles) : (s.perform c).Collected := by
  have hsound : (s.perform c).Sound := h.toSound.perform hc
  have hmake : ∀ t j, (s.instances.make t).2.target? j = none := by
    intro t j
    rw [Instances.target?_make, h.unsettled]
  have hcopy : ∀ i j, (s.instances.copy i).2.target? j = none := by
    intro i j
    rw [Instances.target?_copy, h.unsettled, h.unsettled, ite_self]
  cases c with
  | declare name shape32 shape64 =>
    exact ⟨hsound, h.mem_types, hmake (.make (name.map .ofDeclared) shape32 shape64)⟩
  | copy i => exact ⟨hsound, h.mem_types, hcopy i⟩
  | intern i =>
    have hintern : ∀ j, (s.registry.intern s.instances i).2.2.target? j = none := by
      intro j
      unfold Registry.intern
      split
      · exact h.unsettled j
      · exact hcopy i j
    exact h.answer (h.registry.intern s.instances i) hintern hsound
  | adopt i => exact h.answer (h.registry.adopt i) h.unsettled hsound
  | target resolver i => exact hn.elim
  | resolveAll resolver => exact hn.elim

theorem Collected.step (h : s.Collected) {c : Call} (hn : c.AsksNothing) :
    (s.step c).Collected := by
  unfold Session.step
  split_ifs with hc
  · exact h.perform hn hc
  · exact h

/-- Whatever was interned, and in which order, the registry holds the types of it. -/
theorem collected_run {calls : List Call} (h : ∀ c ∈ calls, c.AsksNothing) :
    (run calls).Collected := by
  induction calls using List.reverseRecOn with
  | nil => exact collected_start
  | append_singleton calls c ih =>
    rw [run, List.foldl_append]
    exact (ih fun d hd => h d (by simp [hd])).step (h c (by simp))

/-! ### Resolving -/

/-- The mapping gives each type of such a registry its target. -/
theorem resolveAll_of_collected (h : s.Collected) (m : Binding.Mapping) :
    (s.registry.resolveAll s.instances m.resolver).1 = .ok s.registry.pool.length ∧
      ∀ p ∈ s.registry.pool,
        (s.registry.resolveAll s.instances m.resolver).2.target? p = some (m.target p.type) := by
  have hmapped : s.Mapped m := by
    intro i _ t ht
    rw [h.unsettled] at ht
    cases ht
  exact resolveAll_of_mapped h.toSound hmapped

end Session

/-! ### Outputs -/

/-- Two outputs are the same but for the order of the coders in the table. -/
structure Output.SameButCoderOrder (o o' : Output) : Prop where
  sorted : o.registry.sorted.map Instance.type = o'.registry.sorted.map Instance.type
  copies : o.copies = o'.copies
  wrappers : o.wrappers = o'.wrappers
  index : o.index = o'.index
  header : o.coderTable.header = o'.coderTable.header
  coders : (o.coderTable.coders.map MixedCoder.entry).Perm
    (o'.coderTable.coders.map MixedCoder.entry)
  lines : o.coderTable.classFile.lines.Perm o'.coderTable.classFile.lines
  /-- All artifacts but the last are the same, and the last is the table. -/
  artifacts : ∃ first : Except ManifestError (List Artifact),
    o.artifacts = first.map (fun as => as ++ [.coders o.coderTable]) ∧
      o'.artifacts = first.map (fun as => as ++ [.coders o'.coderTable])

namespace Output

variable {o o' : Output} {m : Binding.Mapping}

theorem wrappers_eq (o : Output) :
    o.wrappers = Binding.selectWrappers [] ((o.registry.sorted.map Instance.type).filterMap
      fun t => Binding.wrapper? t o.manifest.wrapperPackage o.runtime) := by
  rw [wrappers, List.filterMap_map]
  rfl

theorem index_eq (h : ∀ p ∈ o.registry.pool, o.instances.target? p = some (m.target p.type)) :
    o.index = Binding.typeIndex ((o.registry.sorted.map Instance.type).map
      fun t => (t, some (m.target t))) o.manifest.wrapperPackage := by
  have hpairs : o.registry.sorted.map (fun i => (i.type, o.instances.target? i)) =
      (o.registry.sorted.map Instance.type).map fun t => (t, some (m.target t)) := by
    rw [List.map_map]
    refine List.map_congr_left fun i hi => ?_
    have hpool : i ∈ o.registry.pool := (List.mergeSort_perm _ _).mem_iff.1 hi
    rw [h i hpool, Function.comp_apply]
  rw [index, hpairs]

theorem lines_coderTable (o : Output) :
    o.coderTable.classFile.lines = (o.coderTable.coders.map MixedCoder.entry).map fun e =>
      "\tpublic static final " ++ o.runtime ++ ".PrimitiveCoder " ++ e.2.1 ++ " = " ++ e.2.2 ++
        ";" := by
  simp only [Binding.CoderTable.classFile, List.map_map]
  rfl

theorem artifacts_eq (o : Output) :
    o.artifacts = (o.copies.map fun as => as ++ o.wrappers.map .generated ++
      [.generated o.index]).map fun as => as ++ [.coders o.coderTable] := by
  unfold artifacts
  cases o.copies <;> simp [Except.map, bind, Except.bind, pure, Except.pure]

/-- For the same printable types in two orders, resolved by one mapping, the outputs are the same
but for the order of the coders. -/
theorem sameButCoderOrder_of_perm (hmanifest : o.manifest = o'.manifest) (hbase : o.base = o'.base)
    (hruntime : o.runtime = o'.runtime)
    (hperm : (o.registry.pool.map Instance.type).Perm (o'.registry.pool.map Instance.type))
    (hprintable : ∀ p ∈ o.registry.pool, p.type.Printable)
    (ht : ∀ p ∈ o.registry.pool, o.instances.target? p = some (m.target p.type))
    (ht' : ∀ p ∈ o'.registry.pool, o'.instances.target? p = some (m.target p.type)) :
    o.SameButCoderOrder o' := by
  have hsorted := FrozenRegistry.types_sorted_of_perm hperm hprintable
  have hcopies : o.copies = o'.copies := by rw [copies, copies, hmanifest, hbase]
  have hwrappers : o.wrappers = o'.wrappers := by
    rw [wrappers_eq, wrappers_eq, hsorted, hmanifest, hruntime]
  have hindex : o.index = o'.index := by
    rw [index_eq ht, index_eq ht', hsorted, hmanifest]
  have hcoders : (o.coderTable.coders.map MixedCoder.entry).Perm
      (o'.coderTable.coders.map MixedCoder.entry) := by
    simp only [coderTable, hruntime]
    exact MixedCoder.entries_perm hperm
  exact
    { sorted := hsorted
      copies := hcopies
      wrappers := hwrappers
      index := hindex
      header := congrArg (fun r => Binding.ClassHeader.ofClass r _ _) hruntime
      coders := hcoders
      lines := by
        rw [lines_coderTable, lines_coderTable, hruntime]
        exact hcoders.map _
      artifacts := ⟨_, o.artifacts_eq, by rw [hcopies, hwrappers, hindex, o'.artifacts_eq]⟩ }

end Output

namespace Session

/-- The output of a session whose types are resolved by a mapping. -/
def output (s : Session) (m : Binding.Mapping) (manifest : Manifest) (base : Path)
    (runtime : String) : Output :=
  ⟨s.registry.freeze, (s.registry.resolveAll s.instances m.resolver).2, manifest, base, runtime⟩

/-- **The output does not depend on the scan order.** Two clients intern the same scanned types in
new registries, in any two orders and with any repetitions. Then one mapping resolves all types of
both, and the outputs are the same but for the order of the coders in the table. -/
theorem output_of_same_types {calls calls' : List Call} (m : Binding.Mapping) (manifest : Manifest)
    (base : Path) (runtime : String) (h : ∀ c ∈ calls, c.AsksNothing)
    (h' : ∀ c ∈ calls', c.AsksNothing)
    (hsame : ∀ t, t ∈ (run calls).interned ↔ t ∈ (run calls').interned)
    (hscanned : ∀ t ∈ (run calls).interned, t.shape32.Scanned ∧ t.shape64.Scanned) :
    let s := run calls
    let s' := run calls'
    (s.registry.resolveAll s.instances m.resolver).1 = .ok s.registry.pool.length ∧
      (s'.registry.resolveAll s'.instances m.resolver).1 = .ok s'.registry.pool.length ∧
      (s.output m manifest base runtime).SameButCoderOrder
        (s'.output m manifest base runtime) := by
  intro s s'
  have hs : s.Collected := collected_run h
  have hs' : s'.Collected := collected_run h'
  obtain ⟨hdone, htargets⟩ := resolveAll_of_collected hs m
  obtain ⟨hdone', htargets'⟩ := resolveAll_of_collected hs' m
  refine ⟨hdone, hdone', ?_⟩
  have hperm : (s.registry.pool.map Instance.type).Perm (s'.registry.pool.map Instance.type) := by
    refine (List.perm_ext_iff_of_nodup hs.registry.distinct hs'.registry.distinct).2 fun t => ?_
    rw [hs.mem_types, hs'.mem_types, hsame]
  have hprintable : ∀ p ∈ s.registry.pool, p.type.Printable := by
    intro p hp
    rcases (hs.mem_types p.type).1 (List.mem_map_of_mem hp) with e | e | ht
    · rw [e]
      exact ⟨trivial, trivial⟩
    · rw [e]
      exact ⟨trivial, trivial⟩
    · obtain ⟨h32, h64⟩ := hscanned _ ht
      exact ⟨h32.printable, h64.printable⟩
  exact Output.sameButCoderOrder_of_perm rfl rfl rfl hperm hprintable htargets htargets'

/-- Two mixed types, interned in two orders and one of them twice. -/
theorem output_of_same_types_mixed :
    let a : NativeType := .make (some (.ofDeclared "NSInteger")) (.primitive .int)
      (some (.primitive .longLong))
    let b : NativeType := .make (some (.ofDeclared "NSUInteger")) (.primitive .uint)
      (some (.primitive .ulongLong))
    let calls : List Call :=
      [.declare "NSInteger" (.primitive .int) (some (.primitive .longLong)),
        .declare "NSUInteger" (.primitive .uint) (some (.primitive .ulongLong)),
        .intern ⟨2, a⟩, .adopt ⟨3, b⟩]
    let calls' : List Call :=
      [.declare "NS UInteger" (.primitive .uint) (some (.primitive .ulongLong)),
        .declare "NSInteger" (.primitive .int) (some (.primitive .longLong)),
        .adopt ⟨2, b⟩, .adopt ⟨3, a⟩, .intern ⟨2, b⟩]
    let m : Binding.Mapping := ⟨"runtime", "wrappers"⟩
    let s := run calls
    let s' := run calls'
    let o := s.output m ⟨none, [], []⟩ .empty "runtime"
    let o' := s'.output m ⟨none, [], []⟩ .empty "runtime"
    let entries := ["\t\t\x7b \"NSInteger\", \"i\", \"q\", \"long\" \x7d,",
      "\t\t\x7b \"NSUInteger\", \"I\", \"Q\", \"long\" \x7d,",
      "\t\t\x7b \"void\", \"v\", \"v\", \"void\" \x7d,",
      "\t\t\x7b \"void*\", \"^v\", \"^v\", \"runtime.Pointer\" \x7d,"]
    let coder := "\tpublic static final runtime.PrimitiveCoder "
    let signed := coder ++ "SINT_SLONGLONG = new runtime.PrimitiveCoder.Mixed('i', 'q');"
    let unsigned := coder ++ "UINT_ULONGLONG = new runtime.PrimitiveCoder.Mixed('I', 'Q');"
    (∀ c ∈ calls, c.AsksNothing) ∧ (∀ c ∈ calls', c.AsksNothing) ∧
      (∀ t, t ∈ s.interned ↔ t ∈ s'.interned) ∧
      (∀ t ∈ s.interned, t.shape32.Scanned ∧ t.shape64.Scanned) ∧
      (s.registry.resolveAll s.instances m.resolver).1 = .ok 4 ∧
      (s'.registry.resolveAll s'.instances m.resolver).1 = .ok 4 ∧
      o.SameButCoderOrder o' ∧
      o.registry.pool.map Instance.type = [.void, .voidPtr, a, b] ∧
      o'.registry.pool.map Instance.type = [.void, .voidPtr, b, a] ∧
      o'.registry.sorted.map Instance.type = [a, b, .void, .voidPtr] ∧
      (o'.index.lines.drop 1).take 4 = entries ∧
      o.coderTable.classFile.lines = [signed, unsigned] ∧
      o'.coderTable.classFile.lines = [unsigned, signed] := by
  intro a b calls calls' m s s' o o' entries coder signed unsigned
  have h : ∀ c ∈ calls, c.AsksNothing := by decide +kernel
  have h' : ∀ c ∈ calls', c.AsksNothing := by decide +kernel
  have hs : s.interned = [a, b] := by decide +kernel
  have hs' : s'.interned = [b, a, b] := by decide +kernel
  have hsame : ∀ t, t ∈ s.interned ↔ t ∈ s'.interned := by
    intro t
    simp only [hs, hs', List.mem_cons, List.not_mem_nil, or_false]
    constructor
    · rintro (ha | hb)
      · exact .inr (.inl ha)
      · exact .inl hb
    · rintro (hb | ha | hb)
      · exact .inr hb
      · exact .inl ha
      · exact .inr hb
  have hscanned : ∀ t ∈ s.interned, t.shape32.Scanned ∧ t.shape64.Scanned := by
    have ha : a.shape32.Scanned ∧ a.shape64.Scanned :=
      ⟨.read (s := "i") (by decide +kernel), .read (s := "q") (by decide +kernel)⟩
    have hb : b.shape32.Scanned ∧ b.shape64.Scanned :=
      ⟨.read (s := "I") (by decide +kernel), .read (s := "Q") (by decide +kernel)⟩
    intro t ht
    rw [hs] at ht
    rcases List.mem_pair.1 ht with rfl | rfl
    · exact ha
    · exact hb
  have hpool : o.registry.pool.map Instance.type = [.void, .voidPtr, a, b] := by decide +kernel
  have hpool' : o'.registry.pool.map Instance.type = [.void, .voidPtr, b, a] := by decide +kernel
  have hsorted : o.registry.sorted.map Instance.type = [a, b, .void, .voidPtr] :=
    FrozenRegistry.types_sorted_eq (by rw [hpool]; decide) (by decide +kernel) (by decide +kernel)
  have htargets : ∀ p ∈ o.registry.pool, o.instances.target? p = some (m.target p.type) := by
    decide +kernel
  have hindex : (o.index.lines.drop 1).take 4 = entries := by
    rw [Output.index_eq htargets, hsorted]
    decide +kernel
  obtain ⟨hdone, hdone', hout⟩ :=
    output_of_same_types m ⟨none, [], []⟩ .empty "runtime" h h' hsame hscanned
  exact ⟨h, h', hsame, hscanned, hdone, hdone', hout, hpool, hpool',
    hout.sorted ▸ hsorted, hout.index ▸ hindex, by decide +kernel, by decide +kernel⟩

end Session

end Bindery
