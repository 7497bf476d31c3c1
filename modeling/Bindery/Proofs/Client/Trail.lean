import Bindery.Proofs.Client.Moves
import Bindery.Proofs.Merger.OneName

/-!
# The trail of merges

The merger records each merge of two types with different names, so that they can be looked at
later. Here it is shown that it records these merges and no others: not those in which a type gave
way, was equal to the other or was kept by an override, and not those that failed.

* `Overrides.Collide` says when a merge is to be recorded, and `MergeCall.collision?` what of it;
* `Merger.collisions_merge` : what one merge adds to the collisions;
* `Client.Trail` ties the collisions of a client to the merges that it asked for, and
  `Client.trail_run` says that it holds after any run;
* `Client.merge_trail` is the main result.
-/

namespace Bindery

variable {overrides : Overrides}

/-! ### One merge -/

/-- A merge of the two types is to be recorded if it succeeds: both have a name, the names are
different, the types are not equal, and the name of the first is not overridden. -/
def Overrides.Collide (o : Overrides) (a b : NativeType) : Prop :=
  (∃ x ∈ a.name, ∃ y ∈ b.name, x ≠ y) ∧ a ≠ b ∧ ¬ o.Lists a.name

instance (o : Overrides) (a b : NativeType) : Decidable (o.Collide a b) :=
  inferInstanceAs (Decidable ((∃ x ∈ a.name, ∃ y ∈ b.name, x ≠ y) ∧ a ≠ b ∧ ¬ o.Lists a.name))

/-- What is to be recorded of a merge: both operands and the answer. -/
def MergeCall.collision? (overrides : Overrides) : MergeCall → Option Collision
  | ⟨some a, some b, .ok (some c)⟩ =>
    if overrides.Collide a.type b.type then some ⟨a, b, c⟩ else none
  | _ => none

@[simp]
theorem MergeCall.collision?_error (a b : Option Instance) (e : TypeConflict) :
    collision? overrides ⟨a, b, .error e⟩ = none := by
  cases a <;> cases b <;> rfl

theorem MergeCall.collision?_eq_some_iff {call : MergeCall} {e : Collision} :
    call.collision? overrides = some e ↔
      call = ⟨some e.left, some e.right, .ok (some e.merged)⟩ ∧
        overrides.Collide e.left.type e.right.type := by
  constructor
  · intro h
    unfold collision? at h
    split at h
    · split_ifs at h with hc
      cases h
      exact ⟨rfl, hc⟩
    · cases h
  · rintro ⟨rfl, hc⟩
    exact if_pos hc

/-- What a note of two instances that were merged adds to the collisions. -/
theorem Merger.collisions_note (m : Merger) {a b : Instance} (c : Instance)
    (hne : a.type ≠ b.type) (hl : ¬ m.overrides.Lists a.type.name) :
    (m.note a b c).collisions = m.collisions ++
      (MergeCall.collision? m.overrides ⟨some a, some b, .ok (some c)⟩).toList := by
  have hcollide : m.overrides.Collide a.type b.type ↔ a.type.namesDiffer b.type = true := by
    rw [Overrides.Collide, NativeType.namesDiffer_iff]
    exact and_iff_left ⟨hne, hl⟩
  rw [note, MergeCall.collision?]
  by_cases h : a.type.namesDiffer b.type = true
  · rw [if_pos h, if_pos (hcollide.2 h)]
    rfl
  · rw [if_neg h, if_neg (mt hcollide.1 h)]
    simp

/-- What a merge adds to the collisions. -/
theorem Merger.collisions_merge {m m' : Merger} {s s' : Instances} {a b r : Option Instance}
    (h : m.merge s a b = .ok (r, m', s')) :
    m'.collisions =
      m.collisions ++ (MergeCall.collision? m.overrides ⟨a, b, .ok r⟩).toList := by
  rcases m.merge_cases s a b with ⟨rfl, e⟩ | ⟨rfl, e⟩ |
    ⟨i, j, rfl, rfl, ⟨hkept, e⟩ | ⟨⟨hne, hl⟩, ⟨c, -, e⟩ | ⟨d, -, e⟩⟩⟩ <;> rw [e] at h <;> cases h
  · simp [MergeCall.collision?]
  · cases a <;> simp [MergeCall.collision?]
  · have hcollide : ¬ m.overrides.Collide i.type j.type := fun hc => hkept.elim hc.2.1 hc.2.2
    rw [MergeCall.collision?, if_neg hcollide]
    simp
  · exact m.collisions_note _ hne hl

/-- What two types with different names become: it goes by the first name, and its shapes are those
of both but for names. -/
theorem MergeCall.Follows.of_collision? {call : MergeCall} {e : Collision}
    (h : call.Follows overrides) (he : call.collision? overrides = some e) :
    e.merged.type.name = e.left.type.name ∧ ∀ abi,
      (e.merged.type.shape abi).erase = (e.left.type.shape abi).erase ∧
        (e.merged.type.shape abi).erase = (e.right.type.shape abi).erase := by
  obtain ⟨a, b, c⟩ := e
  obtain ⟨rfl, ⟨x, hx, -⟩, hne, hl⟩ := MergeCall.collision?_eq_some_iff.1 he
  cases h with
  | kept hkept => exact absurd hkept (not_or.2 ⟨hne, hl⟩)
  | merged _ _ hm =>
    obtain ⟨hname, hshape⟩ := NativeType.of_mergeParts hm
    have hx : a.type.name = some x := hx
    refine ⟨by rw [hname, preferredName, hx, Option.some_or], fun abi => ?_⟩
    obtain ⟨herase, hover⟩ := hshape abi
    have hleft : (c.type.shape abi).erase = (a.type.shape abi).erase := by
      rw [← hover, Shape.erase_overlay]
    exact ⟨hleft, hleft.trans herase⟩

/-- How two types disagree: on the 64-bit interface exactly if they agree on the other. -/
theorem MergeCall.Follows.of_error {call : MergeCall} {e : TypeConflict}
    (h : call.Follows overrides) (he : call.answer = .error e) :
    ∃ a b, call.left = some a ∧ call.right = some b ∧
      (a.type.shape e.abi).merge (b.type.shape e.abi) = .error e.cause ∧
      (e.abi = .bits64 ↔ ∃ t, a.type.shape32.merge b.type.shape32 = .ok t) := by
  cases h with
  | @failed a b d _ _ hm =>
    obtain rfl := Except.error.inj he
    obtain ⟨-, hmerge, h64⟩ := NativeType.mergeParts_eq_error_iff.1 hm
    refine ⟨a, b, rfl, rfl, hmerge, h64, ?_⟩
    rintro ⟨t, ht⟩
    cases habi : d.abi with
    | bits64 => rfl
    | bits32 =>
      rw [habi] at hmerge
      exact absurd (ht.symm.trans hmerge) nofun
  | _ => cases he

/-! ### Runs -/

namespace Client

variable {c : Client}

/-- The merger works with the given overrides and has recorded what is to be recorded of the merges
of the client, and each of these followed the rules, with operands and an answer that the client
holds. -/
structure Trail (overrides : Overrides) (c : Client) : Prop where
  rules : c.merger.overrides = overrides
  collisions : c.merger.collisions = c.merges.filterMap (MergeCall.collision? overrides)
  follows : ∀ call ∈ c.merges, call.Follows overrides
  held : ∀ call ∈ c.merges,
    c.Holds call.left ∧ c.Holds call.right ∧ ∀ r, call.answer = .ok r → c.Holds r

/-- A move takes nothing from the client. -/
theorem handles_step (c : Client) (v : Move) : c.session.handles ⊆ (c.step v).session.handles := by
  cases v with
  | call k => exact Session.handles_step k
  | merge a b =>
    rw [step, merge]
    split_ifs
    · split
      · exact List.Subset.refl _
      · exact List.subset_append_left _ _
    · exact List.Subset.refl _
  | canonicalize os => exact List.subset_append_left _ _

/-- A merge of instances that a client holds is one more merge call, whose answer the client
holds, and adds to the collisions what is to be recorded of it. -/
theorem step_merge {a b : Option Instance} (ha : c.Holds a) (hb : c.Holds b) :
    let call : MergeCall := ⟨a, b, (c.merger.merge c.session.instances a b).map Prod.fst⟩
    (c.step (.merge a b)).merges = c.merges ++ [call] ∧
      (c.step (.merge a b)).merger.overrides = c.merger.overrides ∧
      (c.step (.merge a b)).merger.collisions =
        c.merger.collisions ++ (call.collision? c.merger.overrides).toList ∧
      ∀ r, call.answer = .ok r → (c.step (.merge a b)).Holds r := by
  rw [step, if_pos ⟨ha, hb⟩, merge]
  cases hm : c.merger.merge c.session.instances a b with
  | error e => exact ⟨rfl, rfl, by simp [Except.map], fun r hr => by cases hr⟩
  | ok x =>
    obtain ⟨r, m, is⟩ := x
    refine ⟨rfl, Merger.overrides_merge hm, Merger.collisions_merge hm, ?_⟩
    rintro _ ⟨⟩ i hi
    exact List.mem_append_right _ (Option.mem_toList.2 hi)

/-- Every other move leaves the merges and the merger as they are. -/
theorem step_of_ne_merge {v : Move} (h : ∀ a b, v = .merge a b → ¬ (c.Holds a ∧ c.Holds b)) :
    (c.step v).merges = c.merges ∧ (c.step v).merger = c.merger := by
  cases v with
  | call k => exact ⟨rfl, rfl⟩
  | merge a b =>
    rw [step, if_neg (h a b rfl)]
    exact ⟨rfl, rfl⟩
  | canonicalize os => exact ⟨rfl, c.workbench.merger_canonicalize os⟩

theorem trail_start (overrides : Overrides) : (start overrides).Trail overrides where
  rules := rfl
  collisions := rfl
  follows := by simp [start]
  held := by simp [start]

theorem Trail.step (h : c.Trail overrides) (v : Move) : (c.step v).Trail overrides := by
  have hkeep {x : Option Instance} (hx : c.Holds x) : (c.step v).Holds x :=
    fun i hi => c.handles_step v (hx i hi)
  have hheld : ∀ call ∈ c.merges, (c.step v).Holds call.left ∧ (c.step v).Holds call.right ∧
      ∀ r, call.answer = .ok r → (c.step v).Holds r := fun call hcall =>
    ⟨hkeep (h.held call hcall).1, hkeep (h.held call hcall).2.1,
      fun r hr => hkeep ((h.held call hcall).2.2 r hr)⟩
  by_cases hv : ∃ a b, v = .merge a b ∧ c.Holds a ∧ c.Holds b
  · obtain ⟨a, b, rfl, ha, hb⟩ := hv
    obtain ⟨hmerges, hrules, hcollisions, hanswer⟩ := step_merge ha hb
    have hfollows := c.merger.follows_merge c.session.instances a b
    rw [h.rules] at hrules hcollisions hfollows
    refine ⟨hrules, ?_, ?_, ?_⟩
    · rw [hcollisions, hmerges, h.collisions, List.filterMap_append]
      cases hcall : MergeCall.collision? overrides _ <;> simp [hcall]
    · rw [hmerges]
      exact List.forall_mem_append.2 ⟨h.follows, by simpa using hfollows⟩
    · rw [hmerges]
      exact List.forall_mem_append.2 ⟨hheld, by simpa using ⟨hkeep ha, hkeep hb, hanswer⟩⟩
  · obtain ⟨hmerges, hmerger⟩ := step_of_ne_merge (v := v)
      fun a b e hab => hv ⟨a, b, e, hab⟩
    refine ⟨hmerger ▸ h.rules, ?_, ?_, ?_⟩
    · rw [hmerger, hmerges, h.collisions]
    · rw [hmerges]
      exact h.follows
    · rw [hmerges]
      exact hheld

/-- **The trail is right after any run.** -/
theorem trail_run (overrides : Overrides) (moves : List Move) :
    (run overrides moves).session.Sound ∧ (run overrides moves).Trail overrides :=
  run_invariant (trail_start overrides) (fun _ _ h v => h.step v) moves

/-- **The trail of merges is exact.** After any run of a client with any overrides:

* the instances that the client holds are told apart;
* the collisions are what is to be recorded of the merges that the client asked for, in their
  order: both operands, which have different names, are not equal and not overridden, and the very
  instance that the client got;
* a merge of whatever the client holds adds one merge call with its answer, and adds to the
  collisions what is to be recorded of it; no other move adds to either;
* each merge followed the rules, and the client holds its operands and its answer;
* what two types with different names became goes by the first name, and on both binary interfaces
  its shape is that of either but for names;
* a merge that failed reports two shapes that do not merge, and those of the 64-bit interface
  exactly if the 32-bit shapes merge. -/
theorem merge_trail (overrides : Overrides) (moves : List Move) :
    let c := run overrides moves
    c.session.instances.Known c.session.handles ∧
      c.merger.collisions = c.merges.filterMap (MergeCall.collision? overrides) ∧
      (∀ a b, c.Holds a → c.Holds b →
        let call : MergeCall := ⟨a, b, (c.merger.merge c.session.instances a b).map Prod.fst⟩
        (c.step (.merge a b)).merges = c.merges ++ [call] ∧
          (c.step (.merge a b)).merger.collisions =
            c.merger.collisions ++ (call.collision? overrides).toList) ∧
      (∀ v : Move, (∀ a b, v = .merge a b → ¬ (c.Holds a ∧ c.Holds b)) →
        (c.step v).merges = c.merges ∧ (c.step v).merger.collisions = c.merger.collisions) ∧
      (∀ call ∈ c.merges, call.Follows overrides ∧ c.Holds call.left ∧ c.Holds call.right ∧
        ∀ r, call.answer = .ok r → c.Holds r) ∧
      (∀ e ∈ c.merger.collisions, e.merged.type.name = e.left.type.name ∧ ∀ abi,
        (e.merged.type.shape abi).erase = (e.left.type.shape abi).erase ∧
          (e.merged.type.shape abi).erase = (e.right.type.shape abi).erase) ∧
      ∀ call ∈ c.merges, ∀ e, call.answer = .error e → ∃ a b,
        call.left = some a ∧ call.right = some b ∧
          (a.type.shape e.abi).merge (b.type.shape e.abi) = .error e.cause ∧
          (e.abi = .bits64 ↔ ∃ t, a.type.shape32.merge b.type.shape32 = .ok t) := by
  intro c
  obtain ⟨hsound, htrail⟩ : c.session.Sound ∧ c.Trail overrides := trail_run overrides moves
  refine ⟨hsound.known, htrail.collisions, ?_, ?_, ?_, ?_, ?_⟩
  · intro a b ha hb
    obtain ⟨hmerges, -, hcollisions, -⟩ := step_merge ha hb
    rw [htrail.rules] at hcollisions
    exact ⟨hmerges, hcollisions⟩
  · intro v hv
    obtain ⟨hmerges, hmerger⟩ := step_of_ne_merge hv
    exact ⟨hmerges, by rw [hmerger]⟩
  · exact fun call hcall => ⟨htrail.follows call hcall, htrail.held call hcall⟩
  · intro e he
    rw [htrail.collisions, List.mem_filterMap] at he
    obtain ⟨call, hcall, he⟩ := he
    exact (htrail.follows call hcall).of_collision? he
  · exact fun call hcall e he => (htrail.follows call hcall).of_error he

/-- Two types that differ in the name alone are merged into a third one. It does not merge with a
type that has another shape on the 64-bit interface. -/
theorem merge_trail_two_names :
    let moves : List Move :=
      [.call (.declare (some "A") .object none), .call (.declare (some "B") .object none),
        .merge (some ⟨2, .make (some (.ofDeclared "A")) .object none⟩)
          (some ⟨3, .make (some (.ofDeclared "B")) .object none⟩),
        .call (.declare (some "C") .object (some .classRef)),
        .merge (some ⟨4, .make (some (.ofDeclared "A")) .object none⟩)
          (some ⟨5, .make (some (.ofDeclared "C")) .object (some .classRef)⟩)]
    let c := run ⟨[]⟩ moves
    (∃ e ∈ c.merger.collisions,
      (e.left.serial, e.right.serial, e.merged.serial) = (2, 3, 4) ∧
        e.merged.type.name = e.left.type.name ∧ ∀ abi,
          (e.merged.type.shape abi).erase = (e.left.type.shape abi).erase ∧
            (e.merged.type.shape abi).erase = (e.right.type.shape abi).erase) ∧
      ∃ call ∈ c.merges, ∃ e, call.answer = .error e ∧ ∃ a b,
        call.left = some a ∧ call.right = some b ∧
          (a.type.shape e.abi).merge (b.type.shape e.abi) = .error e.cause ∧
          (e.abi = .bits64 ↔ ∃ t, a.type.shape32.merge b.type.shape32 = .ok t) := by
  intro moves c
  obtain ⟨-, -, -, -, -, hentry, herror⟩ := merge_trail ⟨[]⟩ moves
  have hrecorded : ∃ e ∈ c.merger.collisions,
      (e.left.serial, e.right.serial, e.merged.serial) = (2, 3, 4) := by decide +kernel
  have hfailed : ∃ call ∈ c.merges, call.answer.toOption = none := by decide +kernel
  obtain ⟨e, he, hserials⟩ := hrecorded
  refine ⟨⟨e, he, hserials, hentry e he⟩, ?_⟩
  obtain ⟨call, hcall, hnone⟩ := hfailed
  cases hanswer : call.answer with
  | ok r =>
    rw [hanswer] at hnone
    cases hnone
  | error e => exact ⟨call, hcall, e, hanswer, herror call hcall e hanswer⟩

end Client

end Bindery
