import Bindery.Binding.Mapping
import Bindery.Proofs.Registry.Resolution

/-!
# Registries that one mapping resolves

A client may ask for targets early or late, through the registry or past it, and make copies of
instances that have one. If all its questions went to one mapping, then every instance that it holds
has the target that the mapping gives to its type, or none yet; and once all are asked for, all
pooled instances have theirs.

* `Instances.AskedOnly` says that all questions went to a mapping;
* `Registry.resolveAll_mapping` : a mapping refuses none of them;
* `Registry.Sound.targets_resolveAll` : what comes of asking it for all targets;
* `Session.Mapped` says that the targets are those of the mapping;
* `Session.Sound.new_handle` : what is known of an instance that a call makes;
* `Session.Transcript.mapped_run` : which holds of all runs;
* `Session.resolveAll_of_mapped` : what comes of it for a client.
-/

namespace Bindery

/-- All questions that were put went to a mapping. -/
def Instances.AskedOnly (s : Instances) (m : Binding.Mapping) : Prop :=
  ∀ q ∈ s.queries, q.reply = m.resolver q.asked.type

instance (s : Instances) (m : Binding.Mapping) : Decidable (s.AskedOnly m) :=
  inferInstanceAs (Decidable (∀ q ∈ s.queries, q.reply = m.resolver q.asked.type))

/-- A mapping refuses no instance. -/
theorem Instances.resolveEach_mapping (m : Binding.Mapping) (s : Instances) (is : List Instance) :
    (Instances.resolveEach m.resolver s is).1 = .ok () := by
  induction is generalizing s with
  | nil => rfl
  | cons i is ih =>
    rw [resolveEach]
    cases ht : s.target? i with
    | some t =>
      rw [resolve_of_settled s m.resolver ht]
      exact ih s
    | none =>
      rw [resolve_of_unsettled ht]
      exact ih _

theorem Registry.resolveAll_mapping (r : Registry) (s : Instances) (m : Binding.Mapping) :
    (r.resolveAll s m.resolver).1 = .ok r.pool.length := by
  show (Instances.resolveEach m.resolver s r.pool).1.map _ = _
  rw [Instances.resolveEach_mapping]
  rfl

/-- Once a mapping was asked for all targets, each pooled instance has that of the mapping, unless
it had another one before. -/
theorem Registry.Sound.targets_resolveAll {r : Registry} {s : Instances} {m : Binding.Mapping}
    (h : r.Sound) (hk : s.Known r.pool)
    (hm : ∀ p ∈ r.pool, ∀ t, s.target? p = some t → t = m.target p.type) :
    ∀ p ∈ r.pool, (r.resolveAll s m.resolver).2.target? p = some (m.target p.type) := by
  intro p hp
  obtain ⟨hasks, -⟩ :=
    hk.asked_resolveEach (List.Subset.refl _) (h.nodup_serials hk) m.resolver
  have hgiven : ∀ q ∈ s.pending m.resolver r.pool, q.refusal? = none := by
    intro q hq
    obtain ⟨p, -, rfl⟩ := List.mem_map.1 hq
    rfl
  rw [Query.untilRefusal_eq_self hgiven] at hasks
  refine (hasks.target?_iff p hp _).2 ?_
  cases ht : s.target? p with
  | some t => exact .inl (by rw [hm p hp t ht])
  | none =>
    refine .inr ⟨rfl, List.mem_map.2 ⟨p, ?_, rfl⟩⟩
    exact List.mem_filter.2 ⟨hp, by simp [ht]⟩

namespace Session

/-- The targets of the instances that a client holds are those of a mapping. -/
def Mapped (s : Session) (m : Binding.Mapping) : Prop :=
  ∀ i ∈ s.handles, ∀ t, s.instances.target? i = some t → t = m.target i.type

variable {s : Session} {m : Binding.Mapping}

/-- An instance that the client holds after a call was held before, or has no target, or has the
type and the target of one that was held before. -/
theorem Sound.new_handle (h : s.Sound) {c : Call} (hc : ∀ i ∈ c.subject?, i ∈ s.handles)
    {j : Instance} (hj : j ∈ (s.perform c).handles) :
    j ∈ s.handles ∨ (s.perform c).instances.target? j = none ∨
      ∃ i ∈ s.handles, i.type = j.type ∧
        (s.perform c).instances.target? j = s.instances.target? i := by
  have copied : ∀ i, (s.instances.copy i).2.target? (s.instances.copy i).1 =
      s.instances.target? i := fun i => by rw [Instances.target?_copy]; exact if_pos rfl
  cases c with
  | declare name shape32 shape64 =>
    rcases List.mem_append.1 hj with hj | hj
    · exact .inl hj
    · obtain rfl := List.mem_singleton.1 hj
      exact .inr (.inl (s.instances.target?_make_self _))
  | copy i =>
    rcases List.mem_append.1 hj with hj | hj
    · exact .inl hj
    · obtain rfl := List.mem_singleton.1 hj
      exact .inr (.inr ⟨i, hc i rfl, rfl, copied i⟩)
  | intern i =>
    rcases List.mem_append.1 hj with hj | hj
    · exact .inl hj
    · obtain rfl := List.mem_singleton.1 hj
      have hintern : (s.registry.intern s.instances i).1 ∈ s.handles ∨
          (s.registry.intern s.instances i).1.type = i.type ∧
            (s.registry.intern s.instances i).2.2.target? (s.registry.intern s.instances i).1 =
              s.instances.target? i := by
        unfold Registry.intern
        split
        · exact .inl (h.pooled (h.registry.find?_eq_some_iff.1 ‹_›).1)
        · exact .inr ⟨rfl, copied i⟩
      rcases hintern with hp | ⟨htype, he⟩
      · exact .inl hp
      · exact .inr (.inr ⟨i, hc i rfl, htype.symm, he⟩)
  | adopt i =>
    rcases List.mem_append.1 hj with hj | hj
    · exact .inl hj
    · obtain rfl := List.mem_singleton.1 hj
      exact .inl (h.mem_adopt (hc i rfl))
  | target resolver i => exact .inl hj
  | resolveAll resolver => exact .inl hj

/-- What is settled by questions to the mapping is the mapping's. -/
theorem Mapped.of_asks (hm : s.Mapped m) {qs : List Query} {is : Instances}
    (h : Instances.Asks s.handles s.instances qs is) (hq : is.AskedOnly m) {i : Instance}
    (hi : i ∈ s.handles) {t : Target} (ht : is.target? i = some t) : t = m.target i.type := by
  rcases (h.target?_iff i hi t).1 ht with ht | ⟨-, hmem⟩
  · exact hm i hi t ht
  · have hreply := hq ⟨i, .ok t⟩ (by rw [h.queries]; simp [hmem])
    exact Except.ok.inj hreply

theorem Mapped.perform (h : s.Sound) (hm : s.Mapped m) {c : Call}
    (hc : ∀ i ∈ c.subject?, i ∈ s.handles) (hq : (s.perform c).instances.AskedOnly m) :
    (s.perform c).Mapped m := by
  obtain ⟨qs, hasks, -⟩ := h.asks_perform hc
  intro j hj t ht
  rcases h.new_handle hc hj with hj | hn | ⟨i, hi, htype, he⟩
  · exact hm.of_asks hasks hq hj ht
  · rw [hn] at ht
    cases ht
  · rw [he] at ht
    rw [← htype]
    exact hm i hi t ht

theorem Mapped.step (h : s.Sound) (hm : s.Mapped m) {c : Call}
    (hq : (s.step c).instances.AskedOnly m) : (s.step c).Mapped m := by
  unfold Session.step at hq ⊢
  split_ifs at hq ⊢ with hc
  · exact hm.perform h hc hq
  · exact hm

theorem Mapped.askPast (h : s.Sound) (hm : s.Mapped m) {resolver : Resolver} {i : Instance}
    (hq : (s.askPast resolver i).instances.AskedOnly m) : (s.askPast resolver i).Mapped m := by
  obtain ⟨qs, hasks⟩ := h.asks_askPast resolver i
  intro j hj t ht
  rw [handles_askPast] at hj
  exact hm.of_asks hasks hq hj ht

theorem mapped_start (m : Binding.Mapping) : start.Mapped m := by
  intro i _ t ht
  simp only [start, Registry.new, Instances.target?_make] at ht
  cases ht

namespace Transcript

/-- **If all questions of a run went to a mapping, the targets are those of the mapping.** -/
theorem mapped_run {moves : List Move} (hq : (run moves).session.instances.AskedOnly m) :
    (run moves).session.Mapped m := by
  induction moves using List.reverseRecOn with
  | nil => exact mapped_start m
  | append_singleton moves move ih =>
    have hrun : run (moves ++ [move]) = (run moves).step move := by
      rw [run, List.foldl_append]
      rfl
    have hsound := sound_run moves
    obtain ⟨-, qs, hasks⟩ := hsound.asks_move move
    rw [hrun] at hq ⊢
    -- questions that were put before the move are still there
    have hbefore : (run moves).session.Mapped m :=
      ih fun q hmem => hq q (by rw [hasks.queries]; exact List.mem_append_right _ hmem)
    cases move with
    | call c => exact hbefore.step hsound.session hq
    | ask resolver i => exact hbefore.askPast hsound.session hq

end Transcript

/-- The mapping then gives every pooled instance its target. -/
theorem resolveAll_of_mapped (h : s.Sound) (hm : s.Mapped m) :
    (s.registry.resolveAll s.instances m.resolver).1 = .ok s.registry.pool.length ∧
      ∀ p ∈ s.registry.pool,
        (s.registry.resolveAll s.instances m.resolver).2.target? p = some (m.target p.type) :=
  ⟨s.registry.resolveAll_mapping s.instances m,
    h.registry.targets_resolveAll (h.known.subset h.pooled) fun p hp => hm p (h.pooled hp)⟩

end Session

end Bindery
