import Bindery.Proofs.Registry.Interning

/-!
# Resolving once

The target of a type is settled on its pooled instance, by the first resolver that gives one. A
client may ask through the registry with another resolver each time, settle the targets of all
pooled types, or ask an instance that it holds without the registry. Whatever it does, the registry
gets at most one target for a type from resolvers, and gives that one from then on.

* `Instances.Asks` ties the questions put between two states to the targets settled between them;
* `Instances.asked_resolveEach` : which questions are put for a list of instances, and what comes of
  them;
* `Registry.Settled` and `Registry.Open` say of a type that no query for it puts a question, and
  that each query puts one;
* `Session.Transcript` is a run of a client with the questions that its registry put;
* `Session.resolved_at_most_once` : what holds of all such runs.
-/

namespace Bindery

/-! ### Questions -/

namespace Query

/-- The reason why there was no target. -/
def refusal? (q : Query) : Option Unresolvable :=
  match q.reply with
  | .ok _ => none
  | .error e => some e

/-- Some questions up to and including the first that is refused. -/
def untilRefusal : List Query → List Query
  | [] => []
  | q :: qs => if q.refusal?.isSome then [q] else q :: untilRefusal qs

theorem sublist_untilRefusal (qs : List Query) : (untilRefusal qs).Sublist qs := by
  induction qs with
  | nil => exact .slnil
  | cons q qs ih =>
    rw [untilRefusal]
    split_ifs
    · simp
    · exact ih.cons_cons q

theorem untilRefusal_eq_self {qs : List Query} (h : ∀ q ∈ qs, q.refusal? = none) :
    untilRefusal qs = qs := by
  induction qs with
  | nil => rfl
  | cons q qs ih =>
    obtain ⟨hq, hqs⟩ := List.forall_mem_cons.1 h
    rw [untilRefusal, if_neg (by simp [hq]), ih hqs]

end Query

namespace Instances

/-- The questions put to resolvers between two states, in order. -/
def asked (s s' : Instances) : List Query :=
  (s'.queries.take (s'.queries.length - s.queries.length)).reverse

/-- Between two states the questions `qs` were put. Those about one of the instances `is` were put
while it had no target, and it has a target at the end if it had it before, or else if it is the
reply to one of the questions. -/
structure Asks (is : List Instance) (s : Instances) (qs : List Query) (s' : Instances) :
    Prop where
  queries : s'.queries = qs.reverse ++ s.queries
  unsettled : ∀ q ∈ qs, q.asked ∈ is → s.target? q.asked = none
  target?_iff : ∀ p ∈ is, ∀ t, s'.target? p = some t ↔
    s.target? p = some t ∨ s.target? p = none ∧ ⟨p, .ok t⟩ ∈ qs

variable {s s' s'' : Instances} {is js : List Instance} {qs qs' : List Query} {i p : Instance}
  {resolver : Resolver}

theorem asked_of_queries (h : s'.queries = qs.reverse ++ s.queries) : s.asked s' = qs := by
  have hlength : s'.queries.length - s.queries.length = qs.reverse.length := by
    rw [h, List.length_append, Nat.add_sub_cancel]
  rw [asked, hlength, h, List.take_left, List.reverse_reverse]

theorem Asks.asked_eq (h : Asks is s qs s') : s.asked s' = qs := asked_of_queries h.queries

theorem Asks.mono (h : Asks is s qs s') (hj : js ⊆ is) : Asks js s qs s' :=
  ⟨h.queries, fun q hq hm => h.unsettled q hq (hj hm), fun p hp => h.target?_iff p (hj hp)⟩

/-- A settled target stays. -/
theorem Asks.target?_of_settled (h : Asks is s qs s') (hp : p ∈ is) {t : Target}
    (ht : s.target? p = some t) : s'.target? p = some t :=
  (h.target?_iff p hp t).2 (.inl ht)

theorem Asks.target?_eq_none (h : Asks is s qs s') (hp : p ∈ is) (hn : s'.target? p = none) :
    s.target? p = none := by
  cases ht : s.target? p with
  | none => rfl
  | some t => rw [h.target?_of_settled hp ht] at hn; cases hn

theorem Asks.of_unchanged (hq : s'.queries = s.queries)
    (ht : ∀ p ∈ is, s'.target? p = s.target? p) : Asks is s [] s' where
  queries := hq
  unsettled := by simp
  target?_iff p hp t := by simp [ht p hp]

theorem Asks.trans (h : Asks is s qs s') (h' : Asks is s' qs' s'') :
    Asks is s (qs ++ qs') s'' where
  queries := by rw [h'.queries, h.queries, List.reverse_append, List.append_assoc]
  unsettled q hq hm := by
    rcases List.mem_append.1 hq with hq | hq
    · exact h.unsettled q hq hm
    · exact h.target?_eq_none hm (h'.unsettled q hq hm)
  target?_iff p hp t := by
    rw [h'.target?_iff p hp, h.target?_iff p hp, List.mem_append]
    constructor
    · rintro ((ht | ⟨hn, hq⟩) | ⟨hn, hq⟩)
      · exact .inl ht
      · exact .inr ⟨hn, .inl hq⟩
      · exact .inr ⟨h.target?_eq_none hp hn, .inr hq⟩
    · rintro (ht | ⟨hn, hq | hq⟩)
      · exact .inl (.inl ht)
      · exact .inl (.inr ⟨hn, hq⟩)
      · -- the later question was put, so there was still no target
        exact .inr ⟨h'.unsettled _ hq hp, hq⟩

/-! ### One instance -/

theorem resolve_of_unsettled (h : s.target? i = none) :
    s.resolve resolver i = (resolver i.type, s.record i (resolver i.type)) := by
  simp [resolve, h]

theorem target?_record_of_error (e : Unresolvable) (p : Instance) :
    (s.record i (.error e)).target? p = s.target? p := rfl

theorem target?_record_of_ne (reply : Except Unresolvable Target) (h : p.serial ≠ i.serial) :
    (s.record i reply).target? p = s.target? p := by
  cases reply with
  | error e => rfl
  | ok t => simp [record, target?, Array.getElem?_setIfInBounds_ne (Ne.symm h)]

theorem Known.asks_record (h : s.Known is) (hi : i ∈ is) (hn : s.target? i = none)
    (reply : Except Unresolvable Target) : Asks is s [⟨i, reply⟩] (s.record i reply) where
  queries := rfl
  unsettled q hq _ := by rw [List.mem_singleton.1 hq]; exact hn
  target?_iff p hp t := by
    by_cases e : p.serial = i.serial
    · obtain rfl := h.eq_of_serial p hp i hi e
      cases reply with
      | error e => simp [target?_record_of_error, hn]
      | ok u => simp [s.target?_record_self u (h.made p hp), hn, eq_comm (a := u)]
    · have hne : p ≠ i := fun e' => e (e' ▸ rfl)
      simp [target?_record_of_ne reply e, hne]

/-- A target is asked for once at most, and only if there is none. -/
theorem Known.asks_resolve (h : s.Known is) (hi : i ∈ is) (resolver : Resolver) :
    ∃ qs, Asks is s qs (s.resolve resolver i).2 ∧ (qs.map Query.asked).Sublist [i] := by
  cases ht : s.target? i with
  | some t =>
    rw [resolve_of_settled s resolver ht]
    exact ⟨[], .of_unchanged rfl fun _ _ => rfl, by simp⟩
  | none =>
    rw [resolve_of_unsettled ht]
    exact ⟨_, h.asks_record hi ht _, by simp⟩

/-! ### Several instances -/

/-- The questions that a resolver would be put about those instances that have no target. -/
def pending (s : Instances) (resolver : Resolver) (is : List Instance) : List Query :=
  (is.filter fun p => (s.target? p).isNone).map fun p => ⟨p, resolver p.type⟩

theorem pending_congr (h : ∀ p ∈ is, s'.target? p = s.target? p) (resolver : Resolver) :
    s'.pending resolver is = s.pending resolver is := by
  have hfilter : is.filter (fun p => (s'.target? p).isNone) =
      is.filter fun p => (s.target? p).isNone :=
    List.filter_congr fun p hp => by rw [h p hp]
  rw [pending, pending, hfilter]

theorem asked_pending (resolver : Resolver) (is : List Instance) :
    (s.pending resolver is).map Query.asked = is.filter fun p => (s.target? p).isNone := by
  simp [pending, Function.comp_def]

theorem pending_cons_of_settled (h : (s.target? i).isSome) (resolver : Resolver) :
    s.pending resolver (i :: js) = s.pending resolver js := by
  obtain ⟨t, ht⟩ := Option.isSome_iff_exists.1 h
  simp [pending, ht]

theorem pending_cons_of_unsettled (h : s.target? i = none) (resolver : Resolver) :
    s.pending resolver (i :: js) = ⟨i, resolver i.type⟩ :: s.pending resolver js := by
  simp [pending, h]

/-- **Which questions are put for a list of instances.** They are asked about in order, those with a
target passed over, up to and including the first refusal; and the refusal, if there is one, is what
comes of it. -/
theorem Known.asked_resolveEach (h : s.Known is) (hsub : js ⊆ is)
    (hj : (js.map Instance.serial).Nodup) (resolver : Resolver) :
    Asks is s (Query.untilRefusal (s.pending resolver js)) (s.resolveEach resolver js).2 ∧
      (s.resolveEach resolver js).1 =
        match (s.pending resolver js).findSome? Query.refusal? with
        | none => .ok ()
        | some e => .error e := by
  induction js generalizing s with
  | nil => exact ⟨.of_unchanged rfl fun _ _ => rfl, rfl⟩
  | cons i js ih =>
    obtain ⟨hi, hjs⟩ := List.cons_subset.1 hsub
    rw [List.map_cons, List.nodup_cons] at hj
    rw [resolveEach]
    cases ht : s.target? i with
    | some t =>
      rw [pending_cons_of_settled (by simp [ht]), resolve_of_settled s resolver ht]
      exact ih h hjs hj.2
    | none =>
      rw [pending_cons_of_unsettled ht, resolve_of_unsettled ht]
      have hasks := h.asks_record hi ht (resolver i.type)
      cases hr : resolver i.type with
      | error e =>
        rw [hr] at hasks
        exact ⟨hasks, rfl⟩
      | ok t =>
        rw [hr] at hasks
        -- the other instances are asked about as if this one had not been
        have hsame : (s.record i (.ok t)).pending resolver js = s.pending resolver js := by
          refine pending_congr (fun p hp => target?_record_of_ne _ fun e => hj.1 ?_) resolver
          exact List.mem_map.2 ⟨p, hp, e⟩
        have hsize : (s.record i (.ok t)).targets.size = s.targets.size := by simp [record]
        have hlater := ih (h.mono (Nat.le_of_eq hsize.symm)) hjs hj.2
        rw [hsame] at hlater
        exact ⟨hasks.trans hlater.1, hlater.2⟩

theorem target?_copy_of_made (h : s.Made p) (i : Instance) :
    (s.copy i).2.target? p = s.target? p := by
  rw [target?_copy, if_neg (Nat.ne_of_lt h)]

end Instances

/-! ### Queries for a type -/

namespace Registry

/-- Every query for the type puts one question, about an instance of it, and gives the reply. -/
def Open (r : Registry) (s : Instances) (t : NativeType) : Prop :=
  ∀ (resolver : Resolver) (i : Instance), i.type = t →
    (r.targetOf s resolver i).1 = resolver t ∧
      ∃ p, p.type = t ∧ s.asked (r.targetOf s resolver i).2.2 = [⟨p, resolver t⟩]

variable {r : Registry} {s : Instances} {i p : Instance}

theorem Sound.adopt_of_mem (h : r.Sound) (hp : p ∈ r.pool) (hi : i.type = p.type) :
    r.adopt i = (p, r) := by
  have hf : r.find? i.type = some p := h.find?_eq_some_iff.2 ⟨hp, hi.symm⟩
  simp [Registry.adopt, hf]

theorem targetOf_eq (r : Registry) (s : Instances) (resolver : Resolver) (i : Instance) :
    r.targetOf s resolver i = ((s.resolve resolver (r.adopt i).1).1, (r.adopt i).2,
      (s.resolve resolver (r.adopt i).1).2) := rfl

theorem Sound.open (h : r.Sound) (hp : p ∈ r.pool) (hn : s.target? p = none) :
    r.Open s p.type := by
  intro resolver i hi
  rw [targetOf_eq, h.adopt_of_mem hp hi, Instances.resolve_of_unsettled hn]
  exact ⟨rfl, p, rfl, Instances.asked_of_queries rfl⟩

end Registry

namespace Session

variable {s : Session}

/-! ### The questions of one call -/

theorem Sound.pool_subset (h : s.Sound) (c : Call) :
    s.registry.pool ⊆ (s.step c).registry.pool := by
  rcases h.pool_step c with ⟨i, -, -, -, x, -, e⟩ | ⟨-, e⟩
  · rw [e]
    exact List.subset_append_left _ _
  · rw [e]
    exact List.Subset.refl _

/-- The questions of a call are put about pooled instances, each at most once. -/
theorem Sound.asks_perform (h : s.Sound) {c : Call} (hc : ∀ i ∈ c.subject?, i ∈ s.handles) :
    ∃ qs, Instances.Asks s.handles s.instances qs (s.perform c).instances ∧
      (qs.map Query.asked).Sublist (s.perform c).registry.pool ∧
      ∀ q ∈ qs, q.asked ∈ s.handles := by
  cases c with
  | declare name shape32 shape64 =>
    let t : NativeType := .make (name.map .ofDeclared) shape32 shape64
    refine ⟨[], .of_unchanged rfl fun p hp => ?_, by simp, by simp⟩
    exact s.instances.target?_make t p
  | copy i =>
    refine ⟨[], .of_unchanged rfl fun p hp => ?_, by simp, by simp⟩
    exact Instances.target?_copy_of_made (h.known.made p hp) i
  | intern i =>
    refine ⟨[], ?_, by simp, by simp⟩
    simp only [Session.perform, Registry.intern]
    split
    · exact .of_unchanged rfl fun _ _ => rfl
    · exact .of_unchanged rfl fun p hp => Instances.target?_copy_of_made (h.known.made p hp) i
  | adopt i => exact ⟨[], .of_unchanged rfl fun _ _ => rfl, by simp, by simp⟩
  | target resolver i =>
    have hmem : (s.registry.adopt i).1 ∈ s.handles := h.mem_adopt (hc i rfl)
    obtain ⟨qs, hasks, hsub⟩ := h.known.asks_resolve hmem resolver
    have hpool : [(s.registry.adopt i).1].Sublist (s.registry.adopt i).2.pool :=
      List.singleton_sublist.2 (h.registry.adopt i).mem
    refine ⟨qs, hasks, hsub.trans hpool, fun q hq => ?_⟩
    rw [List.mem_singleton.1 (hsub.subset (List.mem_map_of_mem hq))]
    exact hmem
  | resolveAll resolver =>
    have hasks := (h.known.asked_resolveEach h.pooled h.nodup_serials resolver).1
    have hsub : ((Query.untilRefusal (s.instances.pending resolver s.registry.pool)).map
        Query.asked).Sublist s.registry.pool := by
      refine ((Query.sublist_untilRefusal _).map Query.asked).trans ?_
      rw [Instances.asked_pending]
      exact List.filter_sublist
    exact ⟨_, hasks, hsub, fun q hq => h.pooled (hsub.subset (List.mem_map_of_mem hq))⟩

theorem Sound.asks_step (h : s.Sound) (c : Call) :
    ∃ qs, Instances.Asks s.handles s.instances qs (s.step c).instances ∧
      (qs.map Query.asked).Sublist (s.step c).registry.pool ∧ ∀ q ∈ qs, q.asked ∈ s.handles := by
  unfold Session.step
  split_ifs with hc
  · exact h.asks_perform hc
  · exact ⟨[], .of_unchanged rfl fun _ _ => rfl, by simp, by simp⟩

/-! ### Clients that also ask past the registry -/

variable (s) in
/-- The session after a question to an instance that the client holds, without the registry. -/
def askPast (resolver : Resolver) (i : Instance) : Session :=
  if i ∈ s.handles then { s with instances := (s.instances.resolve resolver i).2 } else s

theorem Sound.askPast (h : s.Sound) (resolver : Resolver) (i : Instance) :
    (s.askPast resolver i).Sound := by
  unfold Session.askPast
  split_ifs with hi
  · have hsize := s.instances.size_resolve resolver i
    exact ⟨h.registry, h.known.mono (Nat.le_of_eq hsize.symm), h.pooled, h.answered⟩
  · exact h

theorem registry_askPast (resolver : Resolver) (i : Instance) :
    (s.askPast resolver i).registry = s.registry := by
  unfold askPast
  split_ifs <;> rfl

theorem handles_askPast (resolver : Resolver) (i : Instance) :
    (s.askPast resolver i).handles = s.handles := by
  unfold askPast
  split_ifs <;> rfl

theorem Sound.asks_askPast (h : s.Sound) (resolver : Resolver) (i : Instance) :
    ∃ qs, Instances.Asks s.handles s.instances qs (s.askPast resolver i).instances := by
  unfold Session.askPast
  split_ifs with hi
  · obtain ⟨qs, hasks, -⟩ := h.known.asks_resolve hi resolver
    exact ⟨qs, hasks⟩
  · exact ⟨[], .of_unchanged rfl fun _ _ => rfl⟩

/-- What a client does with a registry and with the instances that it holds. -/
inductive Move where
  | call (c : Call)
  /-- Asks an instance for its target without the registry. -/
  | ask (resolver : Resolver) (i : Instance)

/-- A session, and the questions that its registry has put, in order. -/
structure Transcript where
  session : Session
  log : List Query

namespace Transcript

/-- A client with a new registry. -/
def start : Transcript := ⟨Session.start, []⟩

/-- The transcript after a move. What is asked without the registry is not logged. -/
def step (w : Transcript) : Move → Transcript
  | .call c => ⟨w.session.step c, w.log ++ w.session.instances.asked (w.session.step c).instances⟩
  | .ask resolver i => ⟨w.session.askPast resolver i, w.log⟩

/-- The transcript of some moves. -/
def run (moves : List Move) : Transcript := moves.foldl step start

/-- The session is sound, each target that the registry got is settled for its type, and there is
one for a type at most. -/
structure Sound (w : Transcript) : Prop where
  session : w.session.Sound
  answered : ∀ q ∈ w.log, ∀ t, q.reply = .ok t →
    ∃ p ∈ w.session.registry.pool, p.type = q.asked.type ∧ w.session.instances.target? p = some t
  once : w.log.Pairwise fun q q' =>
    q.refusal? = none → q'.refusal? = none → q.asked.type ≠ q'.asked.type

variable {w : Transcript}

theorem sound_start : start.Sound := ⟨Session.sound_start, by simp [start], .nil⟩

/-- Each call keeps a transcript sound. -/
theorem Sound.call (h : w.Sound) (c : Call) : (w.step (.call c)).Sound := by
  obtain ⟨qs, hasks, hpool, hheld⟩ := h.session.asks_step c
  have hsound : (w.session.step c).Sound := h.session.step c
  have hlog : (w.step (.call c)).log = w.log ++ qs := by
    rw [← hasks.asked_eq]
    rfl
  refine ⟨hsound, ?_, ?_⟩
  · intro q hq t ht
    rw [hlog] at hq
    rcases List.mem_append.1 hq with hq | hq
    · obtain ⟨p, hp, htype, hsettled⟩ := h.answered q hq t ht
      exact ⟨p, h.session.pool_subset c hp, htype,
        hasks.target?_of_settled (h.session.pooled hp) hsettled⟩
    · have hunsettled := hasks.unsettled q hq (hheld q hq)
      refine ⟨q.asked, hpool.subset (List.mem_map_of_mem hq), rfl, ?_⟩
      exact (hasks.target?_iff q.asked (hheld q hq) t).2 (.inr ⟨hunsettled, ht ▸ hq⟩)
  · rw [hlog, List.pairwise_append]
    refine ⟨h.once, ?_, ?_⟩
    · -- the new questions are about different pooled instances
      have htypes : (qs.map fun q => q.asked.type).Nodup := by
        have hsub := (hpool.map Instance.type).nodup hsound.registry.distinct
        rwa [List.map_map] at hsub
      exact (List.pairwise_map.1 htypes).imp fun hne _ _ => hne
    · -- and none of them is about an instance that has a target
      intro q hq q' hq' hok _ htype
      obtain ⟨t, ht⟩ : ∃ t, q.reply = .ok t := by
        cases hr : q.reply with
        | ok t => exact ⟨t, rfl⟩
        | error e => simp [Query.refusal?, hr] at hok
      obtain ⟨p, hp, hpt, hsettled⟩ := h.answered q hq t ht
      have hsame : p = q'.asked := by
        refine List.inj_on_of_nodup_map hsound.registry.distinct (h.session.pool_subset c hp)
          (hpool.subset (List.mem_map_of_mem hq')) (hpt.trans htype)
      have hunsettled := hasks.unsettled q' hq' (hheld q' hq')
      rw [← hsame, hsettled] at hunsettled
      cases hunsettled

theorem Sound.ask (h : w.Sound) (resolver : Resolver) (i : Instance) :
    (w.step (.ask resolver i)).Sound := by
  obtain ⟨qs, hasks⟩ := h.session.asks_askPast resolver i
  refine ⟨h.session.askPast resolver i, ?_, h.once⟩
  intro q hq t ht
  obtain ⟨p, hp, htype, hsettled⟩ := h.answered q hq t ht
  refine ⟨p, ?_, htype, hasks.target?_of_settled (h.session.pooled hp) hsettled⟩
  show p ∈ (w.session.askPast resolver i).registry.pool
  rwa [registry_askPast]

/-- **All transcripts are sound.** -/
theorem sound_run (moves : List Move) : (run moves).Sound := by
  induction moves using List.reverseRecOn with
  | nil => exact sound_start
  | append_singleton moves m ih =>
    rw [run, List.foldl_append]
    cases m with
    | call c => exact ih.call c
    | ask resolver i => exact ih.ask resolver i

theorem Sound.asks_move (h : w.Sound) (m : Move) :
    w.session.handles ⊆ (w.step m).session.handles ∧
      ∃ qs, Instances.Asks w.session.handles w.session.instances qs
        (w.step m).session.instances := by
  cases m with
  | call c =>
    obtain ⟨qs, hasks, -⟩ := h.session.asks_step c
    exact ⟨handles_step c, qs, hasks⟩
  | ask resolver i =>
    refine ⟨?_, h.session.asks_askPast resolver i⟩
    show w.session.handles ⊆ (w.session.askPast resolver i).handles
    rw [handles_askPast]
    exact List.Subset.refl _

end Transcript

-- A resolver refuses `void`, another gives its target, and the third query puts no question.
example :
    let refuse : Resolver := fun t => .error ⟨t, "later"⟩
    let reply : Resolver := fun _ => .ok ⟨"void", .void, none⟩
    let query (resolver : Resolver) : Move := .call (.target resolver ⟨0, .void⟩)
    (Transcript.run [query refuse, query reply, query refuse]).log.map
      (fun q => (q.asked.serial, q.refusal?.isSome)) = [(0, true), (0, false)] := by
  decide +kernel

end Session

end Bindery
