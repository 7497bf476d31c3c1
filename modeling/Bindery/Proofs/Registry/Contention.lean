import Bindery.Proofs.Registry.Interning
import Bindery.Registry.Lifecycle
import Mathlib.Logic.Function.Basic

/-!
# Scanners that share a registry

Several scanners intern into one registry. Each takes two steps for a request: a look-up, which
others may do at the same time, and, if that found nothing, an interning that has the registry for
itself. Between the two any number of other scanners may do any of their steps, and may intern the
very type that was not found.

Yet it is as if each request were served at once, at the last step it takes. A look-up that finds
an instance gives what interning would have given, and one that finds nothing changes nothing; the
interning after it looks again, so whatever was found out before does not matter.

* `Request` is what a scanner asks for, and `Request.serve` how one owner of the registry serves it;
* `Contention` is a registry with its scanners, `Contention.step` one step of one of them, and
  `Contention.run` any interleaving of their steps;
* `Contention.step_cases` : each step does nothing to the registry or serves a request at once;
* `Contention.Atomic` says that all was as if requests had been served one after the other;
* `Contention.interning_in_steps` is the main result.
-/

namespace Bindery

/-! ### Requests -/

/-- What a scanner asks of a registry. -/
inductive Request where
  /-- To intern a type by value. -/
  | intern (i : Instance)
  /-- To intern an instance. -/
  | adopt (i : Instance)
deriving DecidableEq

/-- The type that is to be interned. -/
def Request.type : Request → NativeType
  | .intern i | .adopt i => i.type

/-- A registry, and the instances made so far. -/
structure Store where
  registry : Registry
  instances : Instances

/-- Serves a request at once. -/
def Request.serve (st : Store) : Request → Instance × Store
  | .intern i =>
    let (p, r, s) := st.registry.intern st.instances i
    (p, ⟨r, s⟩)
  | .adopt i =>
    let (p, r) := st.registry.adopt i
    (p, { st with registry := r })

/-- Serves requests one after the other. -/
def Store.serveEach (st : Store) : List Request → List Instance × Store
  | [] => ([], st)
  | q :: qs =>
    let (p, st) := q.serve st
    let (ps, st) := st.serveEach qs
    (p :: ps, st)

/-- The registry of a client, and all instances. -/
def Session.store (s : Session) : Store := ⟨s.registry, s.instances⟩

section Requests

variable {st : Store} {q : Request} {p : Instance}

theorem Store.serveEach_append_singleton (st : Store) (qs : List Request) (q : Request) :
    st.serveEach (qs ++ [q]) =
      ((st.serveEach qs).1 ++ [(q.serve (st.serveEach qs).2).1],
        (q.serve (st.serveEach qs).2).2) := by
  induction qs generalizing st with
  | nil => rfl
  | cons q' qs ih => simp [Store.serveEach, ih]

/-- A request for a pooled type is served by its instance, and changes nothing. -/
theorem Request.serve_of_find? (h : st.registry.find? q.type = some p) : q.serve st = (p, st) := by
  cases q with
  | intern i => simp [serve, Registry.intern, show st.registry.find? i.type = some p from h]
  | adopt i => simp [serve, Registry.adopt, show st.registry.find? i.type = some p from h]

theorem Request.interned_serve (h : st.registry.Sound) (q : Request) :
    st.registry.Interned q.type (q.serve st).1 (q.serve st).2.registry := by
  cases q with
  | intern i => exact h.intern st.instances i
  | adopt i => exact h.adopt i

/-- Whatever was interned is pooled in the end. -/
theorem Store.answered_serveEach (h : st.registry.Sound) (qs : List Request) :
    (st.serveEach qs).2.registry.Sound ∧
      List.Forall₂ (fun q p => p ∈ (st.serveEach qs).2.registry.pool ∧ p.type = q.type) qs
        (st.serveEach qs).1 := by
  induction qs using List.reverseRecOn with
  | nil => exact ⟨h, .nil⟩
  | append_singleton qs q ih =>
    obtain ⟨hs, hanswers⟩ := ih
    have hq := q.interned_serve hs
    rw [serveEach_append_singleton]
    refine ⟨hq.sound, List.rel_append ?_ (.cons ⟨hq.mem, hq.type_eq⟩ .nil)⟩
    exact hanswers.imp fun _ _ ha => ⟨hq.subset ha.1, ha.2⟩

end Requests

/-! ### Scanners -/

/-- What a scanner has still to intern, and what it was given for the rest. -/
structure Scanner where
  todo : List Request
  /-- For the first request of these, the look-up was done and found nothing. -/
  missed : Bool
  got : List Instance

/-- The number of steps that a scanner takes at most until it is done. -/
def Scanner.due (s : Scanner) : Nat := 2 * s.todo.length - if s.missed then 1 else 0

/-- A request that was served, with its scanner and what that was given. -/
structure Served (κ : Type) where
  scanner : κ
  request : Request
  answer : Instance

/-- Scanners that share a registry. -/
structure Contention (κ : Type) where
  store : Store
  scanners : κ → Scanner
  /-- The requests that were served, in the order of their last steps. -/
  served : List (Served κ)

namespace Contention

variable {κ : Type} [DecidableEq κ]

/-- Nothing was done yet. -/
def start (st : Store) (requests : κ → List Request) : Contention κ :=
  ⟨st, fun k => ⟨requests k, false, []⟩, []⟩

variable (c : Contention κ)

/-- The scanner has looked for the type of its first request and found nothing. -/
def miss (k : κ) : Contention κ :=
  { c with scanners := Function.update c.scanners k { c.scanners k with missed := true } }

/-- The first request of the scanner is served, and `rest` is what it has still to intern. -/
def finish (k : κ) (q : Request) (rest : List Request) (r : Instance × Store) : Contention κ where
  store := r.2
  scanners := Function.update c.scanners k ⟨rest, false, (c.scanners k).got ++ [r.1]⟩
  served := c.served ++ [⟨k, q, r.1⟩]

/-- One step of a scanner: the look-up for its first request, or the interning after one that found
nothing. A scanner that is done does nothing. -/
def step (k : κ) : Contention κ :=
  match (c.scanners k).todo with
  | [] => c
  | q :: rest =>
    if (c.scanners k).missed then c.finish k q rest (q.serve c.store)
    else
      match c.store.registry.find? q.type with
      | some p => c.finish k q rest (p, c.store)
      | none => c.miss k

/-- The steps of scanners in some order, each scanner named once for each of its steps. -/
def run (schedule : List κ) : Contention κ := schedule.foldl step c

/-- What was served to a scanner. -/
def servedTo (k : κ) : List (Served κ) := c.served.filter fun e => e.scanner = k

variable {c} {st : Store} {requests : κ → List Request}

/-- **A step changes nothing but what its scanner knows, or serves a request at once.** -/
theorem step_cases (c : Contention κ) (k : κ) :
    ((c.scanners k).todo = [] ∧ c.step k = c) ∨
      ((c.scanners k).todo ≠ [] ∧ (c.scanners k).missed = false ∧ c.step k = c.miss k) ∨
      ∃ q rest, (c.scanners k).todo = q :: rest ∧ c.step k = c.finish k q rest (q.serve c.store) := by
  unfold step
  cases htodo : (c.scanners k).todo with
  | nil => exact .inl ⟨rfl, rfl⟩
  | cons q rest =>
    cases hm : (c.scanners k).missed with
    | true => exact .inr (.inr ⟨q, rest, rfl, rfl⟩)
    | false =>
      cases hf : c.store.registry.find? q.type with
      | none => exact .inr (.inl ⟨List.cons_ne_nil q rest, rfl, by simp [hf]⟩)
      | some p =>
        -- what the look-up found is what interning would give, and it would leave all as it is
        refine .inr (.inr ⟨q, rest, rfl, ?_⟩)
        simp [hf, q.serve_of_find? hf]

theorem servedTo_miss (c : Contention κ) (k j : κ) : (c.miss k).servedTo j = c.servedTo j := rfl

theorem scanners_miss (c : Contention κ) (k j : κ) :
    (c.miss k).scanners j =
      if j = k then { c.scanners k with missed := true } else c.scanners j :=
  Function.update_apply ..

theorem servedTo_finish (c : Contention κ) (k j : κ) (q : Request) (rest : List Request)
    (r : Instance × Store) :
    (c.finish k q rest r).servedTo j =
      if j = k then c.servedTo j ++ [⟨k, q, r.1⟩] else c.servedTo j := by
  by_cases h : j = k
  · simp [servedTo, finish, List.filter_append, h]
  · simp [servedTo, finish, List.filter_append, h, Ne.symm h]

theorem scanners_finish (c : Contention κ) (k j : κ) (q : Request) (rest : List Request)
    (r : Instance × Store) :
    (c.finish k q rest r).scanners j =
      if j = k then ⟨rest, false, (c.scanners k).got ++ [r.1]⟩ else c.scanners j :=
  Function.update_apply ..

/-! ### As if served at once -/

/-- The registry is as after the served requests one by one, their scanners have what was returned,
and no scanner has lost a request or changed the order of its requests. -/
structure Atomic (st : Store) (requests : κ → List Request) (c : Contention κ) : Prop where
  store : st.serveEach (c.served.map Served.request) = (c.served.map Served.answer, c.store)
  got : ∀ k, (c.scanners k).got = (c.servedTo k).map Served.answer
  order : ∀ k, (c.servedTo k).map Served.request ++ (c.scanners k).todo = requests k

theorem atomic_start (st : Store) (requests : κ → List Request) :
    Atomic st requests (start st requests) :=
  ⟨rfl, fun _ => rfl, fun _ => rfl⟩

theorem Atomic.miss (h : Atomic st requests c) (k : κ) : Atomic st requests (c.miss k) where
  store := h.store
  got j := by
    rw [servedTo_miss, ← h.got j, scanners_miss]
    split_ifs with hj
    · rw [hj]
    · rfl
  order j := by
    rw [servedTo_miss, ← h.order j, scanners_miss]
    split_ifs with hj
    · rw [hj]
    · rfl

theorem Atomic.finish (h : Atomic st requests c) {k : κ} {q : Request} {rest : List Request}
    (htodo : (c.scanners k).todo = q :: rest) :
    Atomic st requests (c.finish k q rest (q.serve c.store)) where
  store := by
    simp only [Contention.finish, List.map_append, List.map_cons, List.map_nil]
    rw [Store.serveEach_append_singleton, h.store]
  got j := by
    rw [servedTo_finish, scanners_finish]
    split_ifs with hj
    · rw [List.map_append, ← h.got j, hj]
      rfl
    · exact h.got j
  order j := by
    rw [servedTo_finish, scanners_finish, ← h.order j]
    split_ifs with hj
    · -- the request that was served was the first of those that the scanner had still to intern
      rw [hj, htodo, List.map_append, List.append_assoc]
      rfl
    · rfl

theorem Atomic.step (h : Atomic st requests c) (k : κ) : Atomic st requests (c.step k) := by
  obtain ⟨-, e⟩ | ⟨-, -, e⟩ | ⟨q, rest, htodo, e⟩ := c.step_cases k
  · rw [e]
    exact h
  · rw [e]
    exact h.miss k
  · rw [e]
    exact h.finish htodo

theorem Atomic.run (h : Atomic st requests c) (schedule : List κ) :
    Atomic st requests (c.run schedule) := by
  induction schedule generalizing c with
  | nil => exact h
  | cons k schedule ih => exact ih (h.step k)

/-! ### No scanner waits for another -/

/-- Each step of a scanner brings it nearer to its end, and no other scanner further away. -/
theorem due_step (c : Contention κ) (k j : κ) :
    ((c.step k).scanners j).due ≤ (c.scanners j).due - if j = k then 1 else 0 := by
  obtain ⟨htodo, e⟩ | ⟨-, hm, e⟩ | ⟨q, rest, htodo, e⟩ := c.step_cases k
  · rw [e]
    split_ifs with hj
    · simp [hj, Scanner.due, htodo]
    · exact Nat.le_refl _
  · rw [e, scanners_miss]
    split_ifs with hj
    · simp [hj, Scanner.due, hm]
    · exact Nat.le_refl _
  · rw [e, scanners_finish]
    split_ifs with hj
    · rw [hj]
      simp only [Scanner.due, htodo, List.length_cons, Bool.false_eq_true, ↓reduceIte]
      split <;> omega
    · exact Nat.le_refl _

theorem due_run (c : Contention κ) (schedule : List κ) (k : κ) :
    ((c.run schedule).scanners k).due ≤ (c.scanners k).due - schedule.count k := by
  induction schedule generalizing c with
  | nil => exact Nat.le_refl _
  | cons j schedule ih =>
    have hstep := c.due_step j k
    have hrest := ih (c.step j)
    rw [List.count_cons]
    simp only [beq_iff_eq, eq_comm (a := j)]
    show (((c.step j).run schedule).scanners k).due ≤ _
    omega

theorem todo_eq_nil_of_due {s : Scanner} (h : s.due = 0) : s.todo = [] := by
  have hlength : s.todo.length = 0 := by
    unfold Scanner.due at h
    split at h <;> omega
  exact List.length_eq_zero_iff.1 hlength

end Contention

/-! ### One thread -/

namespace Stage

/-- Serves a request. -/
def serve? (s : Instances) (q : Request) (g : Stage) : Option (Instance × Stage × Instances) :=
  match q with
  | .intern i => g.intern? s i
  | .adopt i => (g.adopt? i).map fun (p, g) => (p, g, s)

/-- Serves requests one after the other. -/
def serveEach? (g : Stage) (s : Instances) :
    List Request → Option (List Instance × Stage × Instances)
  | [] => some ([], g, s)
  | q :: qs => do
    let (p, g, s) ← g.serve? s q
    let (ps, g, s) ← g.serveEach? s qs
    return (p :: ps, g, s)

/-- Serves requests by the owner of a registry, and ends interning. -/
def internAndFreeze? (g : Stage) (s : Instances) (qs : List Request) :
    Option (List Instance × Stage × Instances) := do
  let (ps, g, s) ← g.serveEach? s qs
  return (ps, ← g.freeze?, s)

/-- Shares a registry, serves requests by one scanner, takes the registry back and ends
interning. -/
def shareAndFreeze? (g : Stage) (s : Instances) (qs : List Request) :
    Option (List Instance × Stage × Instances) := do
  let (ps, g, s) ← (← g.share?).serveEach? s qs
  match ← g.unshare? with
  | (true, g) => return (ps, ← g.freeze?, s)
  | (false, _) => none

theorem serveEach?_owned (st : Store) (qs : List Request) :
    (Stage.owned st.registry).serveEach? st.instances qs =
      some ((st.serveEach qs).1, .owned (st.serveEach qs).2.registry,
        (st.serveEach qs).2.instances) := by
  induction qs generalizing st with
  | nil => rfl
  | cons q qs ih =>
    have hq : (Stage.owned st.registry).serve? st.instances q =
        some ((q.serve st).1, .owned (q.serve st).2.registry, (q.serve st).2.instances) := by
      cases q <;> rfl
    simp [serveEach?, hq, ih, Store.serveEach]

/-- The two steps of a request by the only scanner are like one. -/
theorem serveEach?_shared (st : Store) (others : Nat) (qs : List Request) :
    (Stage.shared st.registry others).serveEach? st.instances qs =
      some ((st.serveEach qs).1, .shared (st.serveEach qs).2.registry others,
        (st.serveEach qs).2.instances) := by
  induction qs generalizing st with
  | nil => rfl
  | cons q qs ih =>
    have hq : (Stage.shared st.registry others).serve? st.instances q =
        some ((q.serve st).1, .shared (q.serve st).2.registry others,
          (q.serve st).2.instances) := by
      cases q with
      | intern i => simp [serve?, intern?, Registry.internInSteps_eq, Request.serve]
      | adopt i => simp [serve?, adopt?, Registry.adoptInSteps_eq, Request.serve]
    simp [serveEach?, hq, ih, Store.serveEach]

end Stage

/-! ### The main result -/

namespace Contention

variable {κ : Type} [DecidableEq κ]

/-- **Interning in two steps is interning at once.** Any scanners share a registry that some calls
have led to, each with requests of its own, and take their steps in any order. Then:

* the registry, with its pool, is as if the requests had been served one after the other, each at
  its last step, and what was returned is the same;
* each scanner was given, in order, what was returned for its requests up to those it has still to
  intern, and none are left once it has taken two steps for each;
* two scanners, or one at two times, were given the same instance exactly when the types were equal;
* one scanner alone, after which the registry is taken back and frozen, gives the same instances
  and the same frozen registry as its owner would. -/
theorem interning_in_steps (calls : List Call) (requests : κ → List Request)
    (schedule : List κ) :
    let st := (Session.run calls).store
    let c := (start st requests).run schedule
    st.serveEach (c.served.map Served.request) = (c.served.map Served.answer, c.store) ∧
      (∀ k,
        (c.scanners k).got = (c.servedTo k).map Served.answer ∧
        (c.servedTo k).map Served.request ++ (c.scanners k).todo = requests k ∧
        (2 * (requests k).length ≤ schedule.count k → (c.scanners k).todo = [])) ∧
      (∀ a ∈ c.served, ∀ b ∈ c.served,
        a.answer = b.answer ↔ a.request.type = b.request.type) ∧
      ∀ qs : List Request,
        (Stage.owned st.registry).shareAndFreeze? st.instances qs =
            (Stage.owned st.registry).internAndFreeze? st.instances qs ∧
          (Stage.owned st.registry).internAndFreeze? st.instances qs =
            some ((st.serveEach qs).1, .frozen (st.serveEach qs).2.registry.freeze,
              (st.serveEach qs).2.instances) := by
  intro st c
  have hatomic : Atomic st requests c := (atomic_start st requests).run schedule
  have hsound : st.registry.Sound := (Session.sound_run calls).registry
  refine ⟨hatomic.store, fun k => ⟨hatomic.got k, hatomic.order k, fun hcount => ?_⟩, ?_,
    fun qs => ⟨?_, ?_⟩⟩
  · have hdue : (c.scanners k).due ≤ 2 * (requests k).length - schedule.count k :=
      (start st requests).due_run schedule k
    exact todo_eq_nil_of_due (by omega)
  · intro a ha b hb
    -- both answers are pooled, where there is one instance of each type
    obtain ⟨hfinal, hanswers⟩ := st.answered_serveEach hsound (c.served.map Served.request)
    rw [hatomic.store] at hfinal hanswers
    have pooled : ∀ e ∈ c.served,
        e.answer ∈ c.store.registry.pool ∧ e.answer.type = e.request.type := by
      rw [List.forall₂_map_left_iff, List.forall₂_map_right_iff, List.forall₂_same] at hanswers
      exact hanswers
    obtain ⟨hap, hat⟩ := pooled a ha
    obtain ⟨hbp, hbt⟩ := pooled b hb
    rw [← hat, ← hbt]
    exact ⟨fun e => by rw [e], fun e => List.inj_on_of_nodup_map hfinal.distinct hap hbp e⟩
  · simp [Stage.shareAndFreeze?, Stage.internAndFreeze?, Stage.share?, Stage.unshare?,
      Stage.serveEach?_shared, Stage.serveEach?_owned]
  · simp [Stage.internAndFreeze?, Stage.serveEach?_owned, Stage.freeze?]

/-- Both scanners look for the type before either interns it, and get one instance of it. -/
example :
    let t : NativeType := .make (some (.ofDeclared "NSInteger")) (.primitive .int) none
    let requests : Bool → List Request
      | true => [.intern ⟨7, t⟩]
      | false => [.adopt ⟨8, t⟩]
    let c := (start (Session.run []).store requests).run [true, false, false, true]
    c.store.registry.pool.length = 3 ∧ (c.scanners true).got = [⟨8, t⟩] ∧
      (c.scanners false).got = [⟨8, t⟩] := by
  decide

end Contention

end Bindery
