import Bindery.Generate

/-!
# Emissions side by side

An emission does nothing but what its destination does, one action after the other. So a relation
between actions that holds of actions in sequence, and of those that give a value only, holds of two
emissions as soon as it holds of the actions of both destinations. The destinations need not be
related for all paths, but for those of the artifacts.

The two may be one destination and a copy of it that is watched, and the relation that both do the
same. Or there is one destination only, and what is said is what each of its actions keeps.

* `Composes` says that a relation holds of actions in sequence;
* `Destination.Related` says that it holds of the actions of two destinations;
* `Destination.Related.emitAll`, `Destination.Related.generateInto` : then it holds of whole runs;
* `Keeps` says that an action takes states to related ones, and `composes_keeps` that this is such a
  relation.
-/

namespace Bindery

variable {m m' : Type → Type} [Monad m] [Monad m']

/-- The relation holds of actions that give a value only, and of actions in sequence. -/
structure Composes (R : ∀ α : Type, m α → m' α → Prop) : Prop where
  pure : ∀ {α : Type} (a : α), R α (Pure.pure a) (Pure.pure a)
  bind : ∀ {α β : Type} {x : m α} {y : m' α} {f : α → m β} {g : α → m' β},
    R α x y → (∀ a, R β (f a) (g a)) → R β (x >>= f) (y >>= g)

/-- The relation holds of actions in sequence, and of the actions of two destinations where the
paths of sinks are allowed. -/
structure Destination.Related (R : ∀ α : Type, m α → m' α → Prop) (allowed : Path → Prop)
    (d : Destination m) (d' : Destination m') : Prop extends Composes R where
  openSink : ∀ p, allowed p → R _ (d.openSink p) (d'.openSink p)
  write : ∀ p bytes, allowed p → R _ (d.write p bytes) (d'.write p bytes)
  flush : ∀ p, allowed p → R _ (d.flush p) (d'.flush p)
  close : ∀ p, allowed p → R _ (d.close p) (d'.close p)
  readSource : ∀ p, R _ (d.readSource p) (d'.readSource p)

namespace Destination.Related

variable {R : ∀ α : Type, m α → m' α → Prop} {allowed : Path → Prop} {d : Destination m}
  {d' : Destination m'} {preamble : Option String} {a : Artifact} {as : List Artifact}

theorem content (h : Related R allowed d d') (a : Artifact) :
    R _ (d.content preamble a) (d'.content preamble a) := by
  cases a with
  | copied source l =>
    refine h.bind (h.readSource source) fun r => ?_
    cases r <;> exact h.pure _
  | generated c => exact h.pure _
  | coders t => exact h.pure _

theorem fill (h : Related R allowed d d') (ha : allowed a.path) :
    R _ (d.fill preamble a) (d'.fill preamble a) := by
  refine h.bind (h.content a) fun r => ?_
  cases r with
  | error e => exact h.pure _
  | ok bytes =>
    refine h.bind (h.write _ bytes ha) fun written => ?_
    cases written with
    | false => exact h.pure _
    | true =>
      refine h.bind (h.flush _ ha) fun flushed => ?_
      cases flushed <;> exact h.pure _

/-- One artifact, also if its sink cannot be opened or written to. -/
theorem emit (h : Related R allowed d d') (ha : allowed a.path) :
    R _ (d.emit preamble a) (d'.emit preamble a) := by
  refine h.bind (h.openSink _ ha) fun opened => ?_
  cases opened with
  | false => exact h.pure _
  | true =>
    refine h.bind (h.fill ha) fun filled => ?_
    exact h.bind (h.close _ ha) fun _ => h.pure _

theorem emitEach (h : Related R allowed d d') (has : ∀ a ∈ as, allowed a.path) :
    R _ (d.emitEach preamble as) (d'.emitEach preamble as) := by
  induction as with
  | nil => exact h.pure _
  | cons a as ih =>
    obtain ⟨ha, has⟩ := List.forall_mem_cons.1 has
    refine h.bind (h.emit ha) fun r => ?_
    cases r with
    | error e => exact h.pure _
    | ok p =>
      refine h.bind (ih has) fun r => ?_
      cases r <;> exact h.pure _

/-- **Emissions to related destinations are related**, whatever becomes of them. -/
theorem emitAll (h : Related R allowed d d') (has : ∀ a ∈ as, allowed a.path) :
    R _ (d.emitAll preamble as) (d'.emitAll preamble as) := by
  unfold Destination.emitAll
  cases firstRepeat [] (as.map Artifact.path) with
  | some p => exact h.pure _
  | none => exact h.emitEach has

/-- So are runs that write the artifacts of a manifest, if there are any. -/
theorem generateInto (h : Related R allowed d d') {manifest : Manifest} {base : Path}
    {runtime : String}
    (has : ∀ plan, Plan.ofManifest manifest base runtime = .ok plan →
      ∀ a ∈ plan.artifacts, allowed a.path) :
    R _ (generateInto d manifest base runtime preamble)
      (generateInto d' manifest base runtime preamble) := by
  unfold Bindery.generateInto
  cases hp : Plan.ofManifest manifest base runtime with
  | error e => exact h.pure _
  | ok plan =>
    refine h.bind (h.emitAll (has plan hp)) fun r => ?_
    cases r <;> exact h.pure _

end Destination.Related

/-! ### What actions keep -/

variable {σ α : Type} {K : σ → σ → Prop}

/-- The action takes every state to a related one. -/
def Keeps (K : σ → σ → Prop) (x : StateM σ α) : Prop := ∀ s, K s (x s).2

theorem composes_keeps (hrefl : ∀ s, K s s) (htrans : ∀ {s s' s''}, K s s' → K s' s'' → K s s'') :
    @Composes (StateM σ) (StateM σ) _ _ fun _ x _ => Keeps K x where
  pure _ := hrefl
  bind {_ _ x _ _ _} hx hf s := htrans (hx s) (hf (x s).1 (x s).2)

end Bindery
