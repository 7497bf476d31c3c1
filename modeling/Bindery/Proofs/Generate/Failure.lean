import Bindery.CommandLine
import Bindery.Proofs.Canonical.Rescan
import Bindery.Proofs.Emission.Related
import Bindery.Proofs.Emission.Steps
import Bindery.Proofs.Generate.Plan

/-!
# Runs that fail

A run reads its files, plans, and writes. It changes nothing before it writes, and it does not write
unless all went well until then. So a run that fails has opened a sink only if it failed at a sink,
or at the source of a copy.

* `Disk.watched` is a disk that keeps the paths of all sinks that are to be opened, and
  `generate_watched` says that a run on it is the same run;
* `generate_eq_error` : an error with which nothing was broken off leaves the state as it was;
* `Manifest.typeErrors_ne_nil_iff` : when the planning fails;
* `generate_failure` is the main result.
-/

namespace Bindery

variable {σ α β : Type}

namespace GenerateError

/-- The error arises while artifacts are being written. -/
def BreaksOff : GenerateError → Prop
  | .emit e => e.BreaksOff
  | .manifest _ | .header _ | .types _ | .resolve _ => False

/-- The error arises before anything is written: at the manifest, the header, the types, or a path
that two artifacts have. -/
def Early : GenerateError → Prop
  | .manifest _ | .header _ | .types _ | .emit (.duplicateTarget _) => True
  | .resolve _ | .emit (.cannotOpen _) | .emit (.cannotWrite _) | .emit (.cannotRead _) => False

end GenerateError

/-! ### Watched runs -/

/-- An action on the second part of a state. -/
def aside (x : StateM σ α) : StateM (List Path × σ) α := fun (log, s) =>
  let (a, s) := x s
  (a, (log, s))

/-- The destination, with the paths of all sinks that are to be opened, the latest first. -/
def Destination.watched (d : Destination (StateM σ)) : Destination (StateM (List Path × σ)) where
  openSink p := fun (log, s) => aside (d.openSink p) (p :: log, s)
  write p bytes := aside (d.write p bytes)
  flush p := aside (d.flush p)
  close p := aside (d.close p)
  readSource p := aside (d.readSource p)

/-- The disk, with the paths of all sinks that are to be opened, the latest first. -/
def Disk.watched (disk : Disk (StateM σ)) : Disk (StateM (List Path × σ)) where
  readFile p := aside (disk.readFile p)
  destination root := (disk.destination root).watched

/-- Whatever the log, an action gives and does the same as another. -/
def Follows (x : StateM (List Path × σ) α) (y : StateM σ α) : Prop :=
  ∀ log s, ((x (log, s)).1, (x (log, s)).2.2) = y s

theorem follows_pure (a : α) : Follows (pure a) (pure a : StateM σ α) := fun _ _ => rfl

theorem follows_aside (y : StateM σ α) : Follows (aside y) y := fun _ _ => rfl

theorem Follows.bind {x : StateM (List Path × σ) α} {y : StateM σ α}
    {f : α → StateM (List Path × σ) β} {g : α → StateM σ β} (h : Follows x y)
    (hf : ∀ a, Follows (f a) (g a)) : Follows (x >>= f) (y >>= g) := by
  intro log s
  show _ = g (y s).1 (y s).2
  rw [← h log s]
  exact hf _ _ _

theorem composes_follows :
    @Composes (StateM (List Path × σ)) (StateM σ) _ _ fun _ x y => Follows x y where
  pure := follows_pure
  bind := .bind

section Watched

variable {d : Destination (StateM σ)} {disk : Disk (StateM σ)} {preamble : Option String}

/-- Each action of a watched destination follows its own. -/
theorem related_watched (d : Destination (StateM σ)) :
    Destination.Related (fun _ x y => Follows x y) (fun _ => True) d.watched d where
  toComposes := composes_follows
  openSink _ _ _ _ := rfl
  write _ _ _ := follows_aside _
  flush _ _ := follows_aside _
  close _ _ := follows_aside _
  readSource _ := follows_aside _

theorem follows_generateInto (m : Manifest) (base : Path) (runtime : String) :
    Follows (generateInto d.watched m base runtime preamble)
      (generateInto d m base runtime preamble) :=
  (related_watched d).generateInto fun _ _ _ _ => trivial

theorem follows_readText (p : Path) : Follows (disk.watched.readText p) (disk.readText p) :=
  (follows_aside _).bind fun _ => follows_pure _

theorem follows_readManifest (p : Path) :
    Follows (disk.watched.readManifest p) (disk.readManifest p) := by
  refine (follows_readText p).bind fun r => ?_
  cases r <;> exact follows_pure _

theorem follows_readHeader (header : Option Path) :
    Follows (disk.watched.readHeader header) (disk.readHeader header) := by
  cases header with
  | none => exact follows_pure _
  | some p =>
    refine (follows_readText p).bind fun r => ?_
    cases r <;> exact follows_pure _

/-- A watched run is the same run. -/
theorem generate_watched (disk : Disk (StateM σ)) (c : Config) :
    Follows (generate disk.watched c) (generate disk c) := by
  refine (follows_readManifest c.manifest).bind fun r => ?_
  cases r with
  | error e => exact follows_pure _
  | ok m =>
    refine (follows_readHeader c.header).bind fun r => ?_
    cases r with
    | error e => exact follows_pure _
    | ok preamble => exact follows_generateInto m _ _

end Watched

/-! ### Errors before anything is written -/

/-- Reading changes nothing. -/
def Disk.Quiet (disk : Disk (StateM σ)) : Prop := ∀ p s, (disk.readFile p s).2 = s

theorem FileTree.quiet_disk : FileTree.disk.Quiet := fun _ _ => rfl

theorem Disk.Quiet.watched {disk : Disk (StateM σ)} (h : disk.Quiet) : disk.watched.Quiet :=
  fun p s => Prod.ext rfl (h p s.2)

section Errors

variable {d : Destination (StateM σ)} {disk : Disk (StateM σ)} {preamble : Option String}
  {m : Manifest} {base : Path} {runtime : String} {s s' : σ} {e : GenerateError}

/-- A manifest whose artifacts are not written fails in the planning or in the emission. -/
theorem generateInto_eq_error
    (h : generateInto d m base runtime preamble s = (.error e, s')) :
    Plan.ofManifest m base runtime = .error e ∧ s' = s ∨
      ∃ plan e', Plan.ofManifest m base runtime = .ok plan ∧ e = .emit e' ∧
        d.emitAll preamble plan.artifacts s = (.error e', s') := by
  unfold generateInto at h
  cases hp : Plan.ofManifest m base runtime with
  | error e' =>
    simp only [hp] at h
    cases h
    exact .inl ⟨rfl, rfl⟩
  | ok plan =>
    simp only [hp] at h
    obtain ⟨r, s₁, hr, h⟩ := bind_state_eq_iff.1 h
    cases r with
    | ok paths => cases h
    | error e' =>
      cases h
      exact .inr ⟨plan, e', rfl, rfl, hr⟩

/-- The emission of a plan fails as the writing of its artifacts does. -/
theorem generateInto_eq_emit_error_iff {plan : Plan} {e : EmitError}
    (hp : Plan.ofManifest m base runtime = .ok plan) :
    generateInto d m base runtime preamble s = (.error (.emit e), s') ↔
      d.emitAll preamble plan.artifacts s = (.error e, s') := by
  unfold generateInto
  simp only [hp]
  rw [bind_state_eq_iff]
  constructor
  · rintro ⟨r, s₁, hr, h⟩
    cases r with
    | ok paths => cases h
    | error e' =>
      cases h
      exact hr
  · exact fun h => ⟨.error e, s', h, rfl⟩

theorem generateInto_early (h : generateInto d m base runtime preamble s = (.error e, s')) :
    e.BreaksOff ∨ e.Early ∧ s' = s := by
  rcases generateInto_eq_error h with ⟨hp, hs⟩ | ⟨plan, e', -, rfl, he⟩
  · rcases Plan.ofManifest_eq_error hp with ⟨-, rfl⟩ | ⟨e', rfl, -⟩
    · exact .inr ⟨trivial, hs⟩
    · exact .inr ⟨trivial, hs⟩
  · rcases Destination.emitAll_eq_error he with hb | ⟨hs, p, rfl⟩
    · exact .inl hb
    · exact .inr ⟨trivial, hs⟩

theorem Disk.Quiet.readText (hq : disk.Quiet) {p : Path} {r : Option String}
    (h : disk.readText p s = (r, s')) : s' = s := by
  obtain ⟨bytes, s₁, hb, ⟨⟩⟩ := bind_state_eq_iff.1 h
  exact (congrArg Prod.snd hb).symm.trans (hq p s)

theorem Disk.Quiet.readManifest (hq : disk.Quiet) {p : Path} {r : Except ManifestError Manifest}
    (h : disk.readManifest p s = (r, s')) : s' = s := by
  obtain ⟨text, s₁, ht, h⟩ := bind_state_eq_iff.1 h
  obtain rfl := hq.readText ht
  cases text <;> cases h <;> rfl

theorem Disk.Quiet.readHeader (hq : disk.Quiet) {header : Option Path}
    {r : Except GenerateError (Option String)} (h : disk.readHeader header s = (r, s')) :
    s' = s ∧ ∀ e, r = .error e → e.Early := by
  cases header with
  | none =>
    cases h
    exact ⟨rfl, nofun⟩
  | some p =>
    obtain ⟨text, s₁, ht, h⟩ := bind_state_eq_iff.1 h
    obtain rfl := hq.readText ht
    cases text with
    | none =>
      cases h
      refine ⟨rfl, ?_⟩
      rintro e ⟨⟩
      trivial
    | some text =>
      cases h
      exact ⟨rfl, nofun⟩

/-- **A run with an error with which nothing was broken off leaves the state as it was.** -/
theorem generate_eq_error (hq : disk.Quiet) {c : Config}
    (h : generate disk c s = (.error e, s')) : e.BreaksOff ∨ e.Early ∧ s' = s := by
  obtain ⟨r, s₁, hr, h⟩ := bind_state_eq_iff.1 h
  obtain rfl := hq.readManifest hr
  cases r with
  | error e' =>
    cases h
    exact .inr ⟨trivial, rfl⟩
  | ok m =>
    obtain ⟨r, s₂, hr, h⟩ := bind_state_eq_iff.1 h
    obtain ⟨rfl, hearly⟩ := hq.readHeader hr
    cases r with
    | error e' =>
      cases h
      exact .inr ⟨hearly _ rfl, rfl⟩
    | ok preamble => exact generateInto_early h

/-! ### Errors in the types -/

theorem generateInto_types_iff {es : List TypeError} :
    (generateInto d m base runtime preamble s).1 = .error (.types es) ↔
      es ≠ [] ∧ m.typeErrors = es := by
  constructor
  · intro h
    rcases generateInto_eq_error (eq_mk_of_fst_eq h) with ⟨hp, -⟩ | ⟨plan, e', -, he, -⟩
    · rcases Plan.ofManifest_eq_error hp with ⟨hne, he⟩ | ⟨e', he, -⟩
      · cases he
        exact ⟨hne, rfl⟩
      · cases he
    · cases he
  · rintro ⟨hne, rfl⟩
    rw [generateInto, Plan.ofManifest_of_errors hne]
    rfl

end Errors

open Observation

namespace Manifest

variable {m : Manifest}

/-- The observations that a run takes in. -/
def counted (m : Manifest) : List Observation := m.observations.filter counts

theorem abi_of_mem_counted {o : Observation} (h : o ∈ m.counted) : o.abi = 32 ∨ o.abi = 64 :=
  abi_of_mem_filter_counts o h

theorem types_ofKey_eq_nil_iff {os : List Observation} {k : NameKey}
    (h : ∀ o ∈ os, o.abi = 32 ∨ o.abi = 64) (hk : k ∈ keys os) (w : Workbench) :
    (w.canonicalize (ofKey k os)).1.types = [] ↔
      (groupOf os k).type? w.merger.overrides = none := by
  have hv := (w.canonicalize_ofKey h hk).1
  rw [NameGroup.outcome_eq_toList] at hv
  rw [← List.map_eq_nil_iff (f := Instance.type), hv, Option.toList_eq_nil_iff]

/-- A name gets no type in a run over its own observations exactly if they do not agree. -/
theorem types_ofKey_eq_nil_iff_not_agree {os : List Observation} {k : NameKey}
    (h : ∀ o ∈ os, o.abi = 32 ∨ o.abi = 64) (hk : k ∈ keys os) (w : Workbench) :
    (w.canonicalize (ofKey k os)).1.types = [] ↔
      ¬Agree w.merger.overrides k.name? (ofKey k os) := by
  rw [types_ofKey_eq_nil_iff h hk, Option.eq_none_iff_forall_ne_some]
  constructor
  · intro hnone ha
    obtain ⟨t, ht⟩ := exists_foldTypes (ofKey_ne_nil hk) ha
    exact hnone t ((Workbench.type?_groupOf h).2 ⟨ha.toCoherent, ht⟩)
  · intro ha t ht
    exact ha ((Workbench.type?_groupOf_iff h hk).1 ht).1

/-- Planning fails at the types when a name gets none. -/
theorem typeErrors_ne_nil_iff :
    m.typeErrors ≠ [] ↔
      ∃ k ∈ keys m.counted,
        ((Workbench.new .standard).canonicalize (ofKey k m.counted)).1.types = [] := by
  have habi : ∀ o ∈ m.counted, o.abi = 32 ∨ o.abi = 64 := fun o => abi_of_mem_counted
  rw [typeErrors, ← Workbench.canonicalize_filter_counts, ← counted, Ne,
    Workbench.errors_eq_nil_iff _ habi]
  push Not
  refine exists_congr fun k => and_congr_right fun hk => ?_
  rw [types_ofKey_eq_nil_iff habi hk]
  exact Option.eq_none_iff_forall_ne_some.symm

end Manifest

/-- **A run that fails writes nothing, unless the writing itself broke off.**

* A run with any other error fails at the manifest, the header, the types or a path that two
  artifacts have. It leaves the tree as it was, and a watched run opens no sink.
* Writing the artifacts of a manifest fails at the types exactly when there is a name that gets no
  type from its own observations, that is, whose observations do not agree.
* For a manifest that was read, all observations are taken in, the artifacts can be listed whatever
  was found, and nothing but the types and the emission fails. -/
theorem generate_failure (σ : Type) :
    (∀ (c : Config) (t : FileTree) (e : GenerateError),
      (generate FileTree.disk c t).1 = .error e → ¬e.BreaksOff →
        e.Early ∧ generate FileTree.disk c t = (.error e, t) ∧
          generate FileTree.disk.watched c ([], t) = (.error e, [], t)) ∧
    (∀ (d : Destination (StateM σ)) (m : Manifest) (base : Path) (runtime : String)
      (preamble : Option String) (s : σ),
      let alone k := ((Workbench.new .standard).canonicalize (ofKey k m.counted)).1
      ((∃ es, (generateInto d m base runtime preamble s).1 = .error (.types es)) ↔
        ∃ k ∈ keys m.counted, (alone k).types = []) ∧
      ∀ k ∈ keys m.counted,
        (alone k).types = [] ↔ ¬Agree .standard k.name? (ofKey k m.counted)) ∧
    ∀ (text : String) (path : Path) (m : Manifest), Manifest.parse text path = .ok m →
      (∀ o ∈ m.observations, ∃ abi, Abi.ofBits? o.abi = some abi) ∧
      (∀ o : Output, o.manifest = m → ∃ as, o.artifacts = .ok as) ∧
      ∀ (d : Destination (StateM σ)) (base : Path) (runtime : String) (preamble : Option String)
        (s : σ) (e : GenerateError), (generateInto d m base runtime preamble s).1 = .error e →
          (∃ es, e = .types es) ∨ ∃ e', e = .emit e' := by
  refine ⟨?_, ?_, ?_⟩
  · intro c t e he hb
    obtain ⟨hearly, hs⟩ :=
      (generate_eq_error FileTree.quiet_disk (eq_mk_of_fst_eq he)).resolve_left hb
    have hplain : generate FileTree.disk c t = (.error e, t) := by
      rw [eq_mk_of_fst_eq he, hs]
    have hsame := generate_watched FileTree.disk c [] t
    rw [hplain, Prod.mk.injEq] at hsame
    have hwatched := eq_mk_of_fst_eq hsame.1
    refine ⟨hearly, hplain, ?_⟩
    rw [hwatched]
    exact Prod.ext rfl
      ((generate_eq_error FileTree.quiet_disk.watched hwatched).resolve_left hb).2
  · intro d m base runtime preamble s alone
    refine ⟨?_, fun k hk => ?_⟩
    · rw [← Manifest.typeErrors_ne_nil_iff]
      constructor
      · rintro ⟨es, hes⟩
        obtain ⟨hne, rfl⟩ := generateInto_types_iff.1 hes
        exact hne
      · exact fun hne => ⟨_, generateInto_types_iff.2 ⟨hne, rfl⟩⟩
    · exact Manifest.types_ofKey_eq_nil_iff_not_agree (fun o => Manifest.abi_of_mem_counted) hk
        (Workbench.new .standard)
  · intro text path m hm
    have hchecked := Manifest.checked_of_parse hm
    refine ⟨fun o ho => Option.isSome_iff_exists.1 (hchecked.counts o ho), ?_, ?_⟩
    · rintro o rfl
      exact hchecked.artifacts_eq_ok
    · intro d base runtime preamble s e he
      rcases generateInto_eq_error (eq_mk_of_fst_eq he) with ⟨hp, -⟩ | ⟨plan, e', -, rfl, -⟩
      · rcases Plan.ofManifest_eq_error hp with ⟨-, rfl⟩ | ⟨e', rfl, ha⟩
        · exact .inl ⟨_, rfl⟩
        · obtain ⟨as, has⟩ := Manifest.Checked.artifacts_eq_ok (o := m.output base runtime) hchecked
          rw [has] at ha
          cases ha
      · exact .inr ⟨e', rfl⟩

/-- A manifest with two copies of one name. -/
theorem generate_failure_same_path :
    let text := "[null, [], [[\"A.java\", \"p\"], [\"b/A.java\", \"p\"]]]"
    let t : FileTree := ⟨[(["m.json"], .file (.ofText text))], []⟩
    let c : Config := ⟨⟨"m.json"⟩, ⟨"out"⟩, "runtime", none, false⟩
    let e : GenerateError := .emit (.duplicateTarget ⟨"p/A.java"⟩)
    (generate FileTree.disk c t).1 = .error e ∧
      generate FileTree.disk.watched c ([], t) = (.error e, [], t) ∧
      ∃ m, Manifest.parse text c.manifest = .ok m ∧
        ∀ o : Output, o.manifest = m → ∃ as, o.artifacts = .ok as := by
  intro text t c e
  have hpath : (match (generate FileTree.disk c t).1 with
      | .error (.emit (.duplicateTarget p)) => some p
      | _ => none) = some ⟨"p/A.java"⟩ := by decide +kernel
  have he : (generate FileTree.disk c t).1 = .error e := by
    generalize (generate FileTree.disk c t).1 = r at hpath ⊢
    split at hpath
    · cases hpath
      rfl
    · cases hpath
  obtain ⟨m, hm⟩ : ∃ m, Manifest.parse text c.manifest = .ok m := by
    have hparsed : (Manifest.parse text c.manifest).toOption.isSome = true := by decide +kernel
    cases hp : Manifest.parse text c.manifest with
    | ok m => exact ⟨m, rfl⟩
    | error e =>
      rw [hp] at hparsed
      cases hparsed
  obtain ⟨hearly, -, hread⟩ := generate_failure Unit
  exact ⟨he, (hearly c t e he id).2.2, m, hm, (hread text c.manifest m hm).2.1⟩

end Bindery
