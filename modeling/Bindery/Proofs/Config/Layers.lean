import Bindery.Config
import Bindery.Except
import Mathlib.Data.List.Perm.Basic

/-!
# The layers of a configuration

A command line is a list of tokens: an argument by itself, or `-o` or `--out-dir` with the argument
after it, whatever that looks like. Each token sets one field, and has no part in the others. So the
last token of a field counts, and the order of tokens matters only where they set the same field.

* `Token.split` cuts arguments into tokens, and `Token.sets?` says what a token sets;
* `Settings.after` gives the settings after some tokens, field by field;
* `Settings.foldlM_takeIn_eq_ok_iff` : tokens taken in one by one lead to these settings, if all are
  known and at most one of them is a manifest;
* `Config.ofArgs_eq_ok_iff` : when arguments give a configuration, and which;
* `Config.isPackageName_runtime` : its package of the runtime has passed the check;
* `Config.ofArgs_layered` is the main result.
-/

namespace Bindery

/-- What a token can set. -/
inductive ConfigField where
  | manifest
  | outDir
  | runtime
  | header
  | parallel
deriving DecidableEq, Repr

/-- One argument, or an option with the argument after it. -/
inductive Token where
  | single (arg : String)
  | withValue (option value : String)
deriving DecidableEq, Repr

namespace Token

/-- The tokens of some arguments. An option at the end of them has no value. -/
def split : List String → List Token
  | [] => []
  | [arg] => [.single arg]
  | arg :: next :: rest =>
    if Settings.takesValue arg then .withValue arg next :: split rest
    else .single arg :: split (next :: rest)

/-- The arguments of a token. -/
def args : Token → List String
  | .single arg => [arg]
  | .withValue option value => [option, value]

/-- What an argument by itself sets, and to what. -/
def setsAlone? (arg : String) : Option (ConfigField × String) :=
  ((valueAfter? "--out-dir=" arg).map fun dir => (.outDir, dir)).or <|
  ((valueAfter? "--runtime-package=" arg).map fun package => (.runtime, package)).or <|
  ((valueAfter? "--header=" arg).map fun file => (.header, file)).or <|
  if arg = "--no-parallel" then some (.parallel, arg)
  else if (valueAfter? "-" arg).isSome then none
  else some (.manifest, arg)

/-- What a token sets, and to what. -/
def sets? : Token → Option (ConfigField × String)
  | .single arg => setsAlone? arg
  | .withValue _ value => some (.outDir, value)

/-- The field that a token sets. -/
def field? (t : Token) : Option ConfigField := t.sets?.map Prod.fst

/-- What a token sets a field to, if it sets this one. -/
def value? (f : ConfigField) (t : Token) : Option String :=
  (t.sets?.filter fun e => e.1 = f).map Prod.snd

/-- What the last of the tokens that set a field sets it to. -/
def last? (f : ConfigField) (ts : List Token) : Option String := (ts.filterMap (value? f)).getLast?

variable {t : Token} {ts us : List Token} {f g : ConfigField} {v : String} {args : List String}

/-! ### Cutting and joining -/

theorem split_withValue {option : String} (h : Settings.takesValue option = true) (value : String)
    (rest : List String) :
    split (option :: value :: rest) = .withValue option value :: split rest :=
  if_pos h

theorem split_single {arg : String} (h : Settings.takesValue arg = false) (rest : List String) :
    split (arg :: rest) = .single arg :: split rest := by
  cases rest with
  | nil => rfl
  | cons next rest => rw [split, h, if_neg Bool.false_ne_true]

theorem flatMap_args_split (args : List String) : (split args).flatMap Token.args = args := by
  fun_induction split args with
  | case1 => rfl
  | case2 arg => rfl
  | case3 arg next rest _ ih => rw [List.flatMap_cons, ih]; rfl
  | case4 arg next rest _ ih => rw [List.flatMap_cons, ih]; rfl

/-- The token has a value exactly if it is an option that takes one. -/
def IsWhole : Token → Prop
  | .single arg => Settings.takesValue arg = false
  | .withValue option _ => Settings.takesValue option = true

theorem split_flatMap_args (h : ∀ t ∈ ts, t.IsWhole) : split (ts.flatMap Token.args) = ts := by
  induction ts with
  | nil => rfl
  | cons t ts ih =>
    obtain ⟨ht, hts⟩ := List.forall_mem_cons.1 h
    rw [List.flatMap_cons]
    cases t with
    | withValue option value => exact (split_withValue ht value _).trans (congrArg _ (ih hts))
    | single arg => exact (split_single ht _).trans (congrArg _ (ih hts))

theorem field?_of_takesValue {arg : String} (h : Settings.takesValue arg = true) :
    (Token.single arg).field? = none := by
  rw [Settings.takesValue, Bool.or_eq_true, decide_eq_true_eq, decide_eq_true_eq] at h
  rcases h with rfl | rfl <;> decide +kernel

theorem isWhole_of_mem_split (ht : t ∈ split args) (hf : t.field? ≠ none) : t.IsWhole := by
  cases t with
  | single arg =>
    exact Bool.eq_false_iff.2 fun h => hf (field?_of_takesValue h)
  | withValue option value =>
    clear hf
    fun_induction split args with
    | case1 => cases ht
    | case2 arg => simp at ht
    | case3 arg next rest h ih =>
      rcases List.mem_cons.1 ht with e | ht
      · cases e
        exact h
      · exact ih ht
    | case4 arg next rest _ ih => exact ih (by simpa using ht)

/-! ### The last token of a field -/

theorem value?_of_sets? (h : t.sets? = some (g, v)) :
    t.value? f = if g = f then some v else none := by
  rw [value?, h, Option.filter_some]
  by_cases e : g = f <;> simp [e]

theorem field?_of_sets? (h : t.sets? = some (g, v)) : t.field? = some g := by
  rw [field?, h, Option.map_some]

theorem value?_eq_none_iff : t.value? f = none ↔ t.field? ≠ some f := by
  cases hs : t.sets? with
  | none => simp [value?, field?, hs]
  | some e =>
    rw [value?_of_sets? hs, field?_of_sets? hs]
    simp

theorem last?_singleton : last? f [t] = t.value? f := by
  rw [last?, List.filterMap_cons]
  cases t.value? f <;> rfl

theorem last?_cons : last? f (t :: ts) = (last? f ts).or (t.value? f) := by
  rw [last?, last?, List.filterMap_cons]
  cases t.value? f with
  | none => simp
  | some v =>
    rw [List.getLast?_cons]
    cases (ts.filterMap (value? f)).getLast? <;> rfl

theorem last?_eq_none_iff : last? f ts = none ↔ ∀ t ∈ ts, t.field? ≠ some f := by
  rw [last?, List.getLast?_eq_none_iff, List.filterMap_eq_nil_iff]
  simp only [value?_eq_none_iff]

/-- The tokens of the other fields have no part in it. -/
theorem last?_filter : last? f (ts.filter fun t => t.field? = some f) = last? f ts := by
  rw [last?, last?, List.filterMap_filter]
  congr 1
  refine List.filterMap_congr fun t _ => ?_
  by_cases h : t.field? = some f
  · simp [h]
  · simp [h, value?_eq_none_iff.2 h]

end Token

/-! ### Two options -/

theorem valueAfter?_eq_none {start arg : String} {c d : Char} (n : Nat)
    (hstart : start.toList[n]? = some c) (harg : arg.toList[n]? = some d) (hne : c ≠ d) :
    valueAfter? start arg = none := by
  refine Option.eq_none_iff_forall_ne_some.2 fun value h => hne ?_
  rw [valueAfter?_eq_some_iff.1 h, String.toList_append] at harg
  have hlt : n < start.toList.length := (List.getElem?_eq_some_iff.1 hstart).1
  rw [List.getElem?_append_left hlt, hstart] at harg
  exact Option.some.inj harg

theorem Token.field?_runtime (package : String) :
    (Token.single ("--runtime-package=" ++ package)).field? = some .runtime := by
  have hdir : valueAfter? "--out-dir=" ("--runtime-package=" ++ package) = none :=
    valueAfter?_eq_none 2 rfl (by simp) (by decide : 'o' ≠ 'r')
  have hpackage : valueAfter? "--runtime-package=" ("--runtime-package=" ++ package) =
      some package := valueAfter?_eq_some_iff.2 rfl
  simp [field?, sets?, setsAlone?, hdir, hpackage]

theorem Token.field?_eq_parallel_iff {t : Token} :
    t.field? = some .parallel ↔ t = .single "--no-parallel" := by
  constructor
  · intro h
    cases t with
    | withValue option value => simp [field?, sets?] at h
    | single arg =>
      by_contra hne
      have hp : arg ≠ "--no-parallel" := fun e => hne (congrArg _ e)
      rw [field?, sets?, setsAlone?, if_neg hp] at h
      revert h
      cases valueAfter? "--out-dir=" arg <;> cases valueAfter? "--runtime-package=" arg <;>
        cases valueAfter? "--header=" arg <;> cases (valueAfter? "-" arg).isSome <;> simp
  · rintro rfl
    decide +kernel

/-! ### Settings -/

namespace Settings

open Token

variable {s s' : Settings} {t : Token} {ts : List Token}

/-- The settings after some tokens: those of before, where no token sets the field. -/
def after (s : Settings) (ts : List Token) : Settings where
  manifest := (last? .manifest ts).or s.manifest
  outDir := (last? .outDir ts).or s.outDir
  runtime := (last? .runtime ts).or s.runtime
  header := (last? .header ts).or s.header
  parallel := (last? .parallel ts).isNone && s.parallel

/-- All tokens are known, and there is no manifest beyond the first. -/
structure Takes (s : Settings) (ts : List Token) : Prop where
  known : ∀ t ∈ ts, t.field? ≠ none
  once : ts.countP (fun t => t.field? = some .manifest) ≤ if s.manifest = none then 1 else 0

theorem after_nil : s.after [] = s := rfl

theorem after_cons (s : Settings) (t : Token) (ts : List Token) :
    s.after (t :: ts) = (s.after [t]).after ts := by
  simp only [after, last?_cons, Option.or_assoc]
  congr 1
  cases last? .parallel ts <;> simp [last?]

theorem takes_singleton :
    s.Takes [t] ↔ t.field? ≠ none ∧ (t.field? = some .manifest → s.manifest = none) := by
  constructor
  · rintro ⟨hknown, honce⟩
    refine ⟨hknown t List.mem_cons_self, fun hf => ?_⟩
    by_contra hm
    simp [hf, hm] at honce
  · rintro ⟨hf, hm⟩
    refine ⟨List.forall_mem_singleton.2 hf, ?_⟩
    by_cases h : t.field? = some .manifest
    · simp [h, hm h]
    · simp [h]

theorem manifest_after_eq_none_iff :
    (s.after [t]).manifest = none ↔ t.field? ≠ some .manifest ∧ s.manifest = none := by
  rw [after, Option.or_eq_none_iff, last?_singleton, value?_eq_none_iff]

theorem takes_cons : s.Takes (t :: ts) ↔ s.Takes [t] ∧ (s.after [t]).Takes ts := by
  -- A first token that is a manifest uses up the one that is free.
  have honce_iff :
      ((t :: ts).countP (fun t => t.field? = some .manifest) ≤ if s.manifest = none then 1 else 0) ↔
        (t.field? = some .manifest → s.manifest = none) ∧
          ts.countP (fun t => t.field? = some .manifest) ≤
            if (s.after [t]).manifest = none then 1 else 0 := by
    simp only [List.countP_cons, manifest_after_eq_none_iff, decide_eq_true_eq]
    by_cases hf : t.field? = some .manifest
    · by_cases hm : s.manifest = none <;> simp [hf, hm]
    · simp [hf]
  rw [takes_singleton]
  constructor
  · rintro ⟨hknown, honce⟩
    obtain ⟨ht, hts⟩ := List.forall_mem_cons.1 hknown
    obtain ⟨hm, honce⟩ := honce_iff.1 honce
    exact ⟨⟨ht, hm⟩, hts, honce⟩
  · rintro ⟨⟨ht, hm⟩, hts, honce⟩
    exact ⟨List.forall_mem_cons.2 ⟨ht, hts⟩, honce_iff.2 ⟨hm, honce⟩⟩

/-- Takes in one token. -/
def takeIn (s : Settings) : Token → Except ConfigError Settings
  | .single arg => if takesValue arg then .error (.missingValue "-o") else s.add arg
  | .withValue _ value => .ok { s with outDir := some value }

theorem addAll_eq (s : Settings) (args : List String) :
    s.addAll args = (split args).foldlM takeIn s := by
  fun_induction addAll s args with
  | case1 => rfl
  | case2 s arg h => simp [split, takeIn, h]
  | case3 s arg h => simp [split, takeIn, h]
  | case4 s arg next rest h ih => rw [split_withValue h, ih]; rfl
  | case5 s arg next rest h s₁ hs ih =>
    rw [split_single (Bool.eq_false_iff.2 h), List.foldlM_cons, takeIn, if_neg h, hs, ih]
    rfl
  | case6 s arg next rest h e hs =>
    rw [split_single (Bool.eq_false_iff.2 h), List.foldlM_cons, takeIn, if_neg h, hs]
    rfl

/-- The settings after one field was set. -/
def set (s : Settings) (value : String) : ConfigField → Settings
  | .manifest => { s with manifest := some value }
  | .outDir => { s with outDir := some value }
  | .runtime => { s with runtime := some value }
  | .header => { s with header := some value }
  | .parallel => { s with parallel := false }

theorem after_singleton {f : ConfigField} {v : String} (h : t.sets? = some (f, v)) :
    s.after [t] = s.set v f := by
  simp only [after, last?_singleton, value?_of_sets? h]
  cases f <;> rfl

/-- What becomes of an argument by itself, by the field that it sets. -/
theorem add_eq (s : Settings) (arg : String) :
    s.add arg =
      match setsAlone? arg with
      | none => .error (.unknownOption arg)
      | some (f, v) =>
        if f = .manifest ∧ s.manifest ≠ none then .error (.unexpectedArgument arg)
        else .ok (s.set v f) := by
  simp only [add, setsAlone?]
  cases valueAfter? "--out-dir=" arg with
  | some dir => rfl
  | none =>
    cases valueAfter? "--runtime-package=" arg with
    | some package => rfl
    | none =>
      cases valueAfter? "--header=" arg with
      | some file => rfl
      | none =>
        simp only [Option.map_none, Option.none_or]
        split_ifs
        · rfl
        · rfl
        · next hm => exact (if_neg fun h => h.2 (Option.isNone_iff_eq_none.1 hm)).symm
        · next hm => exact (if_pos ⟨rfl, fun h => hm (Option.isNone_iff_eq_none.2 h)⟩).symm

theorem takeIn_eq_ok_iff : s.takeIn t = .ok s' ↔ s.Takes [t] ∧ s' = s.after [t] := by
  rw [takes_singleton]
  cases t with
  | withValue option value =>
    have hsets : (Token.withValue option value).sets? = some (.outDir, value) := rfl
    rw [after_singleton hsets, field?_of_sets? hsets, takeIn, Except.ok.injEq, eq_comm]
    simp [set]
  | single arg =>
    rw [takeIn]
    split_ifs with hv
    · simp [field?_of_takesValue hv]
    · rw [add_eq]
      cases h : setsAlone? arg with
      | none => simp [field?, sets?, h]
      | some e =>
        have hsets : (Token.single arg).sets? = some e := h
        rw [after_singleton hsets, field?_of_sets? hsets]
        by_cases hm : e.1 = .manifest ∧ s.manifest ≠ none
        · simp [hm]
        · have hfree : e.1 = .manifest → s.manifest = none := by tauto
          rw [and_iff_right ⟨nofun, by simpa using hfree⟩, eq_comm]
          simp [hm]

/-- **Tokens taken in one by one** lead to the settings that are known field by field. -/
theorem foldlM_takeIn_eq_ok_iff :
    ts.foldlM takeIn s = .ok s' ↔ s.Takes ts ∧ s' = s.after ts := by
  induction ts generalizing s with
  | nil =>
    rw [List.foldlM_nil, pure_eq_ok_iff, after_nil, eq_comm]
    exact (and_iff_right ⟨nofun, Nat.zero_le _⟩).symm
  | cons t ts ih =>
    rw [List.foldlM_cons, bind_eq_ok_iff, takes_cons, after_cons s t ts]
    simp only [takeIn_eq_ok_iff, ih]
    constructor
    · rintro ⟨s₁, ⟨ht, rfl⟩, hts, h⟩
      exact ⟨⟨ht, hts⟩, h⟩
    · rintro ⟨⟨ht, hts⟩, h⟩
      exact ⟨_, ⟨ht, rfl⟩, hts, h⟩

/-- It does not matter for this in which order they come. -/
theorem Takes.perm {us : List Token} (h : s.Takes ts) (hp : us.Perm ts) : s.Takes us :=
  ⟨fun t ht => h.known t (hp.mem_iff.1 ht), hp.countP_eq _ ▸ h.once⟩

end Settings

/-! ### Configurations -/

namespace Config

open Token

variable {args : List String} {env : String → Option String} {c : Config}

theorem checkRuntime_eq_ok_iff {package : Option String} {runtime : String} :
    checkRuntime package = .ok runtime ↔
      runtime = package.getD defaultRuntime ∧ Binding.isPackageName runtime = true := by
  cases package with
  | none =>
    rw [checkRuntime, Except.ok.injEq, Option.getD_none]
    constructor
    · rintro rfl
      exact ⟨rfl, by decide⟩
    · exact fun h => h.1.symm
  | some package =>
    rw [checkRuntime, Option.getD_some]
    split_ifs with hp
    · rw [Except.ok.injEq]
      constructor
      · rintro rfl
        exact ⟨rfl, hp⟩
      · exact fun h => h.1.symm
    · refine iff_of_false nofun ?_
      rintro ⟨rfl, h⟩
      exact hp h

/-- The package of the runtime: that of the last token that sets it, else that of the environment
unless it is empty, else the default one. -/
def runtimeOf (ts : List Token) (env : String → Option String) : String :=
  ((last? .runtime ts).or ((env runtimeVariable).filter (· ≠ ""))).getD defaultRuntime

/-- The configuration that some tokens give, each field by its last token. -/
def ofTokens (manifest : String) (ts : List Token) (env : String → Option String) : Config where
  manifest := ⟨manifest⟩
  outDir := ⟨(last? .outDir ts).getD defaultOutDir⟩
  runtime := runtimeOf ts env
  header := (last? .header ts).map Path.mk
  parallel := (last? .parallel ts).isNone

theorem after_empty (ts : List Token) :
    Settings.empty.after ts = ⟨last? .manifest ts, last? .outDir ts, last? .runtime ts,
      last? .header ts, (last? .parallel ts).isNone⟩ := by
  simp [Settings.after, Settings.empty]

/-- **When arguments give a configuration, and which.** -/
theorem ofArgs_eq_ok_iff :
    ofArgs args env = .ok c ↔
      Settings.empty.Takes (split args) ∧
      Binding.isPackageName (runtimeOf (split args) env) = true ∧
      ∃ manifest, last? .manifest (split args) = some manifest ∧
        c = ofTokens manifest (split args) env := by
  rw [ofArgs, bind_eq_ok_iff]
  simp only [Settings.ofArgs, Settings.addAll_eq, Settings.foldlM_takeIn_eq_ok_iff]
  constructor
  · rintro ⟨s, ⟨htakes, rfl⟩, h⟩
    rw [after_empty] at h
    dsimp only at h
    split at h
    · cases h
    · next manifest hm =>
      obtain ⟨runtime, hr, ⟨⟩⟩ := bind_eq_ok_iff.1 h
      obtain ⟨rfl, hp⟩ := checkRuntime_eq_ok_iff.1 hr
      exact ⟨htakes, hp, manifest, hm, rfl⟩
  · rintro ⟨htakes, hp, manifest, hm, rfl⟩
    refine ⟨_, ⟨htakes, rfl⟩, ?_⟩
    rw [after_empty, hm]
    exact bind_eq_ok_iff.2 ⟨_, checkRuntime_eq_ok_iff.2 ⟨rfl, hp⟩, rfl⟩

/-- The package of the runtime has passed its check, wherever it comes from. -/
theorem isPackageName_runtime (h : ofArgs args env = .ok c) :
    Binding.isPackageName c.runtime = true := by
  obtain ⟨-, hp, manifest, -, rfl⟩ := ofArgs_eq_ok_iff.1 h
  exact hp

/-- The order of tokens matters only where they set the same field. -/
theorem ofArgs_of_perm {us : List Token} (h : ofArgs args env = .ok c)
    (hp : us.Perm (split args))
    (hkept : ∀ f, us.filter (·.field? = some f) = (split args).filter (·.field? = some f)) :
    ofArgs (us.flatMap Token.args) env = .ok c := by
  obtain ⟨htakes, hname, manifest, hm, rfl⟩ := ofArgs_eq_ok_iff.1 h
  have hwhole : ∀ t ∈ us, t.IsWhole := fun t ht =>
    have ht := hp.mem_iff.1 ht
    isWhole_of_mem_split ht (htakes.known t ht)
  have hlast : ∀ f, last? f us = last? f (split args) := fun f => by
    rw [← last?_filter, hkept, last?_filter]
  have hruntime : runtimeOf us env = runtimeOf (split args) env := by
    rw [runtimeOf, runtimeOf, hlast]
  refine ofArgs_eq_ok_iff.2 ?_
  rw [split_flatMap_args hwhole]
  refine ⟨htakes.perm hp, hruntime ▸ hname, manifest, hlast .manifest ▸ hm, ?_⟩
  simp only [ofTokens, hlast, hruntime]

/-- With a token for the package of the runtime, the environment does not matter, also where there
is no configuration. -/
theorem ofArgs_of_runtime_mem {package : String}
    (h : .single ("--runtime-package=" ++ package) ∈ split args)
    (env env' : String → Option String) : ofArgs args env' = ofArgs args env := by
  have hset : last? .runtime (split args) ≠ none := fun hnone =>
    last?_eq_none_iff.1 hnone _ h (field?_runtime package)
  rw [ofArgs, ofArgs]
  cases hs : Settings.ofArgs args with
  | error e => rfl
  | ok s =>
    rw [Settings.ofArgs, Settings.addAll_eq] at hs
    obtain ⟨-, rfl⟩ := Settings.foldlM_takeIn_eq_ok_iff.1 hs
    rw [after_empty]
    obtain ⟨v, hv⟩ := Option.ne_none_iff_exists'.1 hset
    rw [hv]
    rfl

/-- **The arguments of a run are layered, and their order is free.** Where arguments and environment
give a configuration:

* the tokens together are the arguments, and in any order that is kept among the tokens of each
  field they give the same configuration;
* each field is what its last token sets it to, or else the default; for the package of the runtime,
  that of the environment comes before the default, unless it is empty;
* once a token sets the package of the runtime, the environment has no part in the configuration;
* the package of the runtime is a package name, wherever it comes from. -/
theorem ofArgs_layered (h : ofArgs args env = .ok c) :
    let ts := split args
    ts.flatMap Token.args = args ∧
      (∀ us : List Token, us.Perm ts →
        (∀ f, us.filter (·.field? = some f) = ts.filter (·.field? = some f)) →
        ofArgs (us.flatMap Token.args) env = .ok c) ∧
      (last? .manifest ts).map Path.mk = some c.manifest ∧
      c.outDir = ⟨(last? .outDir ts).getD "generated"⟩ ∧
      c.runtime = ((last? .runtime ts).or ((env "NBIND_RUNTIME_PACKAGE").filter (· ≠ ""))).getD
        "org.nbind.runtime" ∧
      c.header = (last? .header ts).map Path.mk ∧
      (c.parallel = false ↔ .single "--no-parallel" ∈ ts) ∧
      (∀ package, .single ("--runtime-package=" ++ package) ∈ ts →
        ∀ env', ofArgs args env' = .ok c) ∧
      Binding.isPackageName c.runtime = true := by
  intro ts
  obtain ⟨htakes, hname, manifest, hm, rfl⟩ := ofArgs_eq_ok_iff.1 h
  refine ⟨flatMap_args_split args, fun us => ofArgs_of_perm h, by rw [hm]; rfl, rfl, rfl, rfl, ?_,
    fun _ hmem env' => (ofArgs_of_runtime_mem hmem env env').trans h, hname⟩
  rw [ofTokens, Option.isNone_eq_false_iff, Option.isSome_iff_ne_none, Ne, last?_eq_none_iff]
  simp [ts, field?_eq_parallel_iff]

/-- Two output directories, one of them with a value that looks like an option, in another order. -/
theorem ofArgs_layered_two_dirs :
    let args := ["-o", "--no-parallel", "--runtime-package=a.b", "scan.json", "--out-dir=build"]
    let us : List Token := [.single "scan.json", .withValue "-o" "--no-parallel",
      .single "--out-dir=build", .single "--runtime-package=a.b"]
    let env := fun _ => some "from.environment"
    let c : Config := ⟨⟨"scan.json"⟩, ⟨"build"⟩, "a.b", none, true⟩
    ofArgs args env = .ok c ∧ us.Perm (split args) ∧
      (∀ f, us.filter (·.field? = some f) = (split args).filter (·.field? = some f)) ∧
      ofArgs (us.flatMap Token.args) env = .ok c ∧
      .single ("--runtime-package=" ++ "a.b") ∈ split args ∧
      ∀ env', ofArgs args env' = .ok c := by
  intro args us env c
  have h : ofArgs args env = .ok c := by decide +kernel
  have hperm : us.Perm (split args) := by decide +kernel
  have hkept : ∀ f, us.filter (·.field? = some f) = (split args).filter (·.field? = some f) := by
    intro f
    cases f <;> decide +kernel
  have hmem : .single ("--runtime-package=" ++ "a.b") ∈ split args := by decide +kernel
  obtain ⟨-, horder, -, -, -, -, -, henv, -⟩ := ofArgs_layered h
  exact ⟨h, hperm, hkept, horder us hperm hkept, hmem, henv _ hmem⟩

end Config

end Bindery
