import Bindery.Merger
import Bindery.Observation

/-!
# Grouping observations

Observations are grouped by name, and within a name by site, both in the order in which they are
first seen. At a site the shapes seen on one binary interface are merged as they come in. A group
in which an encoding cannot be read or two shapes cannot be merged has failed; the other groups go
on, so one run reports what is wrong with every name.

* `updateAt` updates the entry with a given key in a list, which both levels use;
* `SiteShapes.add`, `NameGroup.observe` and `Grouping.observe` take in one observation, at the
  level of a site, of a name and of a whole run;
* `Grouping.ofObservations` takes in all of them.
-/

namespace Bindery

/-- Why a declared name has no type. -/
inductive TypeError where
  /-- An encoding at one of its sites cannot be read. -/
  | badEncoding (name site : String) (abi : Abi) (encoding : String) (cause : DecodeError)
  /-- Two of its declarations disagree. -/
  | conflict (e : TypeConflict)
  /-- One of its sites has no 32-bit shape. -/
  | missingShape (e : MissingShape)
deriving DecidableEq

/-- The text of the error. -/
def TypeError.message : TypeError → String
  | .badEncoding name site abi encoding _ =>
    "`" ++ name ++ "` at `" ++ site ++ "` (" ++ abi.label ++ "): bad encoding `" ++ encoding ++ "`"
  | .conflict e => e.message
  | .missingShape e => e.message

/-- The text of what caused the error. -/
def TypeError.causeMessage? : TypeError → Option String
  | .badEncoding _ _ _ _ cause => some cause.message
  | .conflict e => some e.cause.message
  | .missingShape _ => none

/-! ### Keyed lists -/

/-- Updates the first entry with the key `k`, or adds a fresh one at the end and updates that. The
update also reports something, which is passed on. -/
def updateAt {α κ ρ : Type} [DecidableEq κ] (key : α → κ) (fresh : κ → α) (update : α → α × ρ)
    (k : κ) : List α → List α × ρ
  | [] =>
    let (a, r) := update (fresh k)
    ([a], r)
  | a :: rest =>
    if key a = k then
      let (a, r) := update a
      (a :: rest, r)
    else
      let (rest, r) := updateAt key fresh update k rest
      (a :: rest, r)

/-- The list of the values of `f` at some keys stays one after an update, with the new value at the
updated key. -/
theorem updateAt_map {α κ ρ : Type} [DecidableEq κ] {key : α → κ} {fresh : κ → α}
    {update : α → α × ρ} {f : κ → α} (hkey : ∀ j, key (f j) = j) {k : κ} {ks : List κ}
    (hks : ks.Nodup) (hf : k ∉ ks → f k = fresh k) :
    updateAt key fresh update k (ks.map f) =
      ((if k ∈ ks then ks else ks ++ [k]).map fun j => if j = k then (update (f k)).1 else f j,
        (update (f k)).2) := by
  induction ks with
  | nil => simp [updateAt, hf]
  | cons j ks ih =>
    obtain ⟨hj, hks⟩ := List.nodup_cons.1 hks
    rw [List.map_cons, updateAt, hkey]
    by_cases h : j = k
    · subst h
      have rest : ∀ i ∈ ks, ¬ i = j := fun i hi e => hj (e ▸ hi)
      simp only [↓reduceIte, List.mem_cons, true_or, List.map_cons, Prod.mk.injEq, List.cons.injEq,
        true_and, and_true]
      exact List.map_congr_left fun i hi => (if_neg (rest i hi)).symm
    · have hk : k ∈ j :: ks ↔ k ∈ ks := by simp [Ne.symm h]
      rw [if_neg h, ih hks fun hn => hf (mt hk.1 hn)]
      by_cases hm : k ∈ ks <;> simp [hm, h, Ne.symm h]

/-! ### Sites -/

/-- The shapes seen at one site so far. -/
structure SiteShapes where
  site : String
  shape32 : Option Shape
  shape64 : Option Shape
deriving DecidableEq

namespace SiteShapes

variable (s : SiteShapes)

/-- A site where no shape was seen yet. -/
def new (site : String) : SiteShapes := ⟨site, none, none⟩

/-- The shape on one binary interface. -/
def slot : Abi → Option Shape
  | .bits32 => s.shape32
  | .bits64 => s.shape64

/-- The site with another shape on one binary interface. -/
def setSlot (abi : Abi) (t : Option Shape) : SiteShapes :=
  match abi with
  | .bits32 => { s with shape32 := t }
  | .bits64 => { s with shape64 := t }

/-- Takes in one more shape. A shape that cannot be merged leaves its slot empty. -/
def add (abi : Abi) (t : Shape) : SiteShapes × Option MergeError :=
  match s.slot abi with
  | none => (s.setSlot abi (some t), none)
  | some u =>
    match u.merge t with
    | .ok merged => (s.setSlot abi (some merged), none)
    | .error e => (s.setSlot abi none, some e)

/-- Takes in one more shape at a site, which is new if it is not among the given ones. -/
def addAt (name : String) (abi : Abi) (t : Shape) :
    List SiteShapes → List SiteShapes × Option MergeError :=
  updateAt site new (fun s => s.add abi t) name

theorem slot_setSlot (abi : Abi) (t : Option Shape) : (s.setSlot abi t).slot abi = t := by
  cases abi <;> rfl

theorem slot_setSlot_of_ne {abi other : Abi} (h : other ≠ abi) (t : Option Shape) :
    (s.setSlot abi t).slot other = s.slot other := by
  cases abi <;> cases other <;> first | rfl | exact absurd rfl h

theorem site_add (abi : Abi) (t : Shape) : (s.add abi t).1.site = s.site := by
  have h (u : Option Shape) : (s.setSlot abi u).site = s.site := by cases abi <;> rfl
  unfold add
  split
  · exact h _
  · split <;> exact h _

end SiteShapes

/-! ### Names -/

/-- What was seen of one name so far. -/
structure NameGroup where
  key : NameKey
  sites : List SiteShapes
  failed : Bool
deriving DecidableEq

namespace NameGroup

/-- A name of which nothing was seen yet. -/
def new (key : NameKey) : NameGroup := ⟨key, [], false⟩

variable (g : NameGroup)

/-- The group after a failure. -/
def fail : NameGroup := { g with failed := true }

/-- Takes in an observation of the name. -/
def observe (abi : Abi) (o : Observation) : NameGroup × Option TypeError :=
  match o.shape with
  | .error e => (g.fail, some (.badEncoding g.key.label o.site abi o.encoding e))
  | .ok t =>
    match SiteShapes.addAt o.site abi t g.sites with
    | (sites, none) => ({ g with sites := sites }, none)
    | (sites, some e) =>
      ({ g with sites := sites, failed := true }, some (.conflict ⟨g.key.label, abi, e⟩))

/-- Takes in an observation in the group of its name, which is new if it is not among the given
ones. -/
def observeIn (abi : Abi) (o : Observation) :
    List NameGroup → List NameGroup × Option TypeError :=
  updateAt key new (fun g => g.observe abi o) o.key

theorem key_observe (abi : Abi) (o : Observation) : (g.observe abi o).1.key = g.key := by
  unfold observe
  split
  · rfl
  · split <;> rfl

end NameGroup

/-! ### Runs -/

/-- The groups of a run and the errors met in it, both in order. -/
structure Grouping where
  groups : List NameGroup
  errors : List TypeError
deriving DecidableEq

namespace Grouping

/-- The run before the first observation. -/
def empty : Grouping := ⟨[], []⟩

/-- Takes in one observation. One with another width than 32 or 64 is passed over. -/
def observe (run : Grouping) (o : Observation) : Grouping :=
  match Abi.ofBits? o.abi with
  | none => run
  | some abi =>
    let (groups, e) := NameGroup.observeIn abi o run.groups
    ⟨groups, run.errors ++ e.toList⟩

/-- Takes in all observations. -/
def ofObservations (os : List Observation) : Grouping := os.foldl observe empty

theorem ofObservations_append_singleton (os : List Observation) (o : Observation) :
    ofObservations (os ++ [o]) = (ofObservations os).observe o := by
  simp [ofObservations]

end Grouping

end Bindery
