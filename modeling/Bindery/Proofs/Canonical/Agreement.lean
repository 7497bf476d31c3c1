import Bindery.Proofs.Canonical.ByName
import Bindery.Proofs.Observation.Sites

/-!
# When the declarations of a name agree

A name gets a type when its declarations agree, and the type is their overlay. Here both are said
of the observations alone, with no run.

* `Overrides.Lists` : the name has an entry in the override table;
* `Observation.shapeAt` is the shape of a site on one binary interface, and
  `Observation.siteShapes` lists those of all sites;
* `Observation.Agree` says that the declarations agree within each site and, unless the name is
  overridden, across the sites, and `Observation.Gives` which type they give;
* `NativeType.combine_eq_ok_iff`, `SiteShapes.foldTypes_eq_ok_iff` : what the merge of two types
  and the merge of all sites give;
* `Workbench.canonicalize_types` : a run gives a type for exactly the names that agree.
-/

namespace Bindery

/-! ### Overrides -/

namespace Overrides

/-- The name has an entry in the table. -/
def Lists (o : Overrides) (name : Option TypeName) : Prop :=
  ∃ n ∈ name, ∃ e ∈ o.entries, e.name = n.text

variable {o : Overrides} {name : Option TypeName}

theorem rule?_of_lists (h : o.Lists name) :
    o.rule? (name.map TypeName.text) = some .keepFirst := by
  obtain ⟨n, hn, e, he, ht⟩ := h
  obtain rfl : name = some n := hn
  have hf : o.get? n.text ≠ none := by
    rw [get?, ne_eq, List.find?_eq_none]
    exact fun hall => hall e he (by simpa using ht)
  obtain ⟨f, hf⟩ := Option.ne_none_iff_exists'.1 hf
  simp only [rule?, Option.map_some, Option.bind_some, hf]

theorem rule?_of_not_lists (h : ¬ o.Lists name) : o.rule? (name.map TypeName.text) = none := by
  cases name with
  | none => rfl
  | some n =>
    have hf : o.get? n.text = none := by
      rw [get?, List.find?_eq_none]
      exact fun e he ht => h ⟨n, rfl, e, he, by simpa using ht⟩
    simp [rule?, hf]

end Overrides

/-! ### The merge of two types -/

namespace NativeType

/-- The types are equal but for names, on both binary interfaces. -/
def Agrees (a b : NativeType) : Prop := ∀ abi, (a.shape abi).erase = (b.shape abi).erase

/-- The first of two types, overlaid with the second on both binary interfaces. -/
def overlay (a b : NativeType) : NativeType :=
  ⟨a.name, a.shape32.overlay b.shape32, a.shape64.overlay b.shape64⟩

variable {overrides : Overrides} {a b c : NativeType}

theorem shape_overlay (a b : NativeType) (abi : Abi) :
    (a.overlay b).shape abi = (a.shape abi).overlay (b.shape abi) := by
  cases abi <;> rfl

theorem agrees_overlay_left {t : NativeType} : (a.overlay b).Agrees t ↔ a.Agrees t := by
  simp [Agrees, shape_overlay]

theorem mergeShapes_eq_ok_iff {abi : Abi} {t : Shape} :
    mergeShapes abi a b = .ok t ↔
      (a.shape abi).erase = (b.shape abi).erase ∧ (a.shape abi).overlay (b.shape abi) = t := by
  rw [← Shape.merge_eq_ok_iff, mergeShapes, Shape.mergeShared_eq]
  cases (a.shape abi).merge (b.shape abi) <;> simp [Except.mapError]

theorem mergeParts_eq_ok_iff (h : a.name = b.name) :
    mergeParts a b = .ok c ↔ a.Agrees b ∧ a.overlay b = c := by
  have hname : preferredName a.name b.name = a.name := by
    rw [← h, preferredName, Option.or_self]
  simp only [mergeParts, bind_eq_ok_iff, pure_eq_ok_iff, mergeShapes_eq_ok_iff, hname]
  constructor
  · rintro ⟨_, ⟨h32, rfl⟩, _, ⟨h64, rfl⟩, rfl⟩
    exact ⟨fun abi => by cases abi <;> assumption, rfl⟩
  · rintro ⟨hs, rfl⟩
    exact ⟨_, ⟨hs .bits32, rfl⟩, _, ⟨hs .bits64, rfl⟩, rfl⟩

theorem combine_of_lists (h : overrides.Lists a.name) :
    combine overrides (some a) b = .ok a := by
  rw [combine, reconcile]
  split_ifs
  · rfl
  · rw [Overrides.rule?_of_lists h]
    rfl

theorem combine_eq_ok_iff (hl : ¬ overrides.Lists a.name) (h : a.name = b.name) :
    combine overrides (some a) b = .ok c ↔ a.Agrees b ∧ a.overlay b = c := by
  rw [combine, reconcile]
  split_ifs with he
  · subst he
    simp [Except.map, Agrees, overlay]
  · rw [Overrides.rule?_of_not_lists hl, ← mergeParts_eq_ok_iff h]
    cases mergeParts a b <;> simp [Except.map, Functor.map]

theorem shape_foldl_overlay (t : NativeType) (ts : List NativeType) (abi : Abi) :
    (ts.foldl overlay t).shape abi =
      (ts.map fun u => u.shape abi).foldl Shape.overlay (t.shape abi) := by
  induction ts generalizing t with
  | nil => rfl
  | cons u ts ih => rw [List.foldl_cons, ih, List.map_cons, List.foldl_cons, shape_overlay]

theorem name_foldl_overlay (t : NativeType) (ts : List NativeType) :
    (ts.foldl overlay t).name = t.name := by
  induction ts generalizing t with
  | nil => rfl
  | cons u ts ih => exact ih (t.overlay u)

end NativeType

/-! ### The merge of all sites -/

namespace SiteShapes

variable {overrides : Overrides} {name : Option TypeName}

theorem name_of_type {s : SiteShapes} {t : NativeType} (h : s.type name = .ok t) :
    t.name = name := by
  unfold type NativeType.ofScan at h
  split at h
  · cases h
    rfl
  · cases h

/-- What the sites of a name give in terms of a test and an operation on two types, when the merge
of two types is that operation under that test, and the operation keeps the name and the test. -/
theorem foldTypes_eq_ok_iff_of_combine {R : NativeType → NativeType → Prop}
    {f : NativeType → NativeType → NativeType} (hname : ∀ a t, (f a t).name = a.name)
    (hR : ∀ a t u, R (f a t) u ↔ R a u)
    (hf : ∀ a t c, a.name = name → t.name = name →
      (NativeType.combine overrides (some a) t = .ok c ↔ R a t ∧ f a t = c))
    {sites : List SiteShapes} {a c : NativeType} (ha : a.name = name) :
    foldTypes overrides name (some a) sites = .ok (some c) ↔
      ∃ ts : List NativeType, sites.map (fun s => s.type name) = ts.map .ok ∧
        (∀ t ∈ ts, R a t) ∧ ts.foldl f a = c := by
  induction sites generalizing a with
  | nil => simp [foldTypes]
  | cons s rest ih =>
    rw [foldTypes]
    cases ht : s.type name with
    | error e =>
      refine ⟨fun h => by simp at h, ?_⟩
      rintro ⟨ts, hts, -⟩
      cases ts with
      | nil => simp at hts
      | cons t ts => simp [ht] at hts
    | ok t =>
      -- the sites have types when the first has one and the others have
      have split : (∃ ts : List NativeType, (s :: rest).map (fun s => s.type name) = ts.map .ok ∧
            (∀ u ∈ ts, R a u) ∧ ts.foldl f a = c) ↔
          R a t ∧ ∃ ts : List NativeType, rest.map (fun s => s.type name) = ts.map .ok ∧
            (∀ u ∈ ts, R a u) ∧ ts.foldl f (f a t) = c := by
        constructor
        · rintro ⟨ts, hts, hall, hc⟩
          cases ts with
          | nil => simp at hts
          | cons u ts =>
            rw [List.map_cons, List.map_cons, ht, List.cons.injEq] at hts
            obtain ⟨htu, hts⟩ := hts
            obtain rfl := Except.ok.inj htu
            exact ⟨hall t (by simp), ts, hts, fun v hv => hall v (by simp [hv]), hc⟩
        · rintro ⟨hat, ts, hts, hall, hc⟩
          refine ⟨t :: ts, by simp [ht, hts], ?_, hc⟩
          simpa [hat] using hall
      rw [split]
      have hc' := fun c => hf a t c ha (name_of_type ht)
      dsimp only
      cases hc : NativeType.combine overrides (some a) t with
      | error e =>
        refine ⟨fun h => by simp at h, fun h => ?_⟩
        have := (hc' (f a t)).2 ⟨h.1, rfl⟩
        simp [hc] at this
      | ok b =>
        obtain ⟨hat, rfl⟩ := (hc' b).1 hc
        dsimp only
        rw [ih ((hname a t).trans ha)]
        simp only [hat, hR, true_and]

/-- What the sites of a name give after a type: that type again if the name is overridden, and
otherwise what they overlay it to, if they all agree with it. -/
theorem foldTypes_some_eq_ok_iff {rest : List SiteShapes} {a c : NativeType} (ha : a.name = name) :
    foldTypes overrides name (some a) rest = .ok (some c) ↔
      ∃ ts : List NativeType, rest.map (fun s => s.type name) = ts.map .ok ∧
        (overrides.Lists name ∧ a = c ∨
          ¬ overrides.Lists name ∧ (∀ t ∈ ts, a.Agrees t) ∧
            ts.foldl NativeType.overlay a = c) := by
  by_cases hl : overrides.Lists name
  · rw [foldTypes_eq_ok_iff_of_combine (R := fun _ _ => True) (f := fun a _ => a)
      (fun _ _ => rfl) (fun _ _ _ => Iff.rfl) ?_ ha]
    · simp [hl, List.foldl_fixed]
    · rintro a t c rfl -
      simp [NativeType.combine_of_lists hl]
  · rw [foldTypes_eq_ok_iff_of_combine (R := NativeType.Agrees) (f := NativeType.overlay)
      (fun _ _ => rfl) (fun _ _ _ => NativeType.agrees_overlay_left) ?_ ha]
    · simp [hl]
    · rintro a t c rfl htn
      exact NativeType.combine_eq_ok_iff hl htn.symm

theorem foldTypes_none_eq_ok_iff {sites : List SiteShapes} {c : NativeType} :
    foldTypes overrides name none sites = .ok (some c) ↔
      ∃ s rest a, sites = s :: rest ∧ s.type name = .ok a ∧
        foldTypes overrides name (some a) rest = .ok (some c) := by
  cases sites with
  | nil => simp [foldTypes]
  | cons s rest =>
    rw [foldTypes]
    cases ht : s.type name with
    | error e => simp [ht]
    | ok t => simp [ht, NativeType.combine]

/-- **What the sites of a name give.** Each site has a type. The first of them is kept if the name
is overridden; otherwise the others agree with it, and are overlaid on it. -/
theorem foldTypes_eq_ok_iff {sites : List SiteShapes} {c : NativeType} :
    foldTypes overrides name none sites = .ok (some c) ↔
      ∃ (a : NativeType) (ts : List NativeType),
        sites.map (fun s => s.type name) = (a :: ts).map .ok ∧
        (overrides.Lists name ∧ a = c ∨
          ¬ overrides.Lists name ∧ (∀ t ∈ ts, a.Agrees t) ∧ ts.foldl NativeType.overlay a = c) := by
  rw [foldTypes_none_eq_ok_iff]
  constructor
  · rintro ⟨s, rest, a, rfl, ha, hc⟩
    obtain ⟨ts, hts, hc⟩ := (foldTypes_some_eq_ok_iff (name_of_type ha)).1 hc
    exact ⟨a, ts, by simp [ha, hts], hc⟩
  · rintro ⟨a, ts, hts, hc⟩
    obtain ⟨s, rest, rfl, ha, hts⟩ := List.map_eq_cons_iff.1 hts
    exact ⟨s, rest, a, rfl, ha, (foldTypes_some_eq_ok_iff (name_of_type ha)).2 ⟨ts, hts, hc⟩⟩

end SiteShapes

/-! ### Agreement of observations -/

namespace Observation

/-- The shape of a site on one binary interface: the shapes seen there, overlaid. A site with no
64-bit shape has its 32-bit one on both. -/
def shapeAt (os : List Observation) (site : String) : Abi → Option Shape
  | .bits32 => Shape.overlayAll (shapesAt os site .bits32)
  | .bits64 =>
    (Shape.overlayAll (shapesAt os site .bits64)).or (Shape.overlayAll (shapesAt os site .bits32))

/-- The shapes of the sites on one binary interface, in first-seen order. -/
def siteShapes (os : List Observation) (abi : Abi) : List Shape :=
  (sites os).filterMap fun site => shapeAt os site abi

/-- The declarations of a name agree: their encodings can be read, each site has a 32-bit shape,
and the shapes are equal but for names within each site and, unless the name is overridden, across
the sites. -/
structure Agree (overrides : Overrides) (name : Option TypeName) (os : List Observation) : Prop
    extends Coherent os where
  has32 : ∀ site ∈ sites os, shapesAt os site .bits32 ≠ []
  across : ¬ overrides.Lists name → ∀ abi, Shape.Alike (siteShapes os abi)

/-- The type that the declarations of a name give: on each binary interface the overlay of the
sites, or the first site alone if the name is overridden. -/
structure Gives (overrides : Overrides) (name : Option TypeName) (os : List Observation)
    (t : NativeType) : Prop where
  name_eq : t.name = name
  overlay : ¬ overrides.Lists name →
    ∀ abi, Shape.overlayAll (siteShapes os abi) = some (t.shape abi)
  first : overrides.Lists name → ∀ abi, (siteShapes os abi).head? = some (t.shape abi)

variable {overrides : Overrides} {name : Option TypeName} {os : List Observation}
  {ss : List String} {t : NativeType} {ts : List NativeType}

theorem shapeAt_bits32_ne_none {site : String} :
    shapeAt os site .bits32 ≠ none ↔ shapesAt os site .bits32 ≠ [] :=
  not_congr Shape.overlayAll_eq_none_iff

theorem type_overlaid {site : String} :
    (overlaid os site).type name = .ok t ↔
      t.name = name ∧ ∀ abi, shapeAt os site abi = some (t.shape abi) := by
  have both : (∀ abi, shapeAt os site abi = some (t.shape abi)) ↔
      shapeAt os site .bits32 = some t.shape32 ∧ shapeAt os site .bits64 = some t.shape64 :=
    ⟨fun h => ⟨h .bits32, h .bits64⟩, fun h abi => by cases abi <;> [exact h.1; exact h.2]⟩
  rw [both, shapeAt, shapeAt]
  simp only [SiteShapes.type, NativeType.ofScan, overlaid]
  obtain ⟨n, t32, t64⟩ := t
  cases Shape.overlayAll (shapesAt os site .bits32) with
  | none => simp
  | some u =>
    cases Shape.overlayAll (shapesAt os site .bits64) <;>
      simp [NativeType.make, eq_comm (a := name)]

theorem type_overlaid_of_ne_nil (name : Option TypeName) {site : String}
    (h : shapesAt os site .bits32 ≠ []) : ∃ t, (overlaid os site).type name = .ok t := by
  obtain ⟨u, hu⟩ := Option.ne_none_iff_exists'.1 (shapeAt_bits32_ne_none.2 h)
  exact ⟨_, by rw [SiteShapes.type, overlaid, show Shape.overlayAll _ = some u from hu]; rfl⟩

theorem types_overlaid :
    ss.map (fun site => (overlaid os site).type name) = ts.map .ok ↔
      (∀ t ∈ ts, t.name = name) ∧
        ∀ abi, ss.map (fun site => shapeAt os site abi) = ts.map fun t => some (t.shape abi) := by
  have : Nonempty Abi := ⟨.bits32⟩
  induction ss generalizing ts with
  | nil => cases ts <;> simp
  | cons site ss ih =>
    cases ts with
    | nil => simp
    | cons t ts =>
      simp only [List.map_cons, List.cons.injEq, ih, type_overlaid, List.forall_mem_cons,
        forall_and]
      tauto

theorem exists_types (name : Option TypeName)
    (h : ∀ site ∈ ss, shapesAt os site .bits32 ≠ []) :
    ∃ ts : List NativeType,
      ss.map (fun site => (overlaid os site).type name) = ts.map .ok := by
  induction ss with
  | nil => exact ⟨[], rfl⟩
  | cons site ss ih =>
    obtain ⟨hsite, hss⟩ := List.forall_mem_cons.1 h
    obtain ⟨t, ht⟩ := type_overlaid_of_ne_nil name hsite
    obtain ⟨ts, hts⟩ := ih hss
    exact ⟨t :: ts, by rw [List.map_cons, ht, hts, List.map_cons]⟩

theorem siteShapes_eq {abi : Abi}
    (h : (sites os).map (fun site => shapeAt os site abi) = ts.map fun t => some (t.shape abi)) :
    siteShapes os abi = ts.map fun t => t.shape abi := by
  have := congrArg (List.filterMap id) h
  simpa [siteShapes, List.filterMap_map, Function.comp_def] using this

/-- Sites that give a type agree, and the type is the one that they are to give. -/
theorem gives_of_foldTypes
    (h : SiteShapes.foldTypes overrides name none ((sites os).map (overlaid os)) = .ok (some t)) :
    (∀ site ∈ sites os, shapesAt os site .bits32 ≠ []) ∧
      (¬ overrides.Lists name → ∀ abi, Shape.Alike (siteShapes os abi)) ∧
      Gives overrides name os t := by
  obtain ⟨a, ts, hts, hc⟩ := SiteShapes.foldTypes_eq_ok_iff.1 h
  rw [List.map_map] at hts
  obtain ⟨hnames, hshapes⟩ := types_overlaid.1 hts
  have hsites := fun abi => siteShapes_eq (hshapes abi)
  have ha : a.name = name := hnames a (by simp)
  have h32 : ∀ site ∈ sites os, shapesAt os site .bits32 ≠ [] := by
    intro site hsite
    have hmem := List.mem_map_of_mem (f := fun site => shapeAt os site .bits32) hsite
    rw [hshapes] at hmem
    obtain ⟨u, -, hu⟩ := List.mem_map.1 hmem
    exact shapeAt_bits32_ne_none.1 (by simp [← hu])
  refine ⟨h32, ?_⟩
  rcases hc with ⟨hl, rfl⟩ | ⟨hl, hall, rfl⟩
  · refine ⟨fun hn => absurd hl hn, ha, fun hn => absurd hl hn, fun _ abi => ?_⟩
    rw [hsites, List.map_cons, List.head?_cons]
  · refine ⟨fun _ abi => ?_, ?_, fun _ abi => ?_, fun hl' => absurd hl' hl⟩
    · rw [hsites, List.map_cons, Shape.alike_cons]
      simpa using fun u hu => hall u hu abi
    · rw [NativeType.name_foldl_overlay, ha]
    · rw [hsites, List.map_cons, Shape.overlayAll, NativeType.shape_foldl_overlay]

/-- Sites that agree give a type. -/
theorem exists_foldTypes (hos : os ≠ []) (h : Agree overrides name os) :
    ∃ t, SiteShapes.foldTypes overrides name none ((sites os).map (overlaid os)) =
      .ok (some t) := by
  obtain ⟨ts, hts⟩ := exists_types name h.has32
  cases ts with
  | nil => exact absurd (List.map_eq_nil_iff.1 hts) (sites_ne_nil hos)
  | cons a ts =>
    obtain ⟨-, hshapes⟩ := types_overlaid.1 hts
    have htypes : ((sites os).map (overlaid os)).map (fun s => s.type name) =
        (a :: ts).map .ok := by
      rw [List.map_map]
      exact hts
    by_cases hl : overrides.Lists name
    · exact ⟨a, SiteShapes.foldTypes_eq_ok_iff.2 ⟨a, ts, htypes, .inl ⟨hl, rfl⟩⟩⟩
    · have hall : ∀ t ∈ ts, a.Agrees t := by
        intro t ht abi
        have halike := h.across hl abi
        rw [siteShapes_eq (hshapes abi), List.map_cons, Shape.alike_cons] at halike
        exact halike _ (List.mem_map_of_mem ht)
      exact ⟨ts.foldl NativeType.overlay a,
        SiteShapes.foldTypes_eq_ok_iff.2 ⟨a, ts, htypes, .inr ⟨hl, hall, rfl⟩⟩⟩

end Observation

/-! ### A whole run -/

namespace NameGroup

/-- The type that the group of a name adds to a run. -/
def type? (overrides : Overrides) (g : NameGroup) : Option NativeType :=
  (g.outcome overrides).1.head?

variable {overrides : Overrides} {g : NameGroup}

theorem type?_eq_some_iff {t : NativeType} :
    g.type? overrides = some t ↔
      g.failed = false ∧
        SiteShapes.foldTypes overrides g.key.name? none g.sites = .ok (some t) := by
  unfold type? outcome
  split_ifs with hf
  · simp [hf]
  · cases SiteShapes.foldTypes overrides g.key.name? none g.sites with
    | error e => simp
    | ok o => cases o <;> simp [hf]

theorem outcome_eq_toList (overrides : Overrides) (g : NameGroup) :
    (g.outcome overrides).1 = (g.type? overrides).toList := by
  unfold type? outcome
  split_ifs
  · rfl
  · cases SiteShapes.foldTypes overrides g.key.name? none g.sites with
    | error e => rfl
    | ok o => cases o <;> rfl

end NameGroup

namespace Workbench

open Observation

/-- The type of a name, from its own observations. -/
theorem type?_groupOf {overrides : Overrides} {os : List Observation} {k : NameKey}
    {t : NativeType} (h : ∀ o ∈ os, o.abi = 32 ∨ o.abi = 64) :
    (groupOf os k).type? overrides = some t ↔
      Coherent (ofKey k os) ∧
        SiteShapes.foldTypes overrides k.name? none
          ((sites (ofKey k os)).map (overlaid (ofKey k os))) = .ok (some t) := by
  obtain ⟨hgroup, hfailed⟩ := group_of_coherent k (abi_of_mem_ofKey (k := k) h)
  rw [NameGroup.type?_eq_some_iff, groupOf]
  by_cases hc : Coherent (ofKey k os)
  · simp [hgroup hc, hc]
  · simp [hfailed hc, hc]

/-- **When a name gets a type, and which.** The types of a run are, in first-seen order, those of
some of its names: of exactly the names whose declarations agree, and each of these gets the type
that its declarations give. -/
theorem canonicalize_types (w : Workbench) (os : List Observation)
    (h : ∀ o ∈ os, o.abi = 32 ∨ o.abi = 64) :
    ∃ typeOf : NameKey → Option NativeType,
      (w.canonicalize os).1.types.map Instance.type = (keys os).filterMap typeOf ∧
        ∀ k ∈ keys os,
          ((∃ t, typeOf k = some t) ↔ Agree w.merger.overrides k.name? (ofKey k os)) ∧
            ∀ t, typeOf k = some t → Gives w.merger.overrides k.name? (ofKey k os) t := by
  refine ⟨fun k => (groupOf os k).type? w.merger.overrides, ?_, fun k hk => ?_⟩
  · rw [(w.canonicalize_value h).1, List.filterMap_eq_flatMap_toList]
    simp only [NameGroup.outcome_eq_toList]
  · simp only [type?_groupOf h]
    refine ⟨⟨?_, fun ha => ?_⟩, fun t ht => (gives_of_foldTypes ht.2).2.2⟩
    · rintro ⟨t, hc, ht⟩
      obtain ⟨h32, hacross, -⟩ := gives_of_foldTypes ht
      exact ⟨hc, h32, hacross⟩
    · obtain ⟨t, ht⟩ := exists_foldTypes (ofKey_ne_nil hk) ha
      exact ⟨t, ha.toCoherent, ht⟩

/-- One name whose sites agree but for a tag, and one without a 32-bit shape. -/
theorem canonicalize_types_two_sites :
    let os : List Observation :=
      [⟨some "Rect", "a.h:1", 32, "{?=i}"⟩, ⟨some "Far", "a.h:9", 64, "q"⟩,
        ⟨some " Rect", "b.h:7", 32, "{r=i}"⟩]
    (∀ o ∈ os, o.abi = 32 ∨ o.abi = 64) ∧
      ∃ typeOf : NameKey → Option NativeType,
        ((Workbench.new ⟨[]⟩).canonicalize os).1.types.map Instance.type =
            (keys os).filterMap typeOf ∧
          ∀ k ∈ keys os,
            ((∃ t, typeOf k = some t) ↔ Agree ⟨[]⟩ k.name? (ofKey k os)) ∧
              ∀ t, typeOf k = some t → Gives ⟨[]⟩ k.name? (ofKey k os) t :=
  ⟨by decide, canonicalize_types (Workbench.new ⟨[]⟩) _ (by decide)⟩

end Workbench

end Bindery
