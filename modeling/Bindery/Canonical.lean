import Bindery.Observation.Grouping
import Bindery.Registry

/-!
# Canonical types

From observations to types: each name that did not fail gets one type, merged from the types of
its sites in order, and interned. The types come in the order in which their names were first seen;
the errors of the grouping come before those of the merge.

* `Workbench` is what a run works on: the instances made, the merger and the registry;
* `Workbench.fold` merges the sites of one name;
* `Workbench.canonicalize` treats all observations of a run.
-/

namespace Bindery

/-- What a run works on. -/
structure Workbench where
  instances : Instances
  merger : Merger
  registry : Registry

/-- The types of a run, and the errors of the names without one. -/
structure Canonical where
  types : List Instance
  errors : List TypeError

/-- The type of one site of a name. -/
def SiteShapes.type (name : Option TypeName) (s : SiteShapes) : Except MissingShape NativeType :=
  NativeType.ofScan name s.shape32 s.shape64

namespace Workbench

/-- A workbench with a new registry. -/
def new (overrides : Overrides) : Workbench :=
  let (registry, instances) := Registry.new .empty
  ⟨instances, .new overrides, registry⟩

/-- Merges an instance of a site's type into what the sites before it gave. -/
def mergeSite (w : Workbench) (sofar : Option Instance) (t : NativeType) :
    Except TypeConflict (Option Instance) × Workbench :=
  let (i, s) := w.instances.make t
  match w.merger.merge s sofar (some i) with
  | .error e => (.error e, { w with instances := s })
  | .ok (merged, m, s) => (.ok merged, { w with instances := s, merger := m })

/-- Merges the types of some sites of a name, after what the sites before them gave. -/
def fold (name : Option TypeName) (w : Workbench) (sofar : Option Instance) :
    List SiteShapes → Except TypeError (Option Instance) × Workbench
  | [] => (.ok sofar, w)
  | site :: sites =>
    match site.type name with
    | .error e => (.error (.missingShape e), w)
    | .ok t =>
      match w.mergeSite sofar t with
      | (.error e, w) => (.error (.conflict e), w)
      | (.ok merged, w) => fold name w merged sites

/-- Interns an instance. -/
def adopt (w : Workbench) (i : Instance) : Instance × Workbench :=
  let (p, r) := w.registry.adopt i
  (p, { w with registry := r })

/-- Finds the types of some names. Those that failed are passed over. -/
def typesOf (w : Workbench) : List NameGroup → Canonical × Workbench
  | [] => (⟨[], []⟩, w)
  | g :: gs =>
    if g.failed then typesOf w gs
    else
      match fold g.key.name? w none g.sites with
      | (.error e, w) =>
        let (c, w) := typesOf w gs
        ({ c with errors := e :: c.errors }, w)
      | (.ok none, w) => typesOf w gs
      | (.ok (some i), w) =>
        let (p, w) := w.adopt i
        let (c, w) := typesOf w gs
        ({ c with types := p :: c.types }, w)

/-- Finds the types that some observations declare. -/
def canonicalize (w : Workbench) (os : List Observation) : Canonical × Workbench :=
  let run := Grouping.ofObservations os
  let (c, w) := w.typesOf run.groups
  ({ c with errors := run.errors ++ c.errors }, w)

end Workbench

end Bindery
