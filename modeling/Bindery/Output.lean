import Bindery.Artifact
import Bindery.Binding.Wrapper
import Bindery.Manifest
import Bindery.Registry

/-!
# The output of a run

The artifacts of a run, in the order in which they are written: the copies of the manifest, the
wrapper classes and the index in the order of sorted types, and the table of coders in the order of
interning.
-/

namespace Bindery

/-- The copy that a manifest asks for. -/
def CopyEntry.artifact (base : Path) (c : CopyEntry) : Except ManifestError Artifact := do
  return .copied (c.sourceFrom base) ⟨c.package, ← c.targetFileName⟩

/-- What the output of a run is made from. -/
structure Output where
  registry : FrozenRegistry
  /-- Where the targets of the registry's instances are found. -/
  instances : Instances
  manifest : Manifest
  /-- Where the sources of copies are relative to. -/
  base : Path
  /-- The package of the runtime. -/
  runtime : String

namespace Output

variable (o : Output)

/-- The copies. -/
def copies : Except ManifestError (List Artifact) :=
  o.manifest.copies.mapM (CopyEntry.artifact o.base)

/-- The wrapper classes. -/
def wrappers : List Binding.ClassFile :=
  Binding.selectWrappers [] (o.registry.sorted.filterMap fun i =>
    Binding.wrapper? i.type o.manifest.wrapperPackage o.runtime)

/-- The index of types. -/
def index : Binding.ClassFile :=
  Binding.typeIndex (o.registry.sorted.map fun i => (i.type, o.instances.target? i))
    o.manifest.wrapperPackage

/-- The table of coders. -/
def coderTable : Binding.CoderTable :=
  ⟨o.runtime, MixedCoder.group (Binding.coderNaming o.runtime) (o.registry.pool.map Instance.type)⟩

/-- All artifacts. -/
def artifacts : Except ManifestError (List Artifact) := do
  return (← o.copies) ++ o.wrappers.map .generated ++ [.generated o.index, .coders o.coderTable]

end Output

end Bindery
