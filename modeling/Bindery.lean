import Bindery.CommandLine
import Bindery.Main
import Bindery.Registry.Lifecycle
import Bindery.Shape.Progress
import Bindery.Sinks
import Bindery.Proofs.FirstSeen
import Bindery.Proofs.Shape.Erasure
import Bindery.Proofs.Shape.Absorption
import Bindery.Proofs.Shape.Slot
import Bindery.Proofs.Shape.Spelling
import Bindery.Proofs.Shape.RoundTrip
import Bindery.Proofs.Shape.Grammar
import Bindery.Proofs.NativeType.Order
import Bindery.Proofs.NativeType.Mixed
import Bindery.Proofs.Observation.ByName
import Bindery.Proofs.Observation.Sites
import Bindery.Proofs.Observation.Rescan
import Bindery.Proofs.Canonical.ByName
import Bindery.Proofs.Canonical.Agreement
import Bindery.Proofs.Canonical.Rescan
import Bindery.Proofs.Registry.Interning
import Bindery.Proofs.Registry.Resolution
import Bindery.Proofs.Output.ScanOrder
import Bindery.Proofs.Registry.Mapped
import Bindery.Proofs.Output.Coders
import Bindery.Proofs.Output.Wrappers
import Bindery.Proofs.Emission.Steps
import Bindery.Proofs.FileTree.Growth
import Bindery.Proofs.FileTree.Faithful
import Bindery.Proofs.Generate.Plan
import Bindery.Proofs.Generate.Failure
import Bindery.Proofs.Path.Segments
import Bindery.Proofs.Output.QualifiedNames
import Bindery.Proofs.Output.Locations
import Bindery.Proofs.Emission.Related
import Bindery.Proofs.FileTree.Below
import Bindery.Proofs.Generate.Confined
import Bindery.Proofs.Binding.Literal
import Bindery.Proofs.Output.Index
import Bindery.Proofs.Canonical.Registered
import Bindery.Proofs.Generate.Lossless
import Bindery.Proofs.Registry.Contention
import Bindery.Proofs.Emission.Sinks
import Bindery.Proofs.Emission.Order
import Bindery.Proofs.Canonical.ErrorOrder
import Bindery.Proofs.Canonical.Conflicts
import Bindery.Proofs.Shape.Positions
import Bindery.Proofs.Shape.Band
import Bindery.Proofs.Shape.Disagreement
import Bindery.Proofs.Canonical.Steps
import Bindery.Proofs.Merger.Cases
import Bindery.Proofs.Merger.OneName
import Bindery.Proofs.Merger.Bracketing
import Bindery.Proofs.Generate.Collisions
import Bindery.Proofs.Canonical.Additions
import Bindery.Proofs.Client.Moves
import Bindery.Proofs.Client.Trail
import Bindery.Proofs.Client.Effect
import Bindery.Proofs.Shape.Faults
import Bindery.Proofs.Shape.DecodeErrors
import Bindery.Proofs.Shape.Course
import Bindery.Proofs.Shape.Termination
import Bindery.Proofs.Config.Layers
import Bindery.Proofs.Emission.FirstFailure
import Bindery.Proofs.Binding.StringToken
