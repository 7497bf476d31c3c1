import Bindery.Shape.Decoding
import Bindery.TypeName

/-!
# Observations

The scanner reports one observation for each declaration of a type at one site on one binary
interface. Observations of one name belong together, across all sites; those without a name belong
together only within a site.
-/

namespace Bindery

/-- What the scanner saw at one site on one binary interface. -/
structure Observation where
  name : Option String
  /-- Where the declaration stands, for instance a file and a line. -/
  site : String
  /-- The width of the binary interface in bits. -/
  abi : Nat
  /-- The type encoding of the declared shape. -/
  encoding : String
deriving DecidableEq, Repr

/-- What makes observations belong together. -/
inductive NameKey where
  | named (name : TypeName)
  /-- Declarations without a name, at one site. -/
  | anonymous (site : String)
deriving DecidableEq

namespace NameKey

/-- The name, if there is one. -/
def name? : NameKey → Option TypeName
  | .named n => some n
  | .anonymous _ => none

/-- The text shown to a reader. -/
def label : NameKey → String
  | .named n => n.text
  | .anonymous site => TypeName.anonymous ++ "@" ++ site

end NameKey

/-- The key of an observation. A name of blanks only counts as no name. -/
def Observation.key (o : Observation) : NameKey :=
  match o.name.map TypeName.ofDeclared with
  | some n => if n.text = "" then .anonymous o.site else .named n
  | none => .anonymous o.site

/-- The shape that an observation reports. -/
def Observation.shape (o : Observation) : Except DecodeError Shape := Shape.decode o.encoding

end Bindery
