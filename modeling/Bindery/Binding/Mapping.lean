import Bindery.Binding.CoderTable
import Bindery.Binding.Name
import Bindery.Target

/-!
# The mapping of native types to Java

Every native type has a target.

* A type that is a different primitive on each interface becomes the wider Java primitive, with a
  field of the coder table.
* A type that is a pointer on one interface only becomes a pointer.
* Otherwise the 64-bit shape decides. A struct or union becomes its generated wrapper class, or the
  generic class of the runtime when it has neither a name nor a tag.
-/

namespace Bindery.Binding

/-! ### Primitives -/

/-- The part of a coder's field name that stands for a primitive. -/
def stem : Primitive → String
  | .char => "SCHAR"
  | .uchar => "UCHAR"
  | .short => "SSHORT"
  | .ushort => "USHORT"
  | .int => "SINT"
  | .uint => "UINT"
  | .long => "SLONG"
  | .ulong => "ULONG"
  | .longLong => "SLONGLONG"
  | .ulongLong => "ULONGLONG"
  | .float => "FLOAT"
  | .double => "DOUBLE"
  | .bool => "BOOL"

/-- The Java primitive that holds a primitive of the 64-bit interface. -/
def valueType : Primitive → String
  | .char | .uchar => "byte"
  | .short | .ushort => "short"
  | .int | .uint => "int"
  | .long | .ulong | .longLong | .ulongLong => "long"
  | .float => "float"
  | .double => "double"
  | .bool => "boolean"

/-- The Java primitive that holds the values of both interfaces. -/
def widerType (p q : Primitive) : String :=
  if p.isFloating || q.isFloating then "double"
  else if q.size .bits64 < p.size .bits32 then valueType p
  else valueType q

/-- The coders of the coder table, made from the coder class of a runtime. -/
def coderNaming (runtime : String) : CoderNaming where
  field p q := stem p ++ "_" ++ stem q
  definition p q :=
    "new " ++ runtime ++ ".PrimitiveCoder.Mixed('" ++ p.code ++ "', '" ++ q.code ++ "')"

/-! ### Types -/

/-- The name of the wrapper class of a struct or union, from its name or else from its tag. -/
def wrapperName? (t : NativeType) : Option String :=
  match t.shape64 with
  | .composite _ tag _ => ((t.name.map TypeName.text).or tag).map identifier
  | _ => none

/-- The name of the runtime's class for all structs or all unions. -/
def genericName : CompositeKind → String
  | .struct => "Struct"
  | .union => "Union"

/-- The target kind of a composite. -/
def compositeTarget : CompositeKind → TargetKind
  | .struct => .struct
  | .union => .union

/-- The packages that a mapping refers to. -/
structure Mapping where
  /-- The package of the runtime. -/
  runtime : String
  /-- The package of the generated wrappers. -/
  wrappers : String
deriving DecidableEq, Repr

namespace Mapping

variable (m : Mapping)

/-- A class of the runtime. -/
def runtimeClass (name : String) : String := m.runtime ++ "." ++ name

/-- The target of a type, as one of its shapes decides it. -/
def ofShape (t : NativeType) : Shape → Target
  | .void => ⟨"void", .void, none⟩
  | .primitive p =>
    ⟨valueType p, .primitive, some (m.runtimeClass "PrimitiveCoder" ++ "." ++ stem p)⟩
  | .pointer _ => ⟨m.runtimeClass "Pointer", .pointer, none⟩
  | .composite k _ _ =>
    match wrapperName? t with
    | some name => ⟨m.wrappers ++ "." ++ name, compositeTarget k, none⟩
    | none => ⟨m.runtimeClass (genericName k), compositeTarget k, none⟩
  | .array _ _ => ⟨m.runtimeClass "NativeArray", .array, none⟩
  | .object => ⟨m.runtimeClass "ID", .object, none⟩
  | .classRef => ⟨m.runtimeClass "NSClass", .object, none⟩
  | .selector => ⟨m.runtimeClass "SEL", .object, none⟩

/-- The type is a pointer on exactly one interface. -/
def isHalfPointer (t : NativeType) : Bool :=
  t.shape32.kind ≠ t.shape64.kind && (t.shape32.kind = .pointer || t.shape64.kind = .pointer)

/-- The target of a type. -/
def target (t : NativeType) : Target :=
  match t.mixed? with
  | some (p, q) =>
    ⟨widerType p q, .primitive,
      some (CoderTable.qualifiedName m.runtime ++ "." ++ (coderNaming m.runtime).field p q)⟩
  | none =>
    if isHalfPointer t then ⟨m.runtimeClass "Pointer", .pointer, none⟩
    else m.ofShape t t.shape64

/-- The mapping as a resolver, which never refuses a type. -/
def resolver : Resolver := fun t => .ok (m.target t)

end Mapping

end Bindery.Binding
