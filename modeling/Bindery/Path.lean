/-!
# Paths

A `Path` keeps the text it was given. Its meaning is a list of components: the root, a leading `.`,
`..`, and names. Empty segments and any other `.` mean nothing, so `a//b`, `a/./b` and `a/b/` have
the components of `a/b`.

* `Path.push` appends a further path; an absolute one takes the place of all before it;
* `Path.parent?` and `Path.fileName?` split off the last component;
* `Path.ofPackage` is the directory of a package.
-/

namespace Bindery

/-- A path, as it is written. -/
structure Path where
  text : String
deriving DecidableEq, Repr

/-- A part of a path that has a meaning. -/
inductive PathComponent where
  | root
  /-- A `.` at the start of a relative path. -/
  | here
  | up
  | name (s : String)
deriving DecidableEq, Repr

namespace Path

/-- The path with no text. -/
def empty : Path := ⟨""⟩

variable (p : Path)

/-- The path starts at the root. -/
def isAbsolute : Bool := p.text.toList.head? = some '/'

/-- The texts between the slashes. -/
def segments : List String := (p.text.toList.splitOn '/').map String.ofList

/-- What a segment means, other than the first one of a path. -/
def innerComponent? (s : String) : Option PathComponent :=
  if s = "" ∨ s = "." then none else if s = ".." then some .up else some (.name s)

/-- What the first segment of a path means. -/
def firstComponent? (s : String) : Option PathComponent :=
  if s = "." then some .here else innerComponent? s

/-- The components of some segments. -/
def componentsOf : List String → List PathComponent
  | [] => []
  | s :: rest => (firstComponent? s).toList ++ rest.filterMap innerComponent?

/-- The components of a path. -/
def components : List PathComponent :=
  (if p.isAbsolute then [.root] else []) ++ componentsOf p.segments

/-- Two paths with the same components. -/
def Same (q : Path) : Prop := p.components = q.components

instance (p q : Path) : Decidable (p.Same q) := inferInstanceAs (Decidable (_ = _))

/-- The last component, if it is a name. -/
def fileName? : Option String :=
  match p.components.getLast? with
  | some (.name s) => some s
  | _ => none

/-- The segment means nothing. -/
def isSilent (s : String) : Bool := (innerComponent? s).isNone

/-- The path before the last component, without silent segments at its end. The root and the empty
path have none. -/
def parent? : Option Path :=
  match p.segments with
  | [] => none
  | s :: rest =>
    match rest.reverse.dropWhile isSilent with
    | [] => if s = "" then none else some empty
    | _ :: before =>
      match (before.dropWhile isSilent).reverse with
      | [] => some ⟨if p.isAbsolute then "/" else s⟩
      | kept => some ⟨"/".intercalate (s :: kept)⟩

/-- A slash is due before more is written. -/
def needsSlash : Bool :=
  match p.text.toList.getLast? with
  | some c => c ≠ '/'
  | none => false

/-- The path with another one appended. -/
def push (q : Path) : Path :=
  if q.isAbsolute then q else if p.needsSlash then ⟨p.text ++ "/" ++ q.text⟩ else ⟨p.text ++ q.text⟩

/-- The directory of a package: one level for each of its parts. -/
def ofPackage (package : String) : Path :=
  (((package.toList.splitOn '.').filter (· ≠ [])).map fun s => ⟨String.ofList s⟩).foldl push empty

@[simp]
theorem components_empty : empty.components = [] := by decide

theorem push_of_isAbsolute {p q : Path} (h : q.isAbsolute = true) : p.push q = q := by
  simp [push, h]

@[simp]
theorem empty_push (q : Path) : empty.push q = q := by
  have h : empty.needsSlash = false := rfl
  have e : (⟨empty.text ++ q.text⟩ : Path) = q := by simp [empty]
  unfold push
  split
  · rfl
  · simp [h, e]

end Path

end Bindery
