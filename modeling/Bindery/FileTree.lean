import Bindery.Emission

/-!
# File trees

A tree of directories and files, with a working directory. Paths are followed segment by segment,
and each step but the last has to lead to a directory; `..` leads out of a directory and stays at
the root. A file that cannot be made leaves the directories that were made for it.

* `FileTree.read?` gives the content of a file;
* `FileTree.makeDirs` makes a directory and those above it, and `FileTree.create?` an empty file;
* `FileTree.destination` writes artifacts below a directory of the tree.
-/

namespace Bindery

/-- What lies at a place in a file tree. -/
inductive Node where
  | file (content : Bytes)
  | directory
deriving DecidableEq, Repr

/-- The names that lead from the root to a place. -/
abbrev Place := List String

/-- Files and directories, each at its place. -/
structure FileTree where
  nodes : List (Place × Node)
  /-- Where relative paths start. -/
  workDir : Place
deriving Repr

namespace FileTree

/-- The greatest size of a name, in bytes. -/
def maxName : Nat := 255

/-- The greatest size of a path, in bytes. -/
def maxPath : Nat := 4095

/-- Only the working directory and those above it. -/
def ofWorkDir (workDir : Place) : FileTree :=
  ⟨(List.range workDir.length).map fun n => (workDir.take (n + 1), .directory), workDir⟩

variable (t : FileTree)

/-- What lies at a place. The root is a directory. -/
def node? (at_ : Place) : Option Node :=
  if at_ = [] then some .directory else t.nodes.lookup at_

/-- A directory lies at a place. -/
def isDirectory (at_ : Place) : Bool :=
  match t.node? at_ with
  | some .directory => true
  | _ => false

/-- Puts a node in the place of the one there, or else at the end. -/
def placeNode (at_ : Place) (node : Node) : List (Place × Node) → List (Place × Node)
  | [] => [(at_, node)]
  | (q, old) :: rest =>
    if q = at_ then (q, node) :: rest else (q, old) :: placeNode at_ node rest

/-- The tree with a node at a place. -/
def put (at_ : Place) (node : Node) : FileTree := { t with nodes := placeNode at_ node t.nodes }

theorem lookup_placeNode (at_ : Place) (node : Node) (nodes : List (Place × Node)) (q : Place) :
    (placeNode at_ node nodes).lookup q = if q = at_ then some node else nodes.lookup q := by
  have ne {p : Place} (h : q ≠ p) : (q == p) = false := beq_eq_false_iff_ne.2 h
  induction nodes with
  | nil => by_cases h : q = at_ <;> simp [placeNode, List.lookup_cons, h, ne]
  | cons entry nodes ih =>
    obtain ⟨p, old⟩ := entry
    unfold placeNode
    by_cases hp : p = at_
    · subst hp
      by_cases h : q = p <;> simp [List.lookup_cons, h, ne]
    · by_cases h : q = p
      · subst h
        simp [hp]
      · simp [hp, List.lookup_cons, h, ne, ih]

theorem node?_put {at_ : Place} (h : at_ ≠ []) (node : Node) (q : Place) :
    (t.put at_ node).node? q = if q = at_ then some node else t.node? q := by
  unfold node? put
  by_cases hq : q = []
  · subst hq
    simp [Ne.symm h]
  · simp [hq, lookup_placeNode]

/-! ### Following paths -/

/-- The path is one that the system takes. -/
def accepts (p : Path) : Bool :=
  p.text ≠ "" && !p.text.toList.contains '\x00' && p.text.utf8ByteSize ≤ maxPath

/-- Where a path starts. -/
def startOf (p : Path) : Place := if p.isAbsolute then [] else t.workDir

/-- The place that a segment leads to from a directory. -/
def step (at_ : Place) (segment : String) : Option Place :=
  if t.isDirectory at_ then
    if segment = "" ∨ segment = "." then some at_
    else if segment = ".." then some at_.dropLast
    else if segment.utf8ByteSize ≤ maxName then some (at_ ++ [segment])
    else none
  else none

/-- The place that a path leads to. There may be nothing at it. -/
def locate? (p : Path) : Option Place :=
  if accepts p then p.segments.foldlM t.step (t.startOf p) else none

/-- The content of a file. -/
def read? (p : Path) : Option Bytes :=
  match (t.locate? p).bind t.node? with
  | some (.file content) => some content
  | _ => none

/-! ### Changes -/

/-- Follows a segment, and makes a directory where there is nothing. -/
def stepMaking (at_ : Place) (segment : String) : Option (Place × FileTree) := do
  let next ← t.step at_ segment
  match t.node? next with
  | some .directory => some (next, t)
  | some (.file _) => none
  | none => some (next, t.put next .directory)

/-- Follows segments, and makes a directory wherever there is nothing, up to the first segment that
leads nowhere. Says whether it came to the end. -/
def makeAlong (t : FileTree) (at_ : Place) : List String → Bool × FileTree
  | [] => (true, t)
  | s :: segments =>
    match t.stepMaking at_ s with
    | some (next, t) => t.makeAlong next segments
    | none => (false, t)

/-- Makes a directory and all that are missing above it, as far as there is a way. -/
def makeDirs (p : Path) : Bool × FileTree :=
  if p.text = "" then (true, t)
  else if accepts p then t.makeAlong (t.startOf p) p.segments
  else (false, t)

/-- The tree with a directory and all above it, if they can be made. -/
def makeDirs? (p : Path) : Option FileTree :=
  match t.makeDirs p with
  | (true, t) => some t
  | (false, _) => none

/-- The tree with the directories above a path, as far as there is a way to them. -/
def makeAbove (p : Path) : FileTree :=
  match p.parent? with
  | some parent => (t.makeDirs parent).2
  | none => t

/-- Makes an empty file, also in the place of a file that is there. -/
def create? (p : Path) : Option FileTree := do
  let place ← t.locate? p
  if t.isDirectory place then none else some (t.put place (.file []))

/-- Adds bytes at the end of a file. -/
def append? (p : Path) (bytes : Bytes) : Option FileTree := do
  let place ← t.locate? p
  match t.node? place with
  | some (.file content) => some (t.put place (.file (content ++ bytes)))
  | _ => none

/-- Makes an empty file and the directories above it. If the file cannot be made, `makeAbove` is what
is left of the attempt. -/
def createBelow? (root p : Path) : Option FileTree := do
  let path := root.push p
  let t ← match path.parent? with
    | some parent => t.makeDirs? parent
    | none => some t
  t.create? path

/-- All files below the working directory, by their paths from there. -/
def files : List (Path × Bytes) :=
  t.nodes.filterMap fun (place, node) =>
    match node with
    | .directory => none
    | .file content =>
      if t.workDir.isPrefixOf place then
        some (⟨"/".intercalate (place.drop t.workDir.length)⟩, content)
      else none

/-- The files that are not the same in an earlier tree. -/
def filesSince (before : FileTree) : List (Path × Bytes) :=
  t.files.filter fun f => !before.files.contains f

/-! ### The tree as a destination -/

/-- Replaces the tree by the outcome of an action, or else by what the action leaves of it. -/
def attempt (f : FileTree → Option FileTree) (left : FileTree → FileTree) : StateM FileTree Bool :=
  fun t =>
    match f t with
    | some t => (true, t)
    | none => (false, left t)

/-- Writes artifacts below a directory and copies from files of the same tree. -/
def destination (root : Path) : Destination (StateM FileTree) where
  openSink p := attempt (createBelow? · root p) (makeAbove · (root.push p))
  write p bytes := attempt (append? · (root.push p) bytes) id
  flush _ := pure true
  close _ := pure ()
  readSource p := return (← get).read? p

end FileTree

end Bindery
