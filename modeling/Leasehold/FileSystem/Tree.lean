import Leasehold.FileSystem.Call

/-!
# Trees of files

A tree holds directories and files by place, with a working directory that
relative paths begin at; there are no links. Each file call is an operation on a
tree. A path is walked name by name: what is entered has to be a directory, two
dots lead to the parent, and a slash at the end is one more name to enter. The
root is always there.
-/

namespace Leasehold

/-- The names that lead to a file or directory, the last one first. -/
abbrev Place :=
  List String

/-- What a place can hold. -/
inductive Node where
  | directory
  | file (content : ByteArray)
  deriving Inhabited

instance : DecidableEq Node
  | .directory, .directory => isTrue rfl
  | .directory, .file _ => isFalse fun equal => nomatch equal
  | .file _, .directory => isFalse fun equal => nomatch equal
  | .file a, .file b =>
    match ByteArray.instDecidableEq a b with
    | isTrue same => isTrue (congrArg Node.file same)
    | isFalse different => isFalse fun equal => different (Node.file.inj equal)

/-- Files and directories by place. -/
structure Tree where
  workingDirectory : Place
  nodes : List (Place × Node)

namespace Tree

/-! ## Places -/

/-- What a place holds. -/
def node? (tree : Tree) : Place → Option Node
  | [] => some .directory
  | name :: names => (tree.nodes.find? fun entry => entry.1 == name :: names).map Prod.snd

/-- The tree with something at a place. -/
def put (tree : Tree) (place : Place) (node : Node) : Tree :=
  { tree with nodes := (place, node) :: tree.nodes.filter fun entry => entry.1 != place }

/-- The tree with nothing at a place. -/
def drop (tree : Tree) (place : Place) : Tree :=
  { tree with nodes := tree.nodes.filter fun entry => entry.1 != place }

theorem find?_filter_ne (nodes : List (Place × Node)) {place other : Place} (ne : other ≠ place) :
    (nodes.filter fun entry => entry.1 != place).find? (fun entry => entry.1 == other) =
      nodes.find? fun entry => entry.1 == other := by
  rw [List.find?_filter]
  congr 1
  funext entry
  by_cases same : entry.1 = other
  · simp [same, ne]
  · simp [same]

theorem node?_put (tree : Tree) {place : Place} (ne : place ≠ []) (node : Node) (other : Place) :
    (tree.put place node).node? other = if other = place then some node else tree.node? other := by
  cases other with
  | nil => simp [node?, ne.symm]
  | cons name names =>
    by_cases same : name :: names = place
    · simp [node?, put, same]
    · have different : (place == name :: names) = false := beq_false_of_ne (Ne.symm same)
      rw [if_neg same, node?, node?, put, List.find?_cons, different, find?_filter_ne _ same]

theorem node?_drop (tree : Tree) {place : Place} (ne : place ≠ []) (other : Place) :
    (tree.drop place).node? other = if other = place then none else tree.node? other := by
  cases other with
  | nil => simp [node?, ne.symm]
  | cons name names =>
    by_cases same : name :: names = place
    · simp [node?, drop, same]
    · rw [if_neg same, node?, node?, drop, find?_filter_ne _ same]

/-! ## Walks -/

/-- The length in bytes that a name may have. -/
def nameLimit : Nat :=
  255

/-- The length in bytes that a path may have. -/
def pathLimit : Nat :=
  4095

/-- The pieces of a path that can be walked at all. -/
def walkable (path : Path) : Except IoFailure (List String) :=
  if path.toList.contains '\x00' then .error .nulInName
  else if path = "" then .error .notFound
  else if path.utf8ByteSize ≤ pathLimit then .ok path.pieces
  else .error .nameTooLong

/-- The place that a path begins at. -/
def origin (tree : Tree) (path : Path) : Place :=
  if path.isAbsolute then [] else tree.workingDirectory

/-- Finds out whether something is a directory. -/
def requireDirectory (tree : Tree) (place : Place) : Except IoFailure Unit :=
  match tree.node? place with
  | some .directory => .ok ()
  | some (.file _) => .error .notDirectory
  | none => .error .notFound

/-- One step of a walk. It leads to a place where there need not be anything. -/
def enter (tree : Tree) (place : Place) (name : String) : Except IoFailure Place := do
  tree.requireDirectory place
  if !Path.isName name then return place
  else if name = ".." then return place.tail
  else if nameLimit < name.utf8ByteSize then throw .nameTooLong
  else return name :: place

/-- Where a path leads, and what is there. -/
def locate (tree : Tree) (path : Path) : Except IoFailure (Place × Node) := do
  let pieces ← walkable path
  let place ← pieces.foldlM tree.enter (tree.origin path)
  match tree.node? place with
  | some node => return (place, node)
  | none => throw .notFound

/-- What a path asks to be made or taken away: a name in a directory, and whether
a slash follows it. -/
structure Target where
  directory : Place
  name : String
  slash : Bool
  deriving DecidableEq, Repr

/-- The place of a target. -/
def Target.place (target : Target) : Place :=
  target.name :: target.directory

/-- The target of a path, or none if the path ends with dots or is the root. -/
def target (tree : Tree) (path : Path) : Except IoFailure (Option Target) := do
  let reversed := (← walkable path).reverse
  match reversed.dropWhile (· == "") with
  | [] => return none
  | name :: before =>
    let directory ← before.reverse.foldlM tree.enter (tree.origin path)
    tree.requireDirectory directory
    if name = "." ∨ name = ".." then return none
    else if nameLimit < name.utf8ByteSize then throw .nameTooLong
    else return some ⟨directory, name, reversed.head? == some ""⟩

/-! ## Calls -/

/-- Whether a path leads to anything. -/
def isPresent (tree : Tree) (path : Path) : Bool :=
  match tree.locate path with
  | .ok _ => true
  | .error _ => false

/-- Whether a path leads to a file. -/
def isFile (tree : Tree) (path : Path) : Bool :=
  match tree.locate path with
  | .ok (_, .file _) => true
  | _ => false

/-- Whether a path leads to a directory. -/
def isDirectory (tree : Tree) (path : Path) : Bool :=
  match tree.locate path with
  | .ok (_, .directory) => true
  | _ => false

/-- Makes a directory where nothing is. -/
def makeDirectory (tree : Tree) (path : Path) : Except IoFailure Tree := do
  match ← tree.target path with
  | none => throw .exists
  | some target =>
    match tree.node? target.place with
    | some _ => throw .exists
    | none => return tree.put target.place .directory

/-- The content of a file. -/
def read (tree : Tree) (path : Path) : Except IoFailure ByteArray := do
  match ← tree.locate path with
  | (_, .file content) => return content
  | (_, .directory) => throw .isDirectory

/-- The place of a file that can be written to, and its content if it is there. -/
def writable (tree : Tree) (path : Path) : Except IoFailure (Place × Option ByteArray) := do
  match ← tree.target path with
  | none => throw .isDirectory
  | some target =>
    if target.slash then throw .isDirectory
    else
      match tree.node? target.place with
      | some .directory => throw .isDirectory
      | some (.file content) => return (target.place, some content)
      | none => return (target.place, none)

/-- Makes a file, or changes the content of the one that is there. -/
def change (tree : Tree) (path : Path) (content : Option ByteArray → ByteArray) :
    Except IoFailure Tree := do
  let (place, found) ← tree.writable path
  return tree.put place (.file (content found))

/-- Moves a file, in place of a file that is there. -/
def rename (tree : Tree) (source target : Path) : Except IoFailure Tree := do
  match ← tree.target source, ← tree.target target with
  | some source, some target =>
    match tree.node? source.place with
    | none => throw .notFound
    | some .directory => throw .isDirectory
    | some (.file content) =>
      if source.slash || target.slash then throw .notDirectory
      else if tree.node? target.place = some .directory then throw .isDirectory
      else return (tree.drop source.place).put target.place (.file content)
  | _, _ => throw .busy

/-- Takes a file away. -/
def remove (tree : Tree) (path : Path) : Except IoFailure Tree := do
  match ← tree.locate path with
  | (place, .file _) => return tree.drop place
  | (_, .directory) => throw .isDirectory

/-- The reply of a call that changes the tree, and the tree after it. -/
def settle (tree : Tree) : Except IoFailure Tree → Except IoFailure Unit × Tree
  | .ok changed => (.ok (), changed)
  | .error failure => (.error failure, tree)

/-- Answers a file call. -/
def serve (tree : Tree) : (call : FileCall) → call.Reply × Tree
  | .isPresent path => (tree.isPresent path, tree)
  | .isFile path => (tree.isFile path, tree)
  | .isDirectory path => (tree.isDirectory path, tree)
  | .makeDirectory path => tree.settle (tree.makeDirectory path)
  | .read path => (tree.read path, tree)
  | .create path => tree.settle (tree.change path fun _ => ByteArray.empty)
  | .openFile path => tree.settle (tree.change path fun found => found.getD ByteArray.empty)
  | .lock _ => (.ok (), tree)
  | .unlock _ => (.ok (), tree)
  | .write path content => tree.settle (tree.change path fun _ => content)
  | .append path content =>
    tree.settle (tree.change path fun found => found.getD ByteArray.empty ++ content)
  | .rename source target => tree.settle (tree.rename source target)
  | .remove path => tree.settle (tree.remove path)

end Tree

end Leasehold
