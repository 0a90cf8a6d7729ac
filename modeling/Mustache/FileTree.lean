import Mustache.Loader

/-!
# File trees

A tree of directories and files below a root and around a working directory. A path is walked piece
by piece, from the root if it is absolute and from the working directory if it is not. Each piece
but the last has to be a directory, `..` leads to the parent of the directory reached so far, and a
slash or a dot at the end asks for a directory. Paths that are too long reach nothing.

Where the working directory lies below the root is not told. It and those above it hold nothing but
what is put there by relative paths.
-/

namespace Mustache

/-- What a place in a tree holds. -/
inductive Node
  | directory
  /-- A file, with its text if it is text. -/
  | file (text? : Option Text)
  deriving DecidableEq

/-- A directory that places are reached from. -/
inductive Base
  /-- The directory so many levels above the working directory; this itself is none above. -/
  | above (levels : Nat)
  /-- The root. -/
  | root
  deriving DecidableEq

/-- The directory that a directory is in. The root is in itself. -/
def Base.parent : Base → Base
  | .above levels => .above (levels + 1)
  | .root => .root

/-- A place in a tree: the directory that it is reached from, and the names that lead to it from
there. -/
structure Place where
  base : Base := .above 0
  names : List Text := []
  deriving DecidableEq

namespace Place

/-- The place of a name in the directory at a place. -/
def child (place : Place) (name : Text) : Place :=
  ⟨place.base, place.names ++ [name]⟩

/-- The directory that a place is in. -/
def parent (place : Place) : Place :=
  if place.names = [] then ⟨place.base.parent, []⟩ else ⟨place.base, place.names.dropLast⟩

/-- The place that a step of a path leads to, whether or not there is anything. -/
def step (place : Place) : Path.Component → Place
  | .name name => place.child name
  | .up => place.parent
  | .root => ⟨.root, []⟩
  | .here => place

/-- The names that lead from a place to another one below it. -/
def namesTo? (place other : Place) : Option (List Text) :=
  if place.base = other.base ∧ place.names.isPrefixOf other.names then
    some (other.names.drop place.names.length)
  else none

/-- The order of places below one: name by name, a place before what is below it. -/
def ordered : List Text → List Text → Bool
  | [], _ => true
  | _ :: _, [] => false
  | a :: p, b :: q => if a = b then ordered p q else Text.ordered a b

end Place

/-- A tree of directories and files. The root, the working directory and those above it are always
there. -/
structure FileTree where
  nodes : List (Place × Node) := []

namespace FileTree

/-- What is at a place. -/
def node? (tree : FileTree) (place : Place) : Option Node :=
  if place.names = [] then some .directory
  else (tree.nodes.find? fun node => node.1 = place).map (·.2)

/-- One step of a walk, from a place that has to be a directory. -/
def step? (tree : FileTree) (place : Place) (piece : Text) : Option Place :=
  if tree.node? place ≠ some .directory then none
  else match Path.Component.ofPiece? piece with
    | none => some place
    | some component =>
      if (tree.node? (place.step component)).isSome then some (place.step component) else none

/-- The bytes that the text of a path has at most. -/
def maxPathSize : Nat := 4095

/-- The place that a path leads to. -/
def walk? (tree : FileTree) (path : Path) : Option Place :=
  if path.text = [] ∨ maxPathSize < Text.size path.text then none
  else
    let start : Place := if path.isAbsolute then ⟨.root, []⟩ else {}
    (Text.pieces (· == '/') path.text).foldlM tree.step? start

/-- What is at the place that a path leads to. -/
def find? (tree : FileTree) (path : Path) : Option Node :=
  (tree.walk? path).bind tree.node?

/-- Whether a path leads to a directory. -/
def isDirectory (tree : FileTree) (path : Path) : Bool :=
  tree.find? path == some .directory

/-- Whether a path leads to a file. -/
def isFile (tree : FileTree) (path : Path) : Bool :=
  match tree.find? path with
  | some (.file _) => true
  | _ => false

/-- The text of the file that a path leads to. Reference: `FileLoader.load`. -/
def load (tree : FileTree) : Loader := fun path =>
  match tree.find? path with
  | some (.file (some text)) => .ok text
  | _ => .error (.notFound path)

/-- Puts something at a place, in place of what was there. -/
def put (tree : FileTree) (place : Place) (node : Node) : FileTree :=
  ⟨tree.nodes.filter (fun other => other.1 ≠ place) ++ [(place, node)]⟩

/-- Makes a directory of a place where there is nothing. -/
def makeDirectory (tree : FileTree) (place : Place) : FileTree :=
  if (tree.node? place).isSome then tree else tree.put place .directory

/-- Puts something where the steps from a place lead, and makes every directory on the way, also one
that a `..` leaves again. -/
def insertFrom (tree : FileTree) (node : Node) (place : Place) : List Path.Component → FileTree
  | [] => tree
  | [.name name] => tree.put (place.child name) node
  | step :: steps => (tree.makeDirectory (place.step step)).insertFrom node (place.step step) steps

/-- Puts something where a path leads, and makes every directory on the way. -/
def insert (tree : FileTree) (path : Path) (node : Node) : FileTree :=
  tree.insertFrom node {} path.components

/-- The files below a place, in the order of their names, name by name. -/
def filesBelow (tree : FileTree) (place : Place) : List (List Text) :=
  let below := tree.nodes.filterMap fun (other, node) =>
    match node with
    | .directory => none
    | .file _ => place.namesTo? other
  below.mergeSort Place.ordered

/-- The files of a tree as a source. -/
def source (tree : FileTree) : Source where
  load := tree.load
  texts := tree.nodes.filterMap fun (_, node) =>
    match node with
    | .directory => none
    | .file text? => text?
  mem_texts := by
    intro path text h
    simp only [load] at h
    split at h
    next text hfind =>
      cases h
      obtain ⟨place, -, hnode⟩ := Option.bind_eq_some_iff.1 hfind
      simp only [node?] at hnode
      split at hnode
      · cases hnode
      · obtain ⟨⟨other, node⟩, hmem, rfl⟩ := Option.map_eq_some_iff.1 hnode
        exact List.mem_filterMap.2 ⟨_, List.mem_of_find?_eq_some hmem, rfl⟩
    next => cases h

end FileTree

end Mustache
