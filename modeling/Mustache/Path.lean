import Mustache.Text.Basic

/-!
# Paths

A path is kept as it is written, and printed so. Two paths are the same file name when their
`components` agree: repeated slashes, a slash at the end and a `.` inside do not count, a `.` in
front does, and `..` is never resolved.

Written text splits into an anchor, which is a slash, a dot or nothing, and a body of pieces between
slashes; `join`, `parent?` and the names of the last component work on that split.
-/

namespace Mustache

/-- A path as it is written. -/
structure Path where
  text : Text
  deriving DecidableEq

namespace Path

/-- A step of a path. -/
inductive Component
  /-- The root, in front of an absolute path. -/
  | root
  /-- A `.` in front of a relative path. -/
  | here
  /-- A `..`. -/
  | up
  /-- A name. -/
  | name (text : Text)
  deriving DecidableEq

/-- The step written by a piece between slashes; empty pieces and dots write none. -/
def Component.ofPiece? (piece : Text) : Option Component :=
  if piece = [] ∨ piece = ['.'] then none
  else if piece = ['.', '.'] then some .up
  else some (.name piece)

/-- The anchor of a path and the text after it: the slash of an absolute path, the dot of a path
that begins with the component `.`, or nothing. -/
def split (p : Path) : Text × Text :=
  match p.text with
  | '/' :: body => (['/'], body)
  | ['.'] => (['.'], [])
  | '.' :: '/' :: body => (['.'], '/' :: body)
  | body => ([], body)

/-- A path that begins with a slash. -/
def isAbsolute (p : Path) : Bool :=
  p.split.1 == ['/']

/-- The texts between the slashes of the body. -/
def pieces (p : Path) : List Text :=
  Text.pieces (· == '/') p.split.2

/-- The steps of a path. -/
def components (p : Path) : List Component :=
  let front : List Component :=
    if p.split.1 = ['/'] then [.root] else if p.split.1 = ['.'] then [.here] else []
  front ++ p.pieces.filterMap Component.ofPiece?

/-- Paths with the same components name the same file. -/
def Same (p q : Path) : Prop :=
  p.components = q.components

instance (p q : Path) : Decidable (p.Same q) :=
  inferInstanceAs (Decidable (p.components = q.components))

/-- The path `q` seen from the directory `p`. An absolute `q` replaces `p`; else a slash is put
between the two unless `p` is empty or ends in one. -/
def join (p q : Path) : Path :=
  if q.isAbsolute then q
  else if p.text = [] ∨ p.text.getLast? = some '/' then ⟨p.text ++ q.text⟩
  else ⟨p.text ++ '/' :: q.text⟩

/-- The pieces up to the last one that writes a step. -/
def trimPieces (pieces : List Text) : List Text :=
  (pieces.reverse.dropWhile fun piece => (Component.ofPiece? piece).isNone).reverse

/-- The path without its last step and what separates it from the one before. The root and the
empty path have no parent. -/
def parent? (p : Path) : Option Path :=
  match trimPieces p.pieces with
  | [] => if p.split.1 = ['.'] then some ⟨[]⟩ else none
  | steps => some ⟨p.split.1 ++ List.intercalate ['/'] (trimPieces steps.dropLast)⟩

/-- The directory that a file is in. Reference: `parent_dir`. -/
def directory (p : Path) : Path :=
  p.parent?.getD ⟨[]⟩

/-- The name that a path ends in. -/
def fileName? (p : Path) : Option Text :=
  match p.components.getLast? with
  | some (.name text) => some text
  | _ => none

/-- A file name up to its last dot, and what follows the dot. A dot in front is part of the name. -/
def splitName (name : Text) : Text × Option Text :=
  match (name.tail.reverse).span (· ≠ '.') with
  | (_, []) => (name, none)
  | (extension, _ :: stem) => (name.take 1 ++ stem.reverse, some extension.reverse)

/-- The file name without its extension. -/
def stem? (p : Path) : Option Text :=
  p.fileName?.map fun name => (splitName name).1

/-- What follows the last dot of the file name. -/
def extension? (p : Path) : Option Text :=
  p.fileName?.bind fun name => (splitName name).2

end Path

end Mustache
