import Mustache.Compilation
import Mustache.FileTree
import Mustache.Text.Identifier
import Mustache.Text.Quoted
import Mustache.Text.Uppercase

/-!
# Accessors

Templates can be checked and embedded when a program is built. Each then has a function that yields
it, named after the template: the name in snake case, with underscores for dashes, dots and blanks.
An accessor for a file embeds it with every partial that it leads to, so that the program reads no
file when it runs.

A template with an error is declared as that error. A name that is no identifier declares nothing.
-/

namespace Mustache

/-- A character of a name in snake case: an underscore goes in front of an upper-case one unless it
is the first of the name. Reference: a step of `to_snake_case`. -/
def snakeChar (isFirst : Bool) (c : Char) : Text :=
  if Text.isUppercase c then (if isFirst then [] else ['_']) ++ Text.lowercase c else [c]

/-- A name in snake case. Reference: `to_snake_case`. -/
def snakeCase : Text → Text
  | [] => []
  | c :: t => snakeChar true c ++ t.flatMap (snakeChar false)

/-- The characters of a template's name that an underscore stands for. Reference: the characters
that `function_ident` replaces. -/
def isSeparator (c : Char) : Bool :=
  c == '-' || c == '.' || c == ' '

/-- The name of the function for a template. Reference: the name in `function_ident`. -/
def accessorName (name : Text) : Text :=
  snakeCase (name.map fun c => if isSeparator c then '_' else c)

/-- The name of the function for a template, if it can be one. Reference: `function_ident`. -/
def accessor? (name : Text) : Option Text :=
  let name := accessorName name
  if Text.isIdentifier name then some name else none

/-- What is declared for a template. Reference: the results of `generate_code_for_content` and
`generate_code_for_file`. -/
inductive Declaration
  /-- An error, in words. -/
  | fault (message : Text)
  /-- A function that yields the template of a text. -/
  | inline (function source : Text)
  /-- A function that yields the template of a file, with the files that it embeds. -/
  | file (function : Text) (root : Path) (files : List Path)
  deriving DecidableEq

/-- The declaration for a template that is given as a text. An error in it comes before one in its
name. Reference: `generate_code_for_content`. -/
def declareText (name src : Text) : Option Declaration :=
  match Template.parse src with
  | .error error => some (.fault error.message)
  | .ok _ => (accessor? name).map fun function => .inline function src

/-- The declaration for a file that is there. Reference: `generate_code_for_file`. -/
def declareRoot (tree : FileTree) (path : Path) : Option Declaration :=
  let c := compilePath {} tree.source path
  match c.result with
  | .error error => some (.fault error.message)
  | .ok _ => (accessor? (path.stem?.getD [])).map fun function => .file function path c.paths

/-- The declaration for a file. Reference: `dry_mustache_file`. -/
def declareFile (tree : FileTree) (path : Path) : Option Declaration :=
  if tree.isFile path then declareRoot tree path
  else some (.fault ("File not found: ".toList ++ Text.quoted path.text))

/-- The extension of template files. Reference: `TEMPLATE_EXTENSION`. -/
def templateExtension : Text := "mustache".toList

/-- The templates below a directory, in the order of their names. Reference: the paths in
`dry_mustache_directory`. -/
def templatesBelow (tree : FileTree) (dir : Path) : List Path :=
  match tree.walk? dir with
  | none => []
  | some place =>
    ((tree.filesBelow place).map fun names => names.foldl (fun path name => path.join ⟨name⟩) dir)
      |>.filter fun path => path.extension? = some templateExtension

/-- The declarations for the templates of a directory. One name that is no identifier spoils them
all. Reference: `dry_mustache_directory`. -/
def declareDirectory (tree : FileTree) (dir : Path) : Option (List Declaration) :=
  if tree.isDirectory dir then (templatesBelow tree dir).mapM (declareRoot tree)
  else some [.fault ("Directory not found: ".toList ++ Text.quoted dir.text)]

end Mustache
