import Mustache.Loading

/-!
# Compilation

A template is compiled by parsing its text and loading every partial that it leads to. The text is
given, or loaded from a path first; partials are then looked for in the working directory, or beside
the file.
-/

namespace Mustache

/-- What compiling a template results in. -/
structure Compilation where
  result : Except Error Template
  /-- The path that the template's own text was asked for at. -/
  root? : Option Path
  /-- The partials that were asked for, in order. -/
  requests : List Request

namespace Compilation

/-- Parses a text and loads the partials that it leads to from `dir` on. Reference: what
`Compiler.compile_str` and `Compiler.compile_path` share. -/
def ofText (options : Options) (s : Source) (root? : Option Path) (dir : Path) (src : Text) :
    Compilation :=
  match Template.parse src with
  | .error error => ⟨.error error, root?, []⟩
  | .ok t =>
    let l := (t.withOptions options).loadPartials s dir
    match l.error? with
    | none => ⟨.ok l.template, root?, l.requests⟩
    | some error => ⟨.error error, root?, l.requests⟩

/-- The paths that were asked for, in order. Reference: the requests to `RecordingLoader`. -/
def paths (c : Compilation) : List Path :=
  c.root?.toList ++ c.requests.map (·.path)

end Compilation

/-- Compiles a text. Reference: `Compiler.compile_str`. -/
def compileText (options : Options) (s : Source) (src : Text) : Compilation :=
  .ofText options s none ⟨[]⟩ src

/-- Compiles the text at a path. Reference: `Compiler.compile_path`. -/
def compilePath (options : Options) (s : Source) (path : Path) : Compilation :=
  match s.load path with
  | .error error => ⟨.error error, some path, []⟩
  | .ok src => .ofText options s (some path) path.directory src

end Mustache
