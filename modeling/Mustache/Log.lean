import Mustache.Compilation

/-!
# The log

The records that loading and rendering leave for whoever looks for a fault.
-/

namespace Mustache

/-- The record of an event that deserves one. Reference: `Renderer.render`,
`Renderer.render_text`. -/
def Event.record? : Event → Option Text
  | .called .. => none
  | .missing name =>
    some ("DEBUG partial ".toList ++ name ++ " is not loaded, rendering nothing".toList)
  | .unparsable error =>
    some ("WARN lambda produced an unparsable template: ".toList ++ error.message)

/-- The record of a partial that is asked for. Reference: `Compiler.load_partials`. -/
def Request.record (r : Request) : Text :=
  "DEBUG loading partial ".toList ++ r.name ++ " from ".toList ++ r.path.text

/-- The record of a template that is asked for. Reference: `Compiler.compile_path`. -/
def Path.record (p : Path) : Text :=
  "DEBUG loading template ".toList ++ p.text

/-- The records of a compilation. -/
def Compilation.records (c : Compilation) : List Text :=
  c.root?.toList.map Path.record ++ c.requests.map Request.record

/-- The records of a loading. -/
def Loading.records (l : Loading) : List Text :=
  l.requests.map Request.record

/-- The records of a rendering. -/
def Rendering.records (r : Rendering) : List Text :=
  r.events.filterMap Event.record?

end Mustache
