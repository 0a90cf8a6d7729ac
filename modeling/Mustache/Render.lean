import Mustache.Context
import Mustache.Entries
import Mustache.Escape
import Mustache.Parse

/-!
# Rendering

Tags are rendered against a context to a text, and to a record of what happened on the way: the
lambdas that were called, the partials that were not there, the texts of lambdas that were no
templates.

Partials may include themselves and lambdas may ask for what calls them again, so that a rendering
need not end. `renderBlock` follows the nesting of blocks down to a given depth: `none` says that it
ran out of depth, and nothing else does.
-/

namespace Mustache

open Renderable

/-- The parsed partials by name. -/
abbrev Partials := List (Text × List Tag)

/-- What happens in the course of a rendering. Reference: the records of `Renderer.render` and
`Renderer.render_text`. -/
inductive Event
  /-- A lambda is called with the source of its section. -/
  | called (label : Option Text) (source : Text)
  /-- A partial is rendered that is not there. -/
  | missing (name : Text)
  /-- A lambda asks for a text to be rendered that is no template. -/
  | unparsable (error : Error)
  deriving DecidableEq

/-- What a rendering results in. -/
structure Rendering where
  text : Text := []
  events : List Event := []
  deriving DecidableEq

namespace Rendering

/-- One rendering after another. -/
def append (a b : Rendering) : Rendering :=
  ⟨a.text ++ b.text, a.events ++ b.events⟩

instance : Append Rendering := ⟨append⟩

/-- Renders the items of a list one after another, as far as all of them can be rendered. -/
def each {α : Type} (render : α → Option Rendering) : List α → Option Rendering
  | [] => some {}
  | a :: as =>
    match render a with
    | none => none
    | some r => (each render as).map (r ++ ·)

end Rendering

/-- How the blocks of tags inside a tag are rendered, in a context. -/
abbrev BlockRenderer (V : Type) := Context V → List Tag → Option Rendering

/-- What tags are rendered with beside the context. Reference: `Renderer`. -/
structure Scope where
  keyType : KeyType
  partials : Partials

/-- What a reply ends with, and the events of the renderings that it asks for. -/
def Reply.render (answer : Text → Option Rendering) : Reply → Option Rendering
  | .done text => some ⟨text, []⟩
  | .ask text next =>
    match answer text with
    | none => none
    | some r => ((next r.text).render answer).map fun s => ⟨s.text, r.events ++ s.events⟩

/-- A call of a lambda. Reference: `Lambda.call`. -/
def Lambda.render (l : Lambda) (source : Text) (answer : Text → Option Rendering) :
    Option Rendering :=
  ((l.respond source).render answer).map fun r => ⟨r.text, .called l.label source :: r.events⟩

section

variable {V : Type}

/-- The rendering of a text in a context: nothing if the text is no template. Reference:
`Renderer.render_text`. -/
def renderText (block : BlockRenderer V) (delimiters : Delimiters) (context : Context V)
    (text : Text) : Option Rendering :=
  match parseTags delimiters text with
  | .ok tags => block context tags
  | .error error => some ⟨[], [.unparsable error]⟩

variable [Renderable V]

/-- The text of a key. A lambda is called without a source, and its texts begin with the usual
delimiters. Reference: `Renderer.interpolate`. -/
def renderKey (block : BlockRenderer V) (scope : Scope) (context : Context V) (key : Text) :
    Option Rendering :=
  match context.resolve scope.keyType key with
  | none => some {}
  | some v =>
    match lambda? v with
    | some l => l.render [] (renderText block {} context)
    | none => some ⟨toText v, []⟩

/-- A section: once for each item of a sequence, once for a mapping, once on the same context for a
scalar that counts as true. A lambda is called with the source instead. Reference:
`Renderer.section`. -/
def renderSection (block : BlockRenderer V) (scope : Scope) (context : Context V)
    (key source : Text) (delimiters : Delimiters) (children : List Tag) : Option Rendering :=
  match context.resolve scope.keyType key with
  | none => some {}
  | some v =>
    match shape v with
    | .lambda =>
      match lambda? v with
      | some l => l.render source (renderText block delimiters context)
      | none => some {}
    | .sequence => Rendering.each (fun item => block (item :: context) children) (items v)
    | .mapping => block (v :: context) children
    | .scalar => if truthy v then block context children else some {}
    | .null => some {}

/-- An inverted section: once unless the key has a value that counts as true. Reference: the
inverted section in `Renderer.render`. -/
def renderInverted (block : BlockRenderer V) (scope : Scope) (context : Context V) (key : Text)
    (children : List Tag) : Option Rendering :=
  if (context.resolve scope.keyType key).any truthy then some {} else block context children

/-- A tag, given how the blocks inside it are rendered. Reference: the cases of
`Renderer.render`. -/
def renderTag (block : BlockRenderer V) (scope : Scope) (context : Context V) :
    Tag → Option Rendering
  | .literal text => some ⟨text, []⟩
  | .escaped key =>
    (renderKey block scope context key).map fun r => ⟨escape r.text, r.events⟩
  | .raw key => renderKey block scope context key
  | .block key source delimiters children =>
    renderSection block scope context key source delimiters children
  | .inverted key children => renderInverted block scope context key children
  | .inclusion name =>
    match valueAt? scope.partials name with
    | some tags => block context tags
    | none => some ⟨[], [.missing name]⟩

/-- A block of tags, down to a depth of nested blocks. Reference: `Renderer.render`. -/
def renderBlock (scope : Scope) : (depth : Nat) → BlockRenderer V
  | 0, _, _ => none
  | depth + 1, context, tags =>
    Rendering.each (renderTag (renderBlock scope depth) scope context) tags

end

end Mustache
