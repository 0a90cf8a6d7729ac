import Mustache.Render
import Mustache.Value.Basic

/-!
# Templates

A template is a parsed text with a table of partials. Its own tags never change. The table fills up
as partials are added, and the template remembers every partial name that it or one of its partials
has ever referred to, in the order of first reference.
-/

namespace Mustache

/-- What is decided for a template beside its text. Reference: `Options`. -/
structure Options where
  keyType : KeyType := .text
  deriving DecidableEq

/-- A parsed template with its partials. Reference: `Template`. -/
structure Template where
  tags : List Tag
  partials : Partials := []
  names : List Text
  options : Options := {}

/-- What registering a text as a partial results in. -/
structure Addition where
  /-- The template afterwards. -/
  template : Template
  /-- The error, if the text is no template. -/
  error? : Option Error

namespace Template

/-- The template that a text says, without partials. Reference: `Template.parse`. -/
def parse (src : Text) : Except Error Template :=
  (Mustache.parse {} src).map fun (tags, state) => { tags, names := state.names }

/-- The template under other options. Reference: `Template.with_options`. -/
def withOptions (t : Template) (options : Options) : Template :=
  { t with options }

/-- The tags of a partial. Reference: `Template.partial`. -/
def find? (t : Template) (name : Text) : Option (List Tag) :=
  valueAt? t.partials name

/-- The names that are referred to and have no partial yet. Reference:
`Template.missing_partials`. -/
def missing (t : Template) : List Text :=
  t.names.filter fun name => (t.find? name).isNone

/-- Registers the tags of a partial, and the names that it refers to. Reference:
`Template.insert_partial`. -/
def insert (t : Template) (name : Text) (tags : List Tag) (names : List Text) : Template :=
  { t with names := addNames t.names names, partials := setEntry name tags t.partials }

/-- Parses a text and registers it as a partial. If it is no template, nothing is registered.
Reference: `Template.add_partial`. -/
def register (t : Template) (name src : Text) : Addition :=
  match Mustache.parse {} src with
  | .error error => ⟨t, some error⟩
  | .ok (tags, state) => ⟨t.insert name tags state.names, none⟩

/-- The template with a text registered as a partial, or the error. Reference: the result of
`Template.add_partial`. -/
def addPartial (t : Template) (name src : Text) : Except Error Template :=
  match t.register name src with
  | ⟨_, some error⟩ => .error error
  | ⟨u, none⟩ => .ok u

section Addition

variable {t : Template} {name src : Text} {error : Error}

/-- A text that is no template changes nothing. -/
theorem register_of_error (h : Mustache.parse {} src = .error error) :
    t.register name src = ⟨t, some error⟩ := by
  rw [register, h]

/-- The template is as it was, or the text is a partial of it. -/
theorem register_cases (t : Template) (name src : Text) :
    (∃ error, t.register name src = ⟨t, some error⟩) ∨
      ∃ u, t.addPartial name src = .ok u ∧ t.register name src = ⟨u, none⟩ := by
  unfold addPartial
  cases hparse : Mustache.parse {} src with
  | error error => exact .inl ⟨error, register_of_error hparse⟩
  | ok p =>
    have hregister : t.register name src = ⟨t.insert name p.1 p.2.names, none⟩ := by
      rw [register, hparse]
    exact .inr ⟨_, by rw [hregister], hregister⟩

/-- The text is parsed, and its tags and names are registered. -/
theorem addPartial_eq_map : t.addPartial name src =
    (Mustache.parse {} src).map fun (tags, state) => t.insert name tags state.names := by
  unfold addPartial register
  cases Mustache.parse {} src <;> rfl

end Addition

/-- What the tags of the template are rendered with. Reference: `Renderer.new`. -/
def scope (t : Template) : Scope :=
  ⟨t.options.keyType, t.partials⟩

/-- The rendering of a template against a value, down to a depth of nested blocks. Reference:
`Template.render`. -/
def renderWithin {V : Type} [Renderable V] (t : Template) (depth : Nat) (v : V) :
    Option Rendering :=
  renderBlock t.scope depth [v] t.tags

/-- The depth that `render?` follows the nesting of blocks to. -/
def maxDepth : Nat := 20000

/-- The rendering of a template against a value, if it ends. Reference: `Template.render`. -/
def render? {V : Type} [Renderable V] (t : Template) (v : V) : Option Rendering :=
  t.renderWithin maxDepth v

/-- Two tables have the same tags for every name. -/
def samePartials (p q : Partials) : Bool :=
  (p ++ q).all fun (name, _) => decide (valueAt? p name = valueAt? q name)

/-- Whether two templates are the same: the order in which their partials were registered does not
count. Reference: the equality of `Template`. -/
def same (s t : Template) : Bool :=
  decide (s.tags = t.tags) && samePartials s.partials t.partials && decide (s.names = t.names) &&
    decide (s.options = t.options)

end Template

end Mustache
