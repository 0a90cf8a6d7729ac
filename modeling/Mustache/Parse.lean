import Mustache.Outline

/-!
# Parsing

A text is a template if the outline of its scan is one part: no tag is left open and every close tag
closes the innermost open section. `parse` yields its tag tree and the names of the partials that it
refers to, after those already known.
-/

namespace Mustache

/-- What a parse begins with, and what it leaves for the next one. Reference: `ParserState`. -/
structure ParseState where
  /-- The delimiters that the text begins with. -/
  delimiters : Delimiters := {}
  /-- The names of the partials referred to so far, each once, in the order of first reference. -/
  names : List Text := []
  deriving DecidableEq

/-- Adds the names that are not there yet, one after another. Reference: `ParserState.reference`,
name by name. -/
def addNames (names new : List Text) : List Text :=
  new.foldl (fun names name => if names.contains name then names else names ++ [name]) names

/-- The tags of a complete outline; a close tag that is left is a fault. Reference: the check of the
`Ending` in `parse`. -/
def Outline.complete : Outline → Except Error (List Tag)
  | .ended tags _ => .ok tags
  | .closed _ source close _ => .error (.malformed ⟨.unopened close.content, source⟩)
  | .faulty fault => .error (.malformed fault)

/-- The tag tree of a text under the delimiters `d`. Reference: the tags of `parse`. -/
def parseTags (d : Delimiters) (src : Text) : Except Error (List Tag) :=
  (Outline.ofScan (Scan.ofText true d src)).complete

/-- Parses a text. The state it leaves has the usual delimiters again. Reference: `parse`. -/
def parse (state : ParseState) (src : Text) : Except Error (List Tag × ParseState) :=
  (parseTags state.delimiters src).map fun tags =>
    (tags, ⟨{}, addNames state.names (Tag.inclusionsList tags)⟩)

end Mustache
