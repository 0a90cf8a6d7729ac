import Mustache.Text.Basic

/-!
# Escaping

The four characters that mean something in HTML text and attributes are written as entities.
-/

namespace Mustache

/-- A character as it is written in HTML. Reference: the characters of `ESCAPE`. -/
def escapeChar : Char → Text
  | '&' => "&amp;".toList
  | '<' => "&lt;".toList
  | '>' => "&gt;".toList
  | '"' => "&quot;".toList
  | c => [c]

/-- A text as it is written in HTML. Reference: `escape_html`. -/
def escape (t : Text) : Text :=
  t.flatMap escapeChar

end Mustache
