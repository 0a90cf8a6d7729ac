import Mustache.Text.Space

/-!
# Delimiters

The pair of texts between which tags are written. A template starts with a double brace on either
side and changes the pair with a tag whose content names the two new texts.
-/

namespace Mustache

/-- The texts that open and close a tag. Reference: `Delimiters`. -/
structure Delimiters where
  start : Text := ['{', '{']
  stop : Text := ['}', '}']
  deriving DecidableEq

namespace Delimiters

instance : Inhabited Delimiters := ⟨{}⟩

/-- The pair named by the content of a delimiter change: exactly two words, neither of which
contains an equals sign. Reference: `parse_delimiters`. -/
def ofContent? (content : Text) : Option Delimiters :=
  match Text.words content with
  | [start, stop] => if '=' ∈ start ∨ '=' ∈ stop then none else some ⟨start, stop⟩
  | _ => none

end Delimiters

end Mustache
