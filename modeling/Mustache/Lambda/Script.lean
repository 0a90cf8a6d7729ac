import Mustache.Lambda

/-!
# Scripts of lambdas

A small language for lambdas: a script is a list of parts, and its text is that of the parts one
after another. The parts are evaluated from front to back, so that the questions of a script are
asked in the order in which they are written.
-/

namespace Mustache

/-- A part of a script. -/
inductive ScriptPart
  /-- The source of the section. -/
  | source
  /-- A fixed text. -/
  | text (text : Text)
  /-- The rendering of a text. -/
  | render (parts : List ScriptPart)
  /-- A text in upper case, as far as it is ASCII. -/
  | upper (parts : List ScriptPart)
  /-- One of two texts, by whether the source is a given one. -/
  | ifSource (text : Text) (yes no : List ScriptPart)
  deriving Inhabited

namespace ScriptPart

mutual

/-- What a part does, given the source of the section. -/
def reply (source : Text) : ScriptPart → Reply
  | .source => .done source
  | .text t => .done t
  | .render parts => (replies source parts).bind fun t => .ask t .done
  | .upper parts => (replies source parts).bind fun t => .done (t.map Char.toUpper)
  | .ifSource t yes no => if source = t then replies source yes else replies source no

/-- What the parts of a list do, one after another. -/
def replies (source : Text) : List ScriptPart → Reply
  | [] => .done []
  | p :: ps => (reply source p).bind fun t => (replies source ps).bind fun rest => .done (t ++ rest)

end

end ScriptPart

/-- The lambda that a script describes. -/
def Lambda.ofScript (identity : Nat) (label : Option Text) (parts : List ScriptPart) : Lambda :=
  ⟨identity, label, fun source => ScriptPart.replies source parts⟩

end Mustache
