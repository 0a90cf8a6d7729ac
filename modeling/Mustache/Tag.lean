import Mustache.Delimiters

/-!
# The tag tree

What a template says, tag by tag. A section owns the tags between its open and its close tag, and
keeps the text between them as it was written, with the delimiters that the text is written in: a
lambda is given that text.
-/

namespace Mustache

/-- A unit of a template. Reference: `Tag`. -/
inductive Tag
  /-- Text that stands for itself. -/
  | literal (text : Text)
  /-- The value of a key, escaped. -/
  | escaped (key : Text)
  /-- The value of a key as it is. -/
  | raw (key : Text)
  /-- A section: its children are rendered as the value of the key says. -/
  | block (key source : Text) (delimiters : Delimiters) (children : List Tag)
  /-- An inverted section: its children are rendered if the key has no value or a false one. -/
  | inverted (key : Text) (children : List Tag)
  /-- The place of a partial. -/
  | inclusion (name : Text)

namespace Tag

mutual

/-- Tags are compared by structure. -/
def decEq : (a b : Tag) → Decidable (a = b)
  | .literal s, .literal t =>
    if h : s = t then isTrue (h ▸ rfl) else isFalse fun e => h (Tag.literal.inj e)
  | .escaped s, .escaped t =>
    if h : s = t then isTrue (h ▸ rfl) else isFalse fun e => h (Tag.escaped.inj e)
  | .raw s, .raw t =>
    if h : s = t then isTrue (h ▸ rfl) else isFalse fun e => h (Tag.raw.inj e)
  | .block k s d ts, .block k' s' d' ts' =>
    match decEqList ts ts' with
    | isTrue hts =>
      if h : k = k' ∧ s = s' ∧ d = d' then
        isTrue (by obtain ⟨rfl, rfl, rfl⟩ := h; rw [hts])
      else isFalse fun e => h (by cases e; exact ⟨rfl, rfl, rfl⟩)
    | isFalse hts => isFalse fun e => hts (by cases e; rfl)
  | .inverted k ts, .inverted k' ts' =>
    match decEqList ts ts' with
    | isTrue hts =>
      if h : k = k' then isTrue (by rw [h, hts]) else isFalse fun e => h (by cases e; rfl)
    | isFalse hts => isFalse fun e => hts (by cases e; rfl)
  | .inclusion s, .inclusion t =>
    if h : s = t then isTrue (h ▸ rfl) else isFalse fun e => h (Tag.inclusion.inj e)
  | .literal _, .escaped _ | .literal _, .raw _ | .literal _, .block .. | .literal _, .inverted ..
  | .literal _, .inclusion _ | .escaped _, .literal _ | .escaped _, .raw _ | .escaped _, .block ..
  | .escaped _, .inverted .. | .escaped _, .inclusion _ | .raw _, .literal _ | .raw _, .escaped _
  | .raw _, .block .. | .raw _, .inverted .. | .raw _, .inclusion _ | .block .., .literal _
  | .block .., .escaped _ | .block .., .raw _ | .block .., .inverted .. | .block .., .inclusion _
  | .inverted .., .literal _ | .inverted .., .escaped _ | .inverted .., .raw _
  | .inverted .., .block .. | .inverted .., .inclusion _ | .inclusion _, .literal _
  | .inclusion _, .escaped _ | .inclusion _, .raw _ | .inclusion _, .block ..
  | .inclusion _, .inverted .. => isFalse nofun

/-- `Tag.decEq` over the tags of a list. -/
def decEqList : (as bs : List Tag) → Decidable (as = bs)
  | [], [] => isTrue rfl
  | a :: as, b :: bs =>
    match decEq a b, decEqList as bs with
    | isTrue h, isTrue hs => isTrue (by rw [h, hs])
    | isFalse h, _ => isFalse fun e => h (List.cons.inj e).1
    | _, isFalse hs => isFalse fun e => hs (List.cons.inj e).2
  | [], _ :: _ | _ :: _, [] => isFalse nofun

end

instance : DecidableEq Tag := decEq

mutual

/-- The names of the partials that have a place in a tag, in the order of their places. Reference:
the calls of `ParserState.reference`. -/
def inclusions : Tag → List Text
  | .literal _ | .escaped _ | .raw _ => []
  | .block _ _ _ children | .inverted _ children => inclusionsList children
  | .inclusion name => [name]

/-- The names of the partials that have a place in a list of tags, in the order of their places. -/
def inclusionsList : List Tag → List Text
  | [] => []
  | t :: ts => inclusions t ++ inclusionsList ts

end

/-- Puts text in front of a list of tags. Empty text is nothing, and text in front of a literal
becomes part of it. Reference: `push_literal`. -/
def consLiteral (text : Text) : List Tag → List Tag
  | .literal t :: ts => .literal (text ++ t) :: ts
  | ts => if text = [] then ts else .literal text :: ts

end Tag

end Mustache
