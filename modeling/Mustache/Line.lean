import Mustache.Text.Space

/-!
# Standalone lines

A tag that has its line to itself, spaces and tabs apart, vanishes with that line. Whether it does
is read off the text around the tag: `indent?` looks back to the last line feed of the text in
front, `restOfLine?` ahead to the next one. `Line.around?` puts the two together.
-/

namespace Mustache

/-- The text around a tag that stands alone on its line. Reference: `Line`. -/
structure Line where
  /-- The text in front of the line. -/
  kept : Text
  /-- The part of the line in front of the tag. -/
  indent : Text
  /-- The part of the line after the tag, with its line feed. -/
  tail : Text
  /-- The text after the line. -/
  rest : Text
  deriving DecidableEq

namespace Line

/-- The text up to its last line feed, which is included, and what follows it. -/
def splitLast : Text → Text × Text
  | [] => ([], [])
  | c :: t =>
    match splitLast t with
    | ([], last) => if c = '\n' then (['\n'], last) else ([], c :: last)
    | (lines, last) => (c :: lines, last)

/-- The text in front of a tag, cut where the line of the tag begins, if only blanks stand between.
A text without a line feed has the beginning of the line only if it is `fresh`: if it begins where
a line does. Reference: the start of the line in `standalone`. -/
def indent? (fresh : Bool) (lead : Text) : Option (Text × Text) :=
  let (lines, last) := splitLast lead
  if (fresh || !lines.isEmpty) && last.all Text.isBlank then some (lines, last) else none

/-- The text after a tag, cut after the end of the line, if only blanks stand before it. A carriage
return may stand in front of the line feed or of the end of the text. Reference: the end of the line
in `standalone`. -/
def restOfLine? (text : Text) : Option (Text × Text) :=
  let blanks := text.takeWhile Text.isBlank
  match text.dropWhile Text.isBlank with
  | [] => some (blanks, [])
  | ['\r'] => some (blanks ++ ['\r'], [])
  | '\n' :: rest => some (blanks ++ ['\n'], rest)
  | '\r' :: '\n' :: rest => some (blanks ++ ['\r', '\n'], rest)
  | _ => none

/-- The line on which a tag between the texts `lead` and `rest` stands alone, if it does. Reference:
`standalone`. -/
def around? (fresh : Bool) (lead rest : Text) : Option Line :=
  match indent? fresh lead, restOfLine? rest with
  | some (kept, indent), some (tail, rest) => some ⟨kept, indent, tail, rest⟩
  | _, _ => none

/-- A text ends where a line begins if it is empty or its last character is a line feed. -/
def endsLine (t : Text) : Bool :=
  t.getLast?.all (· == '\n')

/-- The offsets between which the line lies on which the tag from `start` to `stop` stands alone.
The line is not looked for in front of `floor`. Reference: `standalone`. -/
def find? (src : Text) (floor start stop : Nat) : Option (Nat × Nat) :=
  let fresh := endsLine (Text.takeBytes floor src)
  let lead := Text.slice floor start src
  (around? fresh lead (Text.dropBytes stop src)).map fun line =>
    (start - Text.size line.indent, stop + Text.size line.tail)

variable {t lines last lead rest kept indent tail : Text} {fresh : Bool} {line : Line}

/-- A character stays in front of the last line feed if there is one, or if it is the last. -/
theorem splitLast_cons (c : Char) (t : Text) : splitLast (c :: t) =
    if (splitLast t).1 = [] ∧ c ≠ '\n' then ([], c :: (splitLast t).2)
    else (c :: (splitLast t).1, (splitLast t).2) := by
  rw [splitLast]
  split
  next last hsplit =>
    rw [hsplit]
    by_cases hc : c = '\n'
    · subst hc
      rfl
    · simp only [hc, if_false, ne_eq, not_false_eq_true, and_self, if_true]
  next lines last hne hsplit =>
    rw [hsplit, if_neg fun h => hne h.1]

/-- Splitting at the last line feed loses nothing. -/
theorem splitLast_append (h : splitLast t = (lines, last)) : t = lines ++ last := by
  induction t generalizing lines last with
  | nil => cases h; rfl
  | cons c t ih =>
    have hsplit : t = (splitLast t).1 ++ (splitLast t).2 := ih rfl
    rw [splitLast_cons] at h
    split at h
    next hnil =>
      cases h
      rw [hnil.1, List.nil_append] at hsplit
      rw [List.nil_append, ← hsplit]
    next =>
      cases h
      rw [List.cons_append, ← hsplit]

/-- The text in front of a tag is what is kept of it and the indentation. -/
theorem indent?_append (h : indent? fresh lead = some (kept, indent)) : lead = kept ++ indent := by
  simp only [indent?] at h
  split at h
  · cases h; exact splitLast_append rfl
  · cases h

/-- The text after a tag is the rest of its line and what follows that. -/
theorem restOfLine?_append (h : restOfLine? t = some (tail, rest)) : t = tail ++ rest := by
  have hsplit := List.takeWhile_append_dropWhile (p := Text.isBlank) (l := t)
  simp only [restOfLine?] at h
  split at h
  case h_5 => cases h
  all_goals
    next hdrop =>
      cases h
      rw [hdrop] at hsplit
      simpa only [List.append_assoc, List.append_nil, List.cons_append, List.nil_append]
        using hsplit.symm

/-- The line around a tag is made of the text on either side of the tag. -/
theorem around?_append (h : around? fresh lead t = some line) :
    lead = line.kept ++ line.indent ∧ t = line.tail ++ line.rest := by
  simp only [around?] at h
  split at h
  next kept indent tail rest hindent hrest =>
    cases h
    exact ⟨indent?_append hindent, restOfLine?_append hrest⟩
  next => cases h

end Line

end Mustache
