import Mustache.Delimiters
import Mustache.Error

/-!
# Expressions

An expression is a tag as it stands in the text. `Expression.next?` finds the first one of a text
under a pair of delimiters: it begins at the first start delimiter, the character after that says
what kind it is, and it ends with the first stop delimiter after that. Its content is what lies
between, trimmed.

An expression splits the text that it was found in (`eq_of_next?`), and it is never empty, so that
what follows it is shorter than that text (`rest_length_lt`).
-/

namespace Mustache

/-- What a tag is for. Reference: `ExpressionType`. -/
inductive Kind
  /-- The value of a key, escaped. -/
  | escaped
  /-- The value of a key as it is. -/
  | raw
  /-- The beginning of a section. -/
  | opening
  /-- The beginning of an inverted section. -/
  | inverted
  /-- The end of a section of either sort. -/
  | closing
  /-- A note to the reader of the template. -/
  | comment
  /-- The place of a partial. -/
  | inclusion
  /-- A change of the delimiters. -/
  | change
  deriving DecidableEq

namespace Kind

/-- The kind announced by the first character of a tag, with the text that must stand in front of
the stop delimiter. Any other character belongs to the key of an escaped value. Reference: the
sigils of `Expression.from`. -/
def ofSigil? : Char → Option (Kind × Text)
  | '{' => some (.raw, ['}'])
  | '&' => some (.raw, [])
  | '#' => some (.opening, [])
  | '^' => some (.inverted, [])
  | '/' => some (.closing, [])
  | '!' => some (.comment, [])
  | '>' => some (.inclusion, [])
  | '=' => some (.change, ['='])
  | _ => none

/-- The kinds whose tags vanish with their line when they are alone on it: all but the values.
Reference: `ExpressionType.may_stand_alone`. -/
def mayStandAlone : Kind → Bool
  | .escaped | .raw => false
  | _ => true

end Kind

/-- A tag as it is found in a text. Reference: `Expression`. -/
structure Expression where
  /-- The text in front of the tag. -/
  lead : Text
  /-- The tag with its delimiters. -/
  mark : Text
  kind : Kind
  /-- What the tag holds beside its delimiters and its sigil, trimmed. -/
  content : Text
  /-- The text after the tag. -/
  rest : Text
  deriving DecidableEq

namespace Expression

/-- Ends an expression that began with `opener` at the first `stop` in `body`. Reference:
`Expression.close`. -/
def close (lead opener : Text) (kind : Kind) (stop body : Text) : Except Fault Expression :=
  match Text.cut? stop body with
  | none => .error ⟨.unclosedTag, lead ++ opener⟩
  | some (inner, rest) =>
    let mark := opener ++ inner ++ stop
    if Text.trim inner = [] ∧ kind ≠ .comment then .error ⟨.emptyTag, lead ++ mark⟩
    else .ok ⟨lead, mark, kind, Text.trim inner, rest⟩

/-- The first expression of a text. Reference: `Expression.from`. -/
def next? (d : Delimiters) (text : Text) : Except Fault (Option Expression) :=
  match Text.cut? d.start text with
  | none => .ok none
  | some (_, []) => .error ⟨.unclosedTag, text⟩
  | some (lead, c :: body) =>
    match Kind.ofSigil? c with
    | some (kind, guard) => (close lead (d.start ++ [c]) kind (guard ++ d.stop) body).map some
    | none => (close lead d.start .escaped d.stop (c :: body)).map some

/-- The offset of the tag, found in a text that begins at `first`. -/
def start (e : Expression) (first : Nat) : Nat :=
  first + Text.size e.lead

/-- The offset just past the tag, found in a text that begins at `first`. -/
def stop (e : Expression) (first : Nat) : Nat :=
  e.start first + Text.size e.mark

/-- The first expression at or after an offset of a text. Reference: `Expression.from`. -/
def find? (d : Delimiters) (src : Text) (first : Nat) : Except Error (Option Expression) :=
  match next? d (Text.dropBytes first src) with
  | .ok found => .ok found
  | .error fault => .error (.malformed ⟨fault.cause, Text.takeBytes first src ++ fault.read⟩)

section Shape

variable {d : Delimiters} {lead opener stop body text : Text} {kind : Kind} {e : Expression}

/-- A closed expression is what `next?` wraps. -/
theorem map_some_eq_ok {x : Except Fault Expression} :
    x.map some = .ok (some e) ↔ x = .ok e := by
  cases x <;> simp [Except.map]

/-- Closing an expression only divides the text that it is given. -/
theorem eq_of_close (h : close lead opener kind stop body = .ok e) :
    lead ++ opener ++ body = e.lead ++ e.mark ++ e.rest := by
  simp only [close] at h
  split at h
  next => cases h
  next inner rest hcut =>
    split at h
    · cases h
    · cases h
      simp [Text.eq_of_cut?_eq_some hcut]

/-- A closed expression has a mark: its content is not empty unless it is a comment, and a comment
has an opener. -/
theorem mark_ne_nil_of_close (hkind : kind = .comment → opener ≠ [])
    (h : close lead opener kind stop body = .ok e) : e.mark ≠ [] := by
  simp only [close] at h
  split at h
  next => cases h
  next inner rest hcut =>
    split at h
    next => cases h
    next hempty =>
      cases h
      by_cases hk : kind = .comment
      · simp [hkind hk]
      · have hinner : inner ≠ [] := by rintro rfl; exact hempty ⟨rfl, hk⟩
        simp [hinner]

/-- An expression found in a text is closed by `close` somewhere in it. -/
theorem exists_close_of_next? (h : next? d text = .ok (some e)) :
    ∃ lead opener kind stop body, text = lead ++ opener ++ body ∧
      (kind = .comment → opener ≠ []) ∧ close lead opener kind stop body = .ok e := by
  simp only [next?] at h
  split at h
  next => cases h
  next => cases h
  next lead c body hcut =>
    have htext := Text.eq_of_cut?_eq_some hcut
    split at h
    next kind guard hsigil =>
      exact ⟨lead, d.start ++ [c], kind, guard ++ d.stop, body, by simp [htext], by simp,
        map_some_eq_ok.1 h⟩
    next =>
      exact ⟨lead, d.start, .escaped, d.stop, c :: body, htext, by simp, map_some_eq_ok.1 h⟩

/-- An expression splits the text into what is before it, itself and what is after it. -/
theorem eq_of_next? (h : next? d text = .ok (some e)) : text = e.lead ++ e.mark ++ e.rest := by
  obtain ⟨lead, opener, kind, stop, body, htext, -, hclose⟩ := exists_close_of_next? h
  exact htext.trans (eq_of_close hclose)

/-- The mark of an expression is not empty, whatever the delimiters are. -/
theorem mark_ne_nil (h : next? d text = .ok (some e)) : e.mark ≠ [] := by
  obtain ⟨lead, opener, kind, stop, body, -, hkind, hclose⟩ := exists_close_of_next? h
  exact mark_ne_nil_of_close hkind hclose

/-- What follows an expression is shorter than the text it was found in. -/
theorem rest_length_lt (h : next? d text = .ok (some e)) : e.rest.length < text.length := by
  have hmark := List.length_pos_iff.2 (mark_ne_nil h)
  have := congrArg List.length (eq_of_next? h)
  simp only [List.length_append] at this
  omega

end Shape

end Expression

end Mustache
