import Mustache.Expression
import Mustache.Line

/-!
# Scans

A scan is a text read from front to back as a flat run of tags, before any two of them are paired.
Each `Item` holds a tag together with all the text that belongs to it, so that the texts of the
items and what follows the last of them make up the text again (`Scan.text_ofText`): the literal in
front of the tag, the two parts of the line that vanishes with a tag that stands alone, and the tag
itself.

Delimiters are a matter of the scan: every item knows the pair its tag is written with, and a
delimiter change takes effect for what follows it.
-/

namespace Mustache

/-- A tag in a scan, with the text since the tag before it. -/
structure Item where
  /-- The text in front of the tag that stands for itself. -/
  literal : Text
  /-- What vanishes in front of a tag that stands alone on its line. -/
  indent : Text
  /-- The tag with its delimiters. -/
  mark : Text
  /-- What vanishes behind a tag that stands alone on its line. -/
  tail : Text
  kind : Kind
  content : Text
  /-- The delimiters that the tag is written with. -/
  delimiters : Delimiters
  deriving DecidableEq

/-- All the text of an item. -/
def Item.text (i : Item) : Text :=
  i.literal ++ i.indent ++ i.mark ++ i.tail

/-- The text of an item up to its tag. -/
def Item.before (i : Item) : Text :=
  i.literal ++ i.indent

/-- The delimiters in effect after an item; none if the item is a delimiter change that does not
name any. Reference: the change of delimiters in `Parser.parse_block`. -/
def Item.after? (i : Item) : Option Delimiters :=
  if i.kind = .change then Delimiters.ofContent? i.content else some i.delimiters

/-- The item that an expression is, and the text after it. A text is `fresh` if it begins where a
line does. Reference: the line of a tag in `Parser.parse_block`. -/
def Item.ofExpression (fresh : Bool) (d : Delimiters) (e : Expression) : Item × Text :=
  match if e.kind.mayStandAlone then Line.around? fresh e.lead e.rest else none with
  | some line => (⟨line.kept, line.indent, e.mark, line.tail, e.kind, e.content, d⟩, line.rest)
  | none => (⟨e.lead, [], e.mark, [], e.kind, e.content, d⟩, e.rest)

/-- A text as a run of tags. -/
inductive Scan
  /-- A tag, and the scan of what follows it. -/
  | tag (item : Item) (next : Scan)
  /-- The text after the last tag. -/
  | done (text : Text)
  /-- A fault, after the text that it holds. -/
  | faulty (fault : Fault)
  deriving DecidableEq

/-- An item and what follows it make up the text of its expression. -/
theorem Item.text_ofExpression (fresh : Bool) (d : Delimiters) (e : Expression) :
    (ofExpression fresh d e).1.text ++ (ofExpression fresh d e).2 = e.lead ++ e.mark ++ e.rest := by
  unfold ofExpression
  split
  next line hline =>
    split at hline
    · obtain ⟨hlead, hrest⟩ := Line.around?_append hline
      simp [text, hlead, hrest]
    · cases hline
  next => simp [text]

/-- What follows an item is no longer than what follows its tag. -/
theorem Item.length_ofExpression_le (fresh : Bool) (d : Delimiters) (e : Expression) :
    (ofExpression fresh d e).2.length ≤ e.rest.length := by
  unfold ofExpression
  split
  next line hline =>
    split at hline
    · simp [(Line.around?_append hline).2]
    · cases hline
  next => simp

namespace Scan

/-- The scan of a text that is `fresh` and begins under the delimiters `d`. Reference: the loop of
`Parser.parse_block`. -/
def ofText (fresh : Bool) (d : Delimiters) (text : Text) : Scan :=
  match _found : Expression.next? d text with
  | .error fault => .faulty fault
  | .ok none => .done text
  | .ok (some e) =>
    let item := (Item.ofExpression fresh d e).1
    match item.after? with
    | none => .faulty ⟨.invalidDelimiters item.content, item.before ++ item.mark⟩
    | some d' =>
      .tag item
        (ofText (Line.endsLine (item.mark ++ item.tail)) d' (Item.ofExpression fresh d e).2)
termination_by text.length
decreasing_by
  exact Nat.lt_of_le_of_lt (Item.length_ofExpression_le fresh d e)
    (Expression.rest_length_lt _found)

/-- The text that a scan was made of, as far as it was read. -/
def text : Scan → Text
  | .tag item next => item.text ++ next.text
  | .done t => t
  | .faulty fault => fault.read

/-- The tags of a scan. -/
def items : Scan → List Item
  | .tag item next => item :: next.items
  | .done _ | .faulty _ => []

/-- What ended a scan early. -/
def fault? : Scan → Option Fault
  | .tag _ next => next.fault?
  | .done _ => none
  | .faulty fault => some fault

/-- Nothing is lost in a scan. -/
theorem text_ofText {fresh : Bool} {d : Delimiters} {t : Text}
    (h : (ofText fresh d t).fault? = none) : (ofText fresh d t).text = t := by
  fun_induction ofText fresh d t with
  | case1 => cases h
  | case2 => rfl
  | case3 => cases h
  | case4 fresh d t e he item d' hd' ih =>
    rw [text, ih h, Item.text_ofExpression, Expression.eq_of_next? he]

end Scan

end Mustache
