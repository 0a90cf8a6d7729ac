import Mustache.Scan
import Mustache.Tag

/-!
# Outlines

The outline of a scan is its tag tree as far as it can be known without what stands in front of the
scan: the tags up to the first close tag that nothing in the scan opens, that close tag, and the
outline of what follows it. An open tag in front of the scan then takes the first of these parts for
its section and joins the next one (`Outline.consSection`).

Each part also holds the text it was read from. It is the source of the section that the part
becomes, and it is the text before the fault if the part ends in one.
-/

namespace Mustache

/-- The tag tree of a scan, cut at the close tags that nothing in the scan opens. Reference: the
tags and the `Ending` of `Parser.parse_block`. -/
inductive Outline
  /-- Tags up to the end of the text. -/
  | ended (tags : List Tag) (source : Text)
  /-- Tags up to a close tag, and what follows it. -/
  | closed (tags : List Tag) (source : Text) (close : Item) (next : Outline)
  /-- Tags up to a fault. -/
  | faulty (fault : Fault)

namespace Outline

/-- Puts text that was read, and tags that it says, in front of an outline. -/
def push (read : Text) (add : List Tag → List Tag) : Outline → Outline
  | .ended tags source => .ended (add tags) (read ++ source)
  | .closed tags source close next => .closed (add tags) (read ++ source) close next
  | .faulty fault => .faulty ⟨fault.cause, read ++ fault.read⟩

/-- The tag that an item opens a section for, around the children and the source of the section.
Reference: the tag of `Parser.parse_section`. -/
def sectionTag (item : Item) (source : Text) (children : List Tag) : Tag :=
  if item.kind = .inverted then .inverted item.content children
  else .block item.content source item.delimiters children

/-- Puts an open tag in front of an outline: the first part becomes the section, if it ends with a
close tag of the same key, and the section stands in front of the next part. Reference:
`Parser.parse_section`. -/
def consSection (item : Item) : Outline → Outline
  | .ended .. => .faulty ⟨.unclosedSection item.content, item.before ++ item.mark⟩
  | .faulty fault => .faulty ⟨fault.cause, item.text ++ fault.read⟩
  | .closed children source close next =>
    if close.content = item.content then
      let source := item.tail ++ source
      next.push (item.before ++ item.mark ++ source ++ close.mark ++ close.tail)
        fun tags => Tag.consLiteral item.literal (sectionTag item source children :: tags)
    else .faulty ⟨.mismatched item.content close.content, item.text ++ source⟩

/-- Puts an item in front of an outline. Reference: the cases of `Parser.parse_block`. -/
def cons (item : Item) (o : Outline) : Outline :=
  let literal := Tag.consLiteral item.literal
  match item.kind with
  | .escaped => o.push item.text fun tags => literal (.escaped item.content :: tags)
  | .raw => o.push item.text fun tags => literal (.raw item.content :: tags)
  | .inclusion => o.push item.text fun tags => literal (.inclusion item.content :: tags)
  | .comment | .change => o.push item.text literal
  | .closing => .closed (literal []) item.before item o
  | .opening | .inverted => o.consSection item

/-- The outline of a scan. Reference: `Parser.parse_block`. -/
def ofScan : Scan → Outline
  | .tag item next => cons item (ofScan next)
  | .done text => .ended (Tag.consLiteral text []) text
  | .faulty fault => .faulty fault

end Outline

end Mustache
