import Mustache.Parse
import Mustache.Proofs.Boundary

/-!
# A reader that counts

`Reader` parses a text with nothing but offsets into it. It finds the next tag and its line, takes
the parts of the text that it needs, and recurses into sections, all at offsets that it works out by
counting. Every part is taken by `Reader.cut`, which goes astray where two offsets do not bound a
part of the text. A block is given a number of steps, and gives up where they are used up.

The sizes of the parts that a text is put together from are offsets at which every cut is made
(`Reader.cut_eq`), and a text that is refused can be quoted there (`Reader.refuse_eq`).
-/

namespace Mustache

namespace Text

/-- The offset of the first occurrence of a text. -/
def firstAt? (p t : Text) : Option Nat :=
  (cut? p t).map fun (before, _) => size before

/-- The offset of the last occurrence of a character. -/
def lastAt? (p : Char) : Text → Option Nat
  | [] => none
  | c :: t =>
    match lastAt? p t with
    | some n => some (c.utf8Size + n)
    | none => if c = p then some 0 else none

/-- The text without a character at its end. -/
def stripLast (p : Char) (t : Text) : Text :=
  if t.getLast? = some p then t.dropLast else t

end Text

/-- Why a reader stops without a tree. -/
inductive Halt
  /-- The text is refused, for a reason. -/
  | refused (reason : Text)
  /-- A part of a text is taken at offsets that do not bound one. -/
  | astray
  /-- The steps are used up. -/
  | unfinished
  deriving DecidableEq

/-- A tag as a reader finds it. Reference: `Expression`. -/
structure Found where
  kind : Kind
  content : Text
  /-- The offset of the tag. -/
  start : Nat
  /-- The offset just past the tag. -/
  stop : Nat
  deriving DecidableEq

/-- A reader in the middle of a text. Reference: `Parser`. -/
structure Reader where
  /-- How far the text is read. -/
  position : Nat := 0
  /-- The delimiters in effect, and the names of the partials so far. -/
  state : ParseState
  deriving DecidableEq

/-- Why a block ends. Reference: `Ending`. -/
inductive Ending
  /-- The text ends. -/
  | eof
  /-- A close tag for `key` stands at `start`. -/
  | close (key : Text) (start : Nat)
  deriving DecidableEq

/-- A block that is read. -/
structure Block where
  tags : List Tag
  ending : Ending
  /-- The reader behind the block. -/
  reader : Reader
  deriving DecidableEq

/-- What a reading by offsets comes to beside the same reading of texts: the same value, up to `f`,
or a refusal for the same reason. There is no third way. -/
inductive Settles {α β : Type} (f : α → β) : Except Error α → Except Halt β → Prop
  | value (x : α) : Settles f (.ok x) (.ok (f x))
  | refusal (fault : Fault) :
      Settles f (.error (.malformed fault)) (.error (.refused fault.reason))

namespace Reader

/-! ## Reading by offsets -/

/-- The part of a text between two offsets. -/
def cut (first last : Nat) (t : Text) : Except Halt Text :=
  match t.part? first last with
  | some part => .ok part
  | none => .error .astray

/-- The end of a text, cut at a boundary that leaves at most `excerptSize` bytes of it. Reference:
`rcap`. -/
def quote (t : Text) : Except Halt Text :=
  if excerptSize < t.size then cut (t.boundaryFrom (t.size - excerptSize)) t.size t else .ok t

/-- Refuses a text that is read up to an offset. Reference: `Error.malformed`. -/
def refuse {α : Type} (src : Text) (cause : Cause) (read : Nat) : Except Halt α := do
  let quoted ← quote (← cut 0 read src)
  throw (.refused (cause.message ++ " near \"".toList ++ quoted ++ ['"']))

/-- Ends a tag at the first `stop` in its body. Reference: `Expression.close`. -/
def close (src : Text) (kind : Kind) (start body : Nat) (stop : Text) : Except Halt Found := do
  match Text.firstAt? stop (← cut body src.size src) with
  | some pos =>
    let content ← cut body (body + pos) src
    return ⟨kind, Text.trim content, start, body + pos + stop.size⟩
  | none => refuse src .unclosedTag body

/-- A tag that needs a content must have one. Reference: the check of the content in
`Expression.from`. -/
def requireContent (src : Text) (found : Found) : Except Halt (Option Found) :=
  if found.content = [] ∧ found.kind ≠ .comment then refuse src .emptyTag found.stop
  else return some found

/-- The first tag at or after an offset. A sigil is one byte. Reference: `Expression.from`. -/
def next? (src : Text) (first : Nat) (d : Delimiters) : Except Halt (Option Found) := do
  match Text.firstAt? d.start (← cut first src.size src) with
  | none => return none
  | some pos =>
    let start := first + pos
    let body := start + d.start.size
    let found ← match ← cut body src.size src with
      | [] => refuse src .unclosedTag src.size
      | c :: _ =>
        match Kind.ofSigil? c with
        | some (kind, guard) => close src kind start (body + 1) (guard ++ d.stop)
        | none => close src .escaped start body d.stop
    requireContent src found

/-- Where the line of a tag begins, if it does not begin in front of `floor`. Reference: the start
of the line in `standalone`. -/
def lineStart? (src : Text) (floor start : Nat) : Except Halt (Option Nat) := do
  match Text.lastAt? '\n' (← cut floor start src) with
  | some pos => return some (floor + pos + 1)
  | none =>
    if floor = 0 then return some floor
    else if (← cut 0 floor src).getLast? = some '\n' then return some floor
    else return none

/-- The line that a tag stands alone on. Reference: `standalone`. -/
def line? (src : Text) (floor start stop : Nat) : Except Halt (Option (Nat × Nat)) := do
  match ← lineStart? src floor start with
  | none => return none
  | some first =>
    if (← cut first start src).all Text.isBlank then
      let feed := Text.firstAt? ['\n'] (← cut stop src.size src)
      let last := feed.elim src.size (stop + · + 1)
      let trailing ← cut stop last src
      if ((trailing.stripLast '\n').stripLast '\r').all Text.isBlank then return some (first, last)
      else return none
    else return none

/-- The offsets where the literal in front of a tag ends, and where reading goes on. Reference: the
line of a tag in `Parser.parse_block`. -/
def place (src : Text) (floor : Nat) (found : Found) : Except Halt (Nat × Nat) := do
  if found.kind.mayStandAlone then
    return (← line? src floor found.start found.stop).getD (found.start, found.stop)
  else return (found.start, found.stop)

/-- Puts text behind a list of tags. Reference: `push_literal`. -/
def pushLiteral (tags : List Tag) (text : Text) : List Tag :=
  if text = [] then tags
  else match tags.getLast? with
    | some (.literal last) => tags.dropLast ++ [.literal (last ++ text)]
    | _ => tags ++ [.literal text]

/-- The section that an open tag and the block behind it make, written in the delimiters `d`.
Reference: `Parser.parse_section`. -/
def enclose (src : Text) (opened : Found) (d : Delimiters) (block : Block) : Except Halt Tag :=
  match block.ending with
  | .eof => refuse src (.unclosedSection opened.content) opened.stop
  | .close key start =>
    if key = opened.content then
      match opened.kind with
      | .inverted => return .inverted opened.content block.tags
      | _ => return .block opened.content (← cut opened.stop start src) d block.tags
    else refuse src (.mismatched opened.content key) start

/-- Reads tags up to a close tag or to the end of the text, behind those that were read already.
Reference: `Parser.parse_block`. -/
def block (src : Text) : Nat → Reader → List Tag → Except Halt Block
  | 0, _, _ => throw .unfinished
  | steps + 1, ⟨position, ⟨d, names⟩⟩, tags => do
    match ← next? src position d with
    | none =>
      let literal ← cut position src.size src
      return ⟨pushLiteral tags literal, .eof, ⟨src.size, ⟨d, names⟩⟩⟩
    | some found =>
      let (literalEnd, resume) ← place src position found
      let tags := pushLiteral tags (← cut position literalEnd src)
      match found.kind with
      | .escaped => block src steps ⟨resume, ⟨d, names⟩⟩ (tags ++ [.escaped found.content])
      | .raw => block src steps ⟨resume, ⟨d, names⟩⟩ (tags ++ [.raw found.content])
      | .comment => block src steps ⟨resume, ⟨d, names⟩⟩ tags
      | .inclusion =>
        block src steps ⟨resume, ⟨d, addNames names [found.content]⟩⟩
          (tags ++ [.inclusion found.content])
      | .change =>
        match Delimiters.ofContent? found.content with
        | some d' => block src steps ⟨resume, ⟨d', names⟩⟩ tags
        | none => refuse src (.invalidDelimiters found.content) found.stop
      | .opening | .inverted =>
        let inner ← block src steps ⟨resume, ⟨d, names⟩⟩ []
        let tag ← enclose src found d inner
        block src steps inner.reader (tags ++ [tag])
      | .closing => return ⟨tags, .close found.content found.start, ⟨resume, ⟨d, names⟩⟩⟩

/-- Parses a text. Reference: `parse`. -/
def parse (src : Text) (steps : Nat) (state : ParseState) :
    Except Halt (List Tag × ParseState) := do
  let b ← block src steps ⟨0, state⟩ []
  match b.ending with
  | .close key start => refuse src (.unopened key) start
  | .eof => return (b.tags, { b.reader.state with delimiters := {} })

/-! ## Parts that are there -/

variable {α β : Type} {a b c src read rest t : Text} {first last n : Nat} {cause : Cause}

/-- What follows a step that succeeds goes on with its value. -/
theorem ok_bind {x : α} {f : α → Except Halt β} : (Except.ok x >>= f) = f x := rfl

/-- What follows a step that fails is left out. -/
theorem error_bind {h : Halt} {f : α → Except Halt β} : (Except.error h >>= f) = .error h := rfl

/-- A cut at the ends of two parts gives what stands between them. -/
theorem cut_eq (hsrc : src = a ++ b ++ c) (hfirst : first = a.size)
    (hlast : last = (a ++ b).size) : cut first last src = .ok b := by
  rw [cut, hfirst, hlast, Text.size_append, hsrc, Text.part?_size]

/-- The text in front of a part can be cut. -/
theorem cut_front (hsrc : src = read ++ rest) (hn : n = read.size) : cut 0 n src = .ok read :=
  cut_eq (a := []) hsrc rfl hn

/-- The text behind a part can be cut. -/
theorem cut_rest (hsrc : src = read ++ rest) (hn : n = read.size) :
    cut n src.size src = .ok rest :=
  cut_eq (c := []) (by rw [hsrc, List.append_nil]) hn (by rw [hsrc])

/-- An excerpt can be cut off every text. -/
theorem quote_eq : quote t = .ok (excerpt t) := by
  unfold quote excerpt
  split
  next hlong =>
    obtain ⟨a, ht, hfrom⟩ := Text.boundaryFrom_spec (t := t) (n := t.size - excerptSize) (by omega)
    exact cut_rest ht hfrom
  next hshort =>
    have hzero : t.size - excerptSize = 0 := by omega
    rw [hzero, Text.dropBytes_zero]

/-- A refusal quotes the text that was read. -/
theorem refuse_eq (hsrc : src = read ++ rest) (hn : n = read.size) :
    (refuse src cause n : Except Halt α) = .error (.refused (Fault.reason ⟨cause, read⟩)) := by
  rw [refuse, cut_front hsrc hn, ok_bind, quote_eq]
  rfl

end Reader

end Mustache
