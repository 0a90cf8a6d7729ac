import Mathlib.Control.Monad.Basic
import Mustache.Proofs.Crlf
import Mustache.Proofs.Literal

/-!
# Line ends of a template

A template means the same whether its lines end with a line feed or with a carriage return and a
line feed. What is parsed from a text with carriage returns at its line ends differs from what is
parsed without them in the line ends of its texts and in nothing else (`parse_crlf`): in those of
the literals, the keys and the sources, and, for a text that is no template, of the error.

Each stage of a parse goes the same way over both texts: the search for a tag
(`Expression.next?_crlf`), the scan (`Scan.ofText_crlf`) and the outline (`Outline.ofScan_crlf`).
-/

namespace Mustache

/-! ## Tags in a text -/

/-- The cause in a text with carriage returns at the line ends. -/
def Cause.crlf : Cause → Cause
  | .unclosedTag => .unclosedTag
  | .emptyTag => .emptyTag
  | .invalidDelimiters content => .invalidDelimiters (Text.crlf content)
  | .mismatched opened closed => .mismatched (Text.crlf opened) (Text.crlf closed)
  | .unclosedSection key => .unclosedSection (Text.crlf key)
  | .unopened key => .unopened (Text.crlf key)

/-- The fault in a text with carriage returns at the line ends. -/
def Fault.crlf (f : Fault) : Fault :=
  ⟨f.cause.crlf, Text.crlf f.read⟩

/-- The error in a text with carriage returns at the line ends. -/
def Error.crlf : Error → Error
  | .malformed fault => .malformed fault.crlf
  | .notFound path => .notFound path

/-- What ends a tag is solid with what must stand in front of the stop delimiter. -/
theorem Kind.solid_of_ofSigil? {c : Char} {kind : Kind} {guard p : Text}
    (h : Kind.ofSigil? c = some (kind, guard)) (hp : Text.Solid p) : Text.Solid (guard ++ p) := by
  have hguard : guard.all (fun c => !Text.isSpace c) = true := by
    unfold Kind.ofSigil? at h
    split at h <;> cases h <;> rfl
  refine ⟨by simp [hp.1], fun c hc => ?_⟩
  rcases List.mem_append.1 hc with hc | hc
  · simpa using List.all_eq_true.1 hguard c hc
  · exact hp.2 c hc

namespace Expression

variable {d : Delimiters} {opener stop : Text}

/-- The expression in a text with carriage returns at the line ends. -/
def crlf (e : Expression) : Expression :=
  ⟨Text.crlf e.lead, Text.crlf e.mark, e.kind, Text.crlf e.content, Text.crlf e.rest⟩

/-- A tag is closed in the same place. -/
theorem close_crlf (lead : Text) (kind : Kind) (body : Text) (hopener : Text.crlf opener = opener)
    (hstop : Text.Solid stop) :
    close (Text.crlf lead) opener kind stop (Text.crlf body) =
      ((close lead opener kind stop body).map crlf).mapError Fault.crlf := by
  have hunclosed : Text.crlf (lead ++ opener) = Text.crlf lead ++ opener := by
    rw [Text.crlf_append, hopener]
  unfold close
  rw [Text.cut?_crlf hstop]
  cases Text.cut? stop body with
  | none =>
    rw [← hunclosed]
    rfl
  | some parts =>
    obtain ⟨inner, rest⟩ := parts
    have hmark : Text.crlf (opener ++ inner ++ stop) = opener ++ Text.crlf inner ++ stop := by
      rw [Text.crlf_append, Text.crlf_append, hopener, hstop.crlf]
    simp only [Option.map_some, Prod.map_apply, Text.trim_crlf, Text.crlf_eq_nil_iff, ← hmark,
      ← Text.crlf_append]
    split <;> rfl

/-- **The search for a tag goes the same way.** -/
theorem next?_crlf (hd : d.Solid) (text : Text) : next? d (Text.crlf text) =
    ((next? d text).map (Option.map crlf)).mapError Fault.crlf := by
  have hsome : ∀ x : Except Fault Expression, ((x.map crlf).mapError Fault.crlf).map some =
      ((x.map some).map (Option.map crlf)).mapError Fault.crlf := by
    rintro (_ | _) <;> rfl
  unfold next?
  rw [Text.cut?_crlf hd.1]
  cases Text.cut? d.start text with
  | none => rfl
  | some parts =>
    obtain ⟨lead, _ | ⟨c, body⟩⟩ := parts
    · rfl
    · have hkey := close_crlf lead .escaped (c :: body) hd.1.crlf hd.2
      by_cases hc : c = '\n'
      · -- Neither character of a line end announces a kind.
        subst hc
        show (close (Text.crlf lead) d.start .escaped d.stop (Text.crlf ('\n' :: body))).map some =
          (((close lead d.start .escaped d.stop ('\n' :: body)).map some).map _).mapError _
        rw [hkey, hsome]
      · rw [Text.crlf_cons hc] at hkey
        simp only [Option.map_some, Prod.map_apply, Text.crlf_cons hc]
        cases hsigil : Kind.ofSigil? c with
        | none => simp only [hkey, hsome]
        | some announced =>
          obtain ⟨kind, guard⟩ := announced
          have hopener : Text.crlf (d.start ++ [c]) = d.start ++ [c] := by
            rw [Text.crlf_append, hd.1.crlf, Text.crlf_cons hc, Text.crlf_nil]
          have hstop := Kind.solid_of_ofSigil? hsigil hd.2
          simp only [close_crlf lead kind body hopener hstop, hsome]

end Expression

namespace Item

variable {d : Delimiters} {e : Expression}

/-- The item in a text with carriage returns at the line ends. -/
def crlf (i : Item) : Item :=
  ⟨Text.crlf i.literal, Text.crlf i.indent, Text.crlf i.mark, Text.crlf i.tail, i.kind,
    Text.crlf i.content, i.delimiters⟩

theorem text_crlf (i : Item) : i.crlf.text = Text.crlf i.text := by
  simp only [text, crlf, Text.crlf_append]

theorem before_crlf (i : Item) : i.crlf.before = Text.crlf i.before := by
  simp only [before, crlf, Text.crlf_append]

theorem after?_crlf (i : Item) : i.crlf.after? = i.after? := by
  simp only [after?, crlf, Delimiters.ofContent?_crlf]

/-- A line vanishes with either line end. -/
theorem ofExpression_crlf (fresh : Bool) (d : Delimiters) (hrest : '\r' ∉ e.rest) :
    ofExpression fresh d e.crlf = Prod.map crlf Text.crlf (ofExpression fresh d e) := by
  simp only [ofExpression, Expression.crlf, Line.around?_crlf fresh e.lead hrest]
  by_cases hkind : e.kind.mayStandAlone
  · simp only [hkind, if_true]
    cases Line.around? fresh e.lead e.rest <;> rfl
  · simp only [hkind]
    rfl

end Item

/-! ## Scans -/

namespace Scan

variable {fresh : Bool} {d : Delimiters} {text rest : Text} {e : Expression} {i : Item}

/-- The scan of a text with carriage returns at the line ends. -/
def crlf : Scan → Scan
  | .tag item next => .tag item.crlf next.crlf
  | .done t => .done (Text.crlf t)
  | .faulty fault => .faulty fault.crlf

/-- A tag is taken in the same place, and what follows it is scanned with carriage returns. -/
theorem ofText_crlf_of_some (hd : d.Solid) (htext : '\r' ∉ text)
    (hnext : Expression.next? d text = .ok (some e))
    (hitem : Item.ofExpression fresh d e = (i, rest)) :
    ofText fresh d (Text.crlf text) = match i.after? with
      | none => .faulty (Fault.crlf ⟨.invalidDelimiters i.content, i.before ++ i.mark⟩)
      | some d' => .tag i.crlf (ofText (Line.endsLine (i.mark ++ i.tail)) d' (Text.crlf rest)) := by
  have hcrlf := Expression.next?_crlf hd text
  rw [hnext] at hcrlf
  have hrest : '\r' ∉ e.rest := fun h => htext (by simp [Expression.eq_of_next? hnext, h])
  have hends : Line.endsLine (i.crlf.mark ++ i.crlf.tail) = Line.endsLine (i.mark ++ i.tail) := by
    show Line.endsLine (Text.crlf i.mark ++ Text.crlf i.tail) = _
    rw [← Text.crlf_append, Line.endsLine_crlf]
  rw [ofText_of_some hcrlf, Item.ofExpression_crlf fresh d hrest, hitem]
  simp only [Prod.map_apply, Item.after?_crlf, hends]
  cases i.after? with
  | none =>
    simp only [Fault.crlf, Cause.crlf, Text.crlf_append, Item.before_crlf]
    rfl
  | some d' => rfl

/-- **The scan goes the same way.** -/
theorem ofText_crlf (fresh : Bool) (hd : d.Solid) (htext : '\r' ∉ text) :
    ofText fresh d (Text.crlf text) = (ofText fresh d text).crlf := by
  fun_induction ofText fresh d text with
  | case1 fresh d text fault hnext =>
    have hcrlf := Expression.next?_crlf hd text
    rw [hnext] at hcrlf
    exact ofText_of_error hcrlf
  | case2 fresh d text hnext =>
    have hcrlf := Expression.next?_crlf hd text
    rw [hnext] at hcrlf
    exact ofText_of_none hcrlf
  | case3 fresh d text e hnext item =>
    rename_i hafter
    have hitem : Item.ofExpression fresh d e = (item, (Item.ofExpression fresh d e).2) := rfl
    rw [ofText_crlf_of_some hd htext hnext hitem, hafter]
    rfl
  | case4 fresh d text e hnext item d' hafter =>
    rename_i ih
    have hitem : Item.ofExpression fresh d e = (item, (Item.ofExpression fresh d e).2) := rfl
    have hd' : d'.Solid := Item.solid_of_after? (Item.delimiters_ofExpression fresh d e ▸ hd) hafter
    have hrest : '\r' ∉ (Item.ofExpression fresh d e).2 := by
      intro h
      refine htext ?_
      rw [Expression.eq_of_next? hnext, ← Item.tail_append_rest fresh d e]
      exact List.mem_append_right _ (List.mem_append_right _ h)
    rw [ofText_crlf_of_some hd htext hnext hitem, hafter, crlf]
    exact congrArg _ (ih hd' hrest)

end Scan

/-! ## Tags -/

namespace Tag

mutual

/-- The tag with carriage returns at the line ends of its texts. -/
def crlf : Tag → Tag
  | .literal t => .literal (Text.crlf t)
  | .escaped key => .escaped (Text.crlf key)
  | .raw key => .raw (Text.crlf key)
  | .block key source d children => .block (Text.crlf key) (Text.crlf source) d (crlfList children)
  | .inverted key children => .inverted (Text.crlf key) (crlfList children)
  | .inclusion name => .inclusion (Text.crlf name)

/-- The tags with carriage returns at the line ends of their texts. -/
def crlfList : List Tag → List Tag
  | [] => []
  | t :: ts => crlf t :: crlfList ts

end

variable {ts : List Tag} {x : Text}

theorem head_crlfList (h : ∀ u ∈ ts.head?, u.isLiteral = false) :
    ∀ u ∈ (crlfList ts).head?, u.isLiteral = false := by
  cases ts with
  | nil => exact h
  | cons t ts =>
    rintro u ⟨⟩
    cases t with
    | literal => cases h _ rfl
    | _ => rfl

/-- Text with carriage returns joins a literal with them. -/
theorem crlfList_consLiteral :
    crlfList (consLiteral x ts) = consLiteral (Text.crlf x) (crlfList ts) := by
  rcases literal_or_head ts with ⟨t, us, rfl⟩ | hhead
  · simp only [consLiteral, crlfList, crlf, Text.crlf_append]
  · rw [consLiteral_of_head hhead, consLiteral_of_head (head_crlfList hhead)]
    simp only [Text.crlf_eq_nil_iff]
    split
    · rfl
    · simp only [crlfList, crlf]

mutual

theorem inclusions_crlf : ∀ t : Tag, inclusions (crlf t) = (inclusions t).map Text.crlf
  | .literal _ | .escaped _ | .raw _ | .inclusion _ => rfl
  | .block _ _ _ children | .inverted _ children => inclusionsList_crlfList children

/-- The partials have their places in the same order. -/
theorem inclusionsList_crlfList : ∀ ts : List Tag,
    inclusionsList (crlfList ts) = (inclusionsList ts).map Text.crlf
  | [] => rfl
  | t :: ts => by
    rw [crlfList, inclusionsList, inclusionsList, inclusions_crlf t, inclusionsList_crlfList ts,
      List.map_append]

end

end Tag

/-! ## Outlines -/

namespace Outline

/-- The outline of a text with carriage returns at the line ends. -/
def crlf : Outline → Outline
  | .ended tags source => .ended (Tag.crlfList tags) (Text.crlf source)
  | .closed tags source close next =>
    .closed (Tag.crlfList tags) (Text.crlf source) close.crlf next.crlf
  | .faulty fault => .faulty fault.crlf

/-- Tags that are added in front of an outline are added with carriage returns. -/
theorem push_crlf {read : Text} {add : List Tag → List Tag} (o : Outline)
    (add' : List Tag → List Tag) (h : ∀ ts, Tag.crlfList (add ts) = add' (Tag.crlfList ts)) :
    (o.push read add).crlf = o.crlf.push (Text.crlf read) add' := by
  cases o with
  | ended => simp only [push, crlf, h, Text.crlf_append]
  | closed => simp only [push, crlf, h, Text.crlf_append]
  | faulty => simp only [push, crlf, Fault.crlf, Text.crlf_append]

theorem sectionTag_crlf (item : Item) (source : Text) (children : List Tag) :
    Tag.crlf (sectionTag item source children) =
      sectionTag item.crlf (Text.crlf source) (Tag.crlfList children) := by
  unfold sectionTag
  by_cases hkind : item.kind = .inverted
  · rw [if_pos hkind, if_pos (show item.crlf.kind = .inverted from hkind)]
    rfl
  · rw [if_neg hkind, if_neg (show ¬ item.crlf.kind = .inverted from hkind)]
    rfl

/-- A close tag has the key of an open tag if and only if it has with carriage returns: the line
ends can be told from the text. -/
theorem consSection_crlf (item : Item) (o : Outline) :
    (o.consSection item).crlf = o.crlf.consSection item.crlf := by
  cases o with
  | ended =>
    simp only [consSection, crlf, Fault.crlf, Cause.crlf, Text.crlf_append, Item.before_crlf]
    rfl
  | faulty => simp only [consSection, crlf, Fault.crlf, Text.crlf_append, Item.text_crlf]
  | closed children source close next =>
    have hkey : close.crlf.content = item.crlf.content ↔ close.content = item.content :=
      Text.crlf_injective.eq_iff
    simp only [consSection, crlf, hkey]
    split
    · have hsection : ∀ ts, Tag.crlfList (Tag.consLiteral item.literal
          (sectionTag item (item.tail ++ source) children :: ts)) =
            Tag.consLiteral item.crlf.literal (sectionTag item.crlf
              (Text.crlf (item.tail ++ source)) (Tag.crlfList children) :: Tag.crlfList ts) := by
        intro ts
        rw [Tag.crlfList_consLiteral, Tag.crlfList, sectionTag_crlf]
        rfl
      rw [push_crlf next (fun tags => Tag.consLiteral item.crlf.literal (sectionTag item.crlf
        (Text.crlf (item.tail ++ source)) (Tag.crlfList children) :: tags)) hsection]
      simp only [Text.crlf_append, Item.before_crlf]
      rfl
    · simp only [crlf, Fault.crlf, Cause.crlf, Text.crlf_append, Item.text_crlf]
      rfl

theorem cons_crlf (item : Item) (o : Outline) :
    (o.cons item).crlf = o.crlf.cons item.crlf := by
  have hpush : ∀ add add' : List Tag → List Tag,
      (∀ ts, Tag.crlfList (add ts) = add' (Tag.crlfList ts)) →
        (o.push item.text add).crlf = o.crlf.push item.crlf.text add' := by
    intro add add' h
    rw [Item.text_crlf, push_crlf o add' h]
  have hliteral : ∀ ts, Tag.crlfList (Tag.consLiteral item.literal ts) =
      Tag.consLiteral item.crlf.literal (Tag.crlfList ts) := fun ts => Tag.crlfList_consLiteral
  have hkind : item.crlf.kind = item.kind := rfl
  unfold cons
  rw [hkind]
  cases item.kind with
  | escaped | raw | inclusion => exact hpush _ _ fun ts => hliteral _
  | comment | change => exact hpush _ _ hliteral
  | closing => simp only [crlf, hliteral, Item.before_crlf, Tag.crlfList]
  | opening | inverted => exact consSection_crlf item o

/-- **The outline goes the same way.** -/
theorem ofScan_crlf (s : Scan) : ofScan s.crlf = (ofScan s).crlf := by
  induction s with
  | tag item next ih => rw [Scan.crlf, ofScan, ofScan, ih, cons_crlf]
  | done t => simp only [Scan.crlf, ofScan, crlf, Tag.crlfList_consLiteral, Tag.crlfList]
  | faulty => rfl

theorem complete_crlf (o : Outline) :
    o.crlf.complete = (o.complete.map Tag.crlfList).mapError Error.crlf := by
  cases o <;> rfl

end Outline

/-! ## Parsing -/

/-- The state with carriage returns at the line ends of the names. -/
def ParseState.crlf (state : ParseState) : ParseState :=
  { state with names := state.names.map Text.crlf }

/-- Names that are told apart are told apart with carriage returns. -/
theorem addNames_crlf (names new : List Text) :
    addNames (names.map Text.crlf) (new.map Text.crlf) = (addNames names new).map Text.crlf := by
  unfold addNames
  induction new generalizing names with
  | nil => rfl
  | cons name new ih =>
    have hcontains : (names.map Text.crlf).contains (Text.crlf name) = names.contains name := by
      rw [Bool.eq_iff_iff, List.contains_iff_mem, List.contains_iff_mem, List.mem_map]
      constructor
      · rintro ⟨n, hn, hsame⟩
        exact Text.crlf_injective hsame ▸ hn
      · exact fun h => ⟨name, h, rfl⟩
    rw [List.map_cons, List.foldl_cons, List.foldl_cons, hcontains, ← ih]
    congr 1
    split
    · rfl
    · rw [List.map_append]
      rfl

variable {state : ParseState} {src : Text}

/-- **Line ends.** With carriage returns at its line ends a text is a template if and only if it is
without them, and its tags, its names and its error are the same with carriage returns at the line
ends of their texts. The delimiters are the same. -/
theorem parse_crlf (hd : state.delimiters.Solid) (hsrc : '\r' ∉ src) :
    parse state.crlf (Text.crlf src) =
      ((parse state src).map (Prod.map Tag.crlfList ParseState.crlf)).mapError Error.crlf := by
  have htags : parseTags state.delimiters (Text.crlf src) =
      ((parseTags state.delimiters src).map Tag.crlfList).mapError Error.crlf := by
    unfold parseTags
    rw [Scan.ofText_crlf true hd hsrc, Outline.ofScan_crlf, Outline.complete_crlf]
  have hstate : state.crlf.delimiters = state.delimiters := rfl
  unfold parse
  rw [hstate, htags]
  cases parseTags state.delimiters src with
  | error => rfl
  | ok tags =>
    have hnames : addNames state.crlf.names (Tag.inclusionsList (Tag.crlfList tags)) =
        (addNames state.names (Tag.inclusionsList tags)).map Text.crlf := by
      rw [Tag.inclusionsList_crlfList, ← addNames_crlf]
      rfl
    simp only [Except.map, Except.mapError, hnames, Prod.map_apply]
    rfl

/-- Line ends in a delimiter change, in keys and on lines that vanish. -/
theorem parse_crlf_keys :
    parse { delimiters := ⟨"<%".toList, "%>".toList⟩ }
        (Text.crlf "<%=[\n]=%>\n[#a\nb] \n [>p\nq]\nx\n[/ a\nb\n]".toList) =
      .ok ([.block "a\r\nb".toList " \r\n [>p\r\nq]\r\nx\r\n".toList ⟨['['], [']']⟩
        [.inclusion "p\r\nq".toList, .literal "x\r\n".toList]], ⟨{}, ["p\r\nq".toList]⟩) := by
  have hparse : parse { delimiters := ⟨"<%".toList, "%>".toList⟩ }
        "<%=[\n]=%>\n[#a\nb] \n [>p\nq]\nx\n[/ a\nb\n]".toList =
      .ok ([.block "a\nb".toList " \n [>p\nq]\nx\n".toList ⟨['['], [']']⟩
        [.inclusion "p\nq".toList, .literal "x\n".toList]], ⟨{}, ["p\nq".toList]⟩) := by
    decide +kernel
  have hcrlf := @parse_crlf { delimiters := ⟨"<%".toList, "%>".toList⟩ }
    "<%=[\n]=%>\n[#a\nb] \n [>p\nq]\nx\n[/ a\nb\n]".toList (by decide) (by decide)
  rw [hparse] at hcrlf
  exact hcrlf

end Mustache
