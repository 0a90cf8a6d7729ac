import Mustache.Proofs.Reader.Block

/-!
# Parsing stays inside the text

For every text and every pair of delimiters a parse comes to an end, with the tags of the text or
with a refusal, and takes no part of the text at offsets that do not bound one (`parse_inBounds`).
`Reader` is the parser that could do so: it works on offsets alone, and would go astray or run out
of steps. It comes to what `parse` comes to.

What keeps it inside the text is how offsets follow each other. A tag does not begin in front of the
point from which it is looked for, and it is never empty (`Expression.bounds_of_find?`). Its line
lies around it and does not begin in front of that point either (`Line.bounds_of_find?`), and a
section is closed behind its open tag (`Reader.bounds_of_block`).
-/

namespace Mustache

/-! ## Offsets -/

namespace Text

variable {t : Text} {first middle last : Nat}

/-- Two parts of a text side by side. -/
theorem isPart_isPart_iff : IsPart t first middle ∧ IsPart t middle last ↔
    ∃ a b c d, t = a ++ (b ++ c ++ d) ∧ first = size a ∧ middle = size (a ++ b) ∧
      last = size (a ++ (b ++ c)) := by
  constructor
  · rintro ⟨hfront, hback⟩
    obtain ⟨a, b, r, rfl, rfl, rfl⟩ := isPart_iff.1 hfront
    obtain ⟨ab, c, d, ht, hmiddle, rfl⟩ := isPart_iff.1 hback
    have hab : a ++ b = ab := by
      have hsize : size (a ++ b) = size ab := by rw [size_append, hmiddle]
      have htake : takeBytes (size (a ++ b)) (a ++ b ++ r) = ab := by
        rw [hsize, ht, List.append_assoc, takeBytes_size]
      rwa [takeBytes_size] at htake
    subst hab
    exact ⟨a, b, c, d, by simp [ht], rfl, (size_append a b).symm, by simp [Nat.add_assoc]⟩
  · rintro ⟨a, b, c, d, rfl, rfl, rfl, rfl⟩
    exact ⟨isPart_iff.2 ⟨a, b, c ++ d, by simp, rfl, size_append a b⟩,
      isPart_iff.2 ⟨a ++ b, c, d, by simp, rfl, by simp [Nat.add_assoc]⟩⟩

end Text

/-- **The bounds of a tag.** From a boundary on, a tag begins at a boundary, it is not empty, and it
ends at a boundary, whatever the delimiters are. -/
theorem Expression.bounds_of_find? {d : Delimiters} {src : Text} {first : Nat} {e : Expression}
    (hfirst : src.isBoundary first = true) (h : find? d src first = .ok (some e)) :
    src.IsPart first (e.start first) ∧ src.IsPart (e.start first) (e.stop first) ∧
      e.start first < e.stop first := by
  obtain ⟨read, text, rfl, rfl⟩ := Text.isBoundary_iff.1 hfirst
  have hnext : next? d text = .ok (some e) := by
    rw [find?_size] at h
    cases hnext : next? d text with
    | error fault => rw [hnext] at h; cases h
    | ok found? => rw [hnext] at h; cases h; rfl
  have hmark := Text.size_pos (mark_ne_nil hnext)
  have hparts := Text.isPart_isPart_iff.2
    ⟨read, e.lead, e.mark, e.rest, by rw [← eq_of_next? hnext], rfl, rfl, rfl⟩
  have hstart : e.start read.size = (read ++ e.lead).size := (Text.size_append _ _).symm
  have hstop : e.stop read.size = (read ++ (e.lead ++ e.mark)).size := by
    simp only [stop, hstart, Text.size_append, Nat.add_assoc]
  rw [← hstart, ← hstop] at hparts
  refine ⟨hparts.1, hparts.2, ?_⟩
  rw [stop]
  omega

/-- The line of a tag between the parts of a text. -/
theorem Line.find?_size {read lead mark rest : Text} :
    find? (read ++ (lead ++ mark ++ rest)) read.size (read ++ lead).size
        (read ++ (lead ++ mark)).size =
      (around? (endsLine read) lead rest).map fun line =>
        ((read ++ line.kept).size, (read ++ (lead ++ mark ++ line.tail)).size) := by
  have hlead : Text.slice read.size (read ++ lead).size (read ++ (lead ++ mark ++ rest)) =
      lead := by
    have hslice := Text.slice_size (a := read) (b := lead) (c := mark ++ rest)
    simpa using hslice
  have hrest : Text.dropBytes (read ++ (lead ++ mark)).size (read ++ (lead ++ mark ++ rest)) =
      rest := by
    have hdrop := Text.dropBytes_size (a := read ++ (lead ++ mark)) (b := rest)
    rwa [List.append_assoc read] at hdrop
  rw [find?, Text.takeBytes_size, hlead, hrest]
  cases hline : around? (endsLine read) lead rest with
  | none => rfl
  | some line =>
    have hkept := (around?_append hline).1
    simp only [Option.map_some, hkept, Text.size_append, Option.some.injEq, Prod.mk.injEq]
    omega

/-- **The bounds of a line.** The line of a tag begins between the floor and the tag, and ends
behind the tag. -/
theorem Line.bounds_of_find? {src : Text} {floor start stop first last : Nat}
    (hfloor : src.IsPart floor start) (hstart : src.IsPart start stop)
    (h : find? src floor start stop = some (first, last)) :
    src.IsPart floor first ∧ src.IsPart first start ∧ src.IsPart stop last := by
  obtain ⟨read, lead, mark, rest, hsrc, rfl, rfl, rfl⟩ := Text.isPart_isPart_iff.1 ⟨hfloor, hstart⟩
  rw [hsrc, find?_size] at h
  obtain ⟨line, hline, heq⟩ := Option.map_eq_some_iff.1 h
  obtain ⟨rfl, rfl⟩ := Prod.mk.inj heq
  obtain ⟨rfl, rfl⟩ := around?_append hline
  have hfront := Text.isPart_isPart_iff.2 ⟨read, line.kept, line.indent,
    mark ++ (line.tail ++ line.rest), hsrc.trans (by simp), rfl, rfl, rfl⟩
  exact ⟨hfront.1, hfront.2, Text.isPart_iff.2 ⟨read ++ (line.kept ++ line.indent ++ mark),
    line.tail, line.rest, hsrc.trans (by simp), rfl, by simp [Nat.add_assoc]⟩⟩

namespace Reader

variable {src : Text} {steps : Nat}

/-- The first tag from a boundary on is found, or it is refused, without going astray. -/
theorem next?_settles {d : Delimiters} {first : Nat} (hfirst : src.isBoundary first = true) :
    Settles (Option.map (found first)) (Expression.find? d src first) (next? src first d) := by
  obtain ⟨read, text, hsrc, rfl⟩ := Text.isBoundary_iff.1 hfirst
  rw [next?_eq hsrc, hsrc, Expression.find?_size]
  cases Expression.next? d text with
  | error fault => exact .refusal (fault.behind read)
  | ok found? => exact .value found?

/-- The line of a tag is looked for without going astray. -/
theorem line?_eq_find? {floor start stop : Nat} (hfloor : src.IsPart floor start)
    (hstart : src.IsPart start stop) :
    line? src floor start stop = .ok (Line.find? src floor start stop) := by
  obtain ⟨read, lead, mark, rest, rfl, rfl, rfl, rfl⟩ := Text.isPart_isPart_iff.1 ⟨hfloor, hstart⟩
  rw [line?_eq rfl, Line.find?_size]

/-- **A parse.** A reader with a step for each character, and one more, parses as `parse` does. -/
theorem parse_settles (state : ParseState) (hsteps : src.length < steps) :
    Settles id (Mustache.parse state src) (parse src steps state) := by
  obtain ⟨d, names⟩ := state
  have hblock : Answers src [] names [] (Outline.ahead [] d src)
      (block src steps ⟨0, ⟨d, names⟩⟩ []) := block_answers rfl hsteps
  have hnormal : (Outline.ahead [] d src).Normal := Outline.normal_ofScan _
  have hparse : Mustache.parse ⟨d, names⟩ src = (Outline.ahead [] d src).complete.map fun tags =>
      (tags, ⟨{}, addNames names (Tag.inclusionsList tags)⟩) := rfl
  rw [hparse, parse]
  cases ho : Outline.ahead [] d src with
  | ended tags source =>
    rw [ho] at hblock hnormal
    obtain ⟨d', -, hblock⟩ := hblock
    rw [hblock, pushTags_nil hnormal]
    exact .value (tags, (⟨{}, addNames names (Tag.inclusionsList tags)⟩ : ParseState))
  | closed tags source close next =>
    rw [ho] at hblock
    obtain ⟨rest, hsrc, -, hblock⟩ := hblock
    have hsrc' : src = source ++ (close.mark ++ close.tail ++ rest) := by simpa using hsrc
    rw [hblock, ok_bind]
    simp only [List.nil_append, refuse_eq hsrc' rfl]
    exact .refusal ⟨.unopened close.content, source⟩
  | faulty fault =>
    rw [ho] at hblock
    have hblock : block src steps ⟨0, ⟨d, names⟩⟩ [] = _ := hblock
    rw [hblock]
    exact .refusal fault

/-- **The bounds of a section.** The block behind an open tag is ended by a close tag that begins at
or after the end of the open tag. -/
theorem bounds_of_block {first literalEnd resume start : Nat} {d : Delimiters}
    {names : List Text} {opened : Found} {b : Block} {key : Text}
    (hsteps : src.length < steps) (hfirst : src.isBoundary first = true)
    (hnext : next? src first d = .ok (some opened))
    (hplace : place src first opened = .ok (literalEnd, resume))
    (hblock : block src steps ⟨resume, ⟨d, names⟩⟩ [] = .ok b)
    (hend : b.ending = .close key start) : src.IsPart opened.stop start := by
  obtain ⟨read, i, rest, rfl, rfl, rfl, hmeets⟩ := exists_meets hfirst hnext
  obtain rfl : (read ++ i.text).size = resume := by
    have heq := hmeets.place.symm.trans hplace
    cases heq
    rfl
  have hanswers : Answers src (read ++ i.text) names []
      (Outline.ahead (read ++ i.text) i.delimiters rest) (.ok b) := by
    have hlength := congrArg List.length hmeets.text
    rw [List.length_append] at hlength
    rw [← hblock]
    exact block_answers hmeets.text (by omega)
  cases ho : Outline.ahead (read ++ i.text) i.delimiters rest with
  | ended more source =>
    rw [ho] at hanswers
    obtain ⟨d, -, heq⟩ := hanswers
    cases heq
    cases hend
  | faulty fault =>
    rw [ho] at hanswers
    cases hanswers
  | closed more source close next =>
    rw [ho] at hanswers
    obtain ⟨rest', hsrc, -, heq⟩ := hanswers
    cases heq
    cases hend
    exact Text.isPart_iff.2 ⟨read ++ (i.before ++ i.mark), i.tail ++ source,
      close.mark ++ close.tail ++ rest', by simp [hsrc, Item.text, Item.before], rfl,
      by simp [Item.text, Item.before, Nat.add_assoc]⟩

end Reader

/-- **Parsing stays inside the text.** A parse gives tags or refuses the text, and so does the
reader that works by offsets: it does not go astray, and a step for each character is enough. From a
boundary on it finds a tag that begins and ends at boundaries and is not empty, whatever the
delimiters are; the line of the tag begins between the floor and the tag and ends behind the tag, at
boundaries; and the close tag of a section begins at or after the end of its open tag. -/
theorem parse_inBounds (state : ParseState) (src : Text) (steps : Nat)
    (hsteps : src.length < steps) :
    Settles id (parse state src) (Reader.parse src steps state) ∧
    (∀ d first, src.isBoundary first = true →
      Settles (Option.map (Reader.found first)) (Expression.find? d src first)
        (Reader.next? src first d) ∧
      ∀ e, Expression.find? d src first = .ok (some e) →
        src.IsPart first (e.start first) ∧ src.IsPart (e.start first) (e.stop first) ∧
          e.start first < e.stop first) ∧
    (∀ floor start stop, src.IsPart floor start → src.IsPart start stop →
      Reader.line? src floor start stop = .ok (Line.find? src floor start stop) ∧
      ∀ first last, Line.find? src floor start stop = some (first, last) →
        src.IsPart floor first ∧ src.IsPart first start ∧ src.IsPart stop last) ∧
    (∀ first d names opened literalEnd resume b key start, src.isBoundary first = true →
      Reader.next? src first d = .ok (some opened) →
      Reader.place src first opened = .ok (literalEnd, resume) →
      Reader.block src steps ⟨resume, ⟨d, names⟩⟩ [] = .ok b → b.ending = .close key start →
      src.IsPart opened.stop start) := by
  refine ⟨Reader.parse_settles state hsteps, fun d first hfirst => ?_,
    fun floor start stop hfloor hstart => ?_, ?_⟩
  · exact ⟨Reader.next?_settles hfirst, fun e h => Expression.bounds_of_find? hfirst h⟩
  · exact ⟨Reader.line?_eq_find? hfloor hstart,
      fun first last h => Line.bounds_of_find? hfloor hstart h⟩
  · intro first d names opened literalEnd resume b key start hfirst hnext hplace hblock hend
    exact Reader.bounds_of_block hsteps hfirst hnext hplace hblock hend

/-- A section that is alone on its line, between delimiters of three bytes and of one, which is a
line feed. -/
theorem parse_inBounds_lineFeed :
    let d : Delimiters := ⟨"日".toList, "\n".toList⟩
    let src : Text := "日#é\n \nx日/é\n".toList
    Settles id (parse ⟨d, []⟩ src) (Reader.parse src 12 ⟨d, []⟩) ∧
      (src.IsPart 9 10 ∧ src.IsPart 10 17 ∧ 10 < 17) ∧
      (src.IsPart 0 0 ∧ src.IsPart 0 0 ∧ src.IsPart 7 9) ∧ src.IsPart 7 10 := by
  intro d src
  obtain ⟨hparse, htag, hline, hsection⟩ := parse_inBounds ⟨d, []⟩ src 12 (by decide)
  refine ⟨hparse, ?_, ?_, ?_⟩
  · exact (htag d 9 (by decide)).2
      ⟨"x".toList, "日/é\n".toList, .closing, "é".toList, []⟩ (by decide +kernel)
  · exact (hline 0 0 7 (by decide) (by decide)).2 0 9 (by decide +kernel)
  · exact hsection 0 d [] ⟨.opening, "é".toList, 0, 7⟩ 0 9
      ⟨[.literal "x".toList], .close "é".toList 10, ⟨17, ⟨d, []⟩⟩⟩ "é".toList 10 (by decide)
      (by decide +kernel) (by decide +kernel) (by decide +kernel) rfl

end Mustache
