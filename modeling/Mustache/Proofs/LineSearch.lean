import Mathlib.Order.Bounds.Defs
import Mustache.Proofs.InBounds

/-!
# The search for a line

The line of a tag, or its lines, lie between the last line feed in front of the tag and the first
one behind it, or the ends of the text (`Text.lineStart`, `Text.lineStop`). The search for them does
not look in front of a floor, except that it asks whether a line begins there. That is enough: a tag
does not stand alone on a line that begins in front of the floor, even if nothing but blanks stands
between, and any other line is found as if the whole text were searched
(`Line.find?_eq_wholeLine`).
-/

namespace Mustache

namespace Text

variable {a b c t : Text}

/-- A line feed stands right in front of an offset. -/
def FeedAt (t : Text) (n : Nat) : Prop :=
  ∃ a b, t = a ++ '\n' :: b ∧ n = size (a ++ ['\n'])

/-- The offset just past the last line feed in front of an offset, or the beginning of the text. -/
def lineStart (t : Text) (n : Nat) : Nat :=
  n - size (lastLine (takeBytes n t))

/-- The offset just past the first line feed at an offset or behind it, or the end of the text. -/
def lineStop (t : Text) (n : Nat) : Nat :=
  n + size (lineEnd (dropBytes n t))

/-- The rest of a line: blanks, a carriage return or none, and a line feed or none. -/
def BlankRest (t : Text) : Prop :=
  ∃ blanks cr feed : Text, t = blanks ++ cr ++ feed ∧ blanks.all isBlank = true ∧
    (cr = [] ∨ cr = ['\r']) ∧ (feed = [] ∨ feed = ['\n'])

/-! ## Where a line begins -/

/-- The last line of a text holds no line feed, and it follows one or is all of the text. -/
theorem exists_lastLine (t : Text) : ∃ front, t = front ++ lastLine t ∧
    size t = size front + size (lastLine t) ∧ (front = [] ∨ ∃ l, front = l ++ ['\n']) := by
  rcases hsplit : Line.splitLast t with ⟨lines, last⟩
  have hline : lastLine t = last := by
    rcases Line.lastLine_of_splitLast [] hsplit with ⟨-, h⟩ | ⟨-, h⟩ <;> exact h
  rw [hline]
  have ht := Line.splitLast_append hsplit
  exact ⟨lines, ht, (congrArg size ht).trans (size_append lines last),
    (Line.splitLast_spec hsplit).2⟩

/-- The last line lies behind any line feed. -/
theorem size_lastLine_le (a b : Text) : size (lastLine (a ++ ['\n'] ++ b)) ≤ size b := by
  rcases hsplit : Line.splitLast b with ⟨lines, last⟩
  have hline : lastLine (a ++ ['\n'] ++ b) = last := by
    rcases Line.lastLine_of_splitLast (a ++ ['\n']) hsplit with ⟨-, h⟩ | ⟨-, h⟩
    · rw [h, lastLine_lineFeed, List.nil_append]
    · exact h
  rw [hline, Line.splitLast_append hsplit, size_append]
  exact Nat.le_add_left _ _

/-- A line begins as far in front of an offset as it has bytes there. -/
theorem lineStart_eq {front : Text} (ht : t = a ++ b) (ha : a = front ++ lastLine a) :
    lineStart t (size a) = size front := by
  have hsize := congrArg size ha
  rw [size_append] at hsize
  rw [lineStart, ht, takeBytes_size]
  omega

/-- The line of an offset begins at a point in front of it, or behind that, if it holds no more than
the bytes between the two. -/
theorem size_le_lineStart (ht : t = a ++ b ++ c) :
    size a ≤ lineStart t (size (a ++ b)) ↔ size (lastLine (a ++ b)) ≤ size b := by
  obtain ⟨front, hfront, hsize, -⟩ := exists_lastLine (a ++ b)
  rw [size_append] at hsize
  rw [lineStart_eq ht hfront]
  omega

/-- The text from the beginning of a line up to an offset is what stands on the line there. -/
theorem part_lineStart (ht : t = a ++ b) : IsPart t (lineStart t (size a)) (size a) ∧
    slice (lineStart t (size a)) (size a) t = lastLine a := by
  obtain ⟨front, ha, hsize, -⟩ := exists_lastLine a
  have hparts : t = front ++ lastLine a ++ b := by rw [← ha, ht]
  rw [lineStart_eq ht ha, hsize]
  exact ⟨isPart_iff.2 ⟨front, lastLine a, b, hparts, rfl, rfl⟩, by rw [hparts, slice_size]⟩

/-- A line begins just past the last line feed in front of an offset, or with the text. -/
theorem isGreatest_lineStart (ht : t = a ++ b) :
    IsGreatest {n | n = 0 ∨ n ≤ size a ∧ FeedAt t n} (lineStart t (size a)) := by
  obtain ⟨front, ha, hsize, hfront⟩ := exists_lastLine a
  rw [lineStart_eq ht ha]
  constructor
  · rcases hfront with rfl | ⟨l, rfl⟩
    · exact .inl rfl
    · refine .inr ⟨by omega, l, lastLine a ++ b, ?_, rfl⟩
      rw [ht]
      conv => lhs; rw [ha]
      simp
  · rintro n (rfl | ⟨hn, x, y, hfeed, rfl⟩)
    · exact Nat.zero_le _
    · -- The text behind a line feed that is further on would hold the last line.
      have hparts : x ++ ['\n'] ++ y = a ++ b := by rw [← ht, hfeed]; simp
      obtain ⟨e, rfl, -⟩ := exists_append_of_size_le hparts hn
      have hlast := size_lastLine_le x e
      rw [size_append] at hsize
      omega

/-! ## Where a line ends -/

/-- The first line of a text goes no further than any line feed. -/
theorem size_lineEnd_le (a b : Text) : size (lineEnd (a ++ '\n' :: b)) ≤ size (a ++ ['\n']) := by
  induction a with
  | nil => simp [lineEnd, firstLine]
  | cons c a ih =>
    by_cases hc : c = '\n'
    · subst hc
      simp [lineEnd, firstLine]
    · have hend : lineEnd (c :: (a ++ '\n' :: b)) = c :: lineEnd (a ++ '\n' :: b) := by
        simp [lineEnd, firstLine_cons hc, hc]
      rw [List.cons_append, hend, List.cons_append, size_cons, size_cons]
      exact Nat.add_le_add_left ih _

/-- A line ends as far behind an offset as it has bytes there. -/
theorem lineStop_eq (ht : t = a ++ b) : lineStop t (size a) = size a + size (lineEnd b) := by
  rw [lineStop, ht, dropBytes_size]

/-- The text from an offset up to the end of a line is what stands on the line there. -/
theorem part_lineStop (ht : t = a ++ b) : IsPart t (size a) (lineStop t (size a)) ∧
    slice (size a) (lineStop t (size a)) t = lineEnd b := by
  obtain ⟨rest, hrest⟩ := lineEnd_prefix b
  have hparts : t = a ++ lineEnd b ++ rest := by rw [ht, List.append_assoc, hrest]
  rw [lineStop_eq ht]
  exact ⟨isPart_iff.2 ⟨a, lineEnd b, rest, hparts, rfl, rfl⟩, by rw [hparts, slice_size]⟩

/-- A line ends just past the first line feed at an offset or behind it, or with the text. -/
theorem isLeast_lineStop (ht : t = a ++ b) :
    IsLeast {n | n = size t ∨ size a < n ∧ FeedAt t n} (lineStop t (size a)) := by
  obtain ⟨rest, hrest⟩ := lineEnd_prefix b
  have hsize : size t = size a + (size (lineEnd b) + size rest) := by
    rw [ht, size_append, ← size_append (lineEnd b), hrest]
  rw [lineStop_eq ht]
  constructor
  · rcases (firstAt?_lineFeed b).2 with ⟨-, hend⟩ | ⟨-, -, hend⟩
    · have hpos : 0 < size (lineEnd b) := size_pos (by simp [hend])
      refine .inr ⟨by omega, a ++ firstLine b, rest, ?_, ?_⟩
      · conv => lhs; rw [ht, ← hrest, hend]
        simp
      · simp only [hend, size_append, Nat.add_assoc]
    · exact .inl (by rw [hend, ht, size_append])
  · rintro n (rfl | ⟨hn, x, y, hfeed, rfl⟩)
    · omega
    · have hone : size ['\n'] = 1 := rfl
      rw [size_append, hone] at hn
      obtain ⟨e, rfl, rfl⟩ :=
        exists_append_of_size_le (ht.symm.trans hfeed) (Nat.le_of_lt_succ hn)
      have hend := size_lineEnd_le e y
      rw [List.append_assoc, size_append a]
      omega

/-- The rest of a line is blank if it is so in front of the line feed, up to a carriage return. -/
theorem blankRest_lineEnd : BlankRest (lineEnd t) ↔ BlankEnd (firstLine t) := by
  rw [blankEnd_iff]
  constructor
  · rintro ⟨blanks, cr, feed, hend, hblank, hcr, hfeed⟩
    have hmem : '\n' ∉ blanks ++ cr := by
      intro hin
      rcases List.mem_append.1 hin with hin | hin
      · exact absurd (List.all_eq_true.1 hblank _ hin) (by decide)
      · rcases hcr with rfl | rfl <;> simp at hin
    have hline : firstLine t = blanks ++ cr := by
      rw [← stripLast_lineEnd, hend]
      rcases hfeed with rfl | rfl
      · rw [List.append_nil, stripLast_of_not_mem hmem]
      · exact stripLast_append
    refine ⟨blanks, hblank, ?_⟩
    rcases hcr with rfl | rfl
    · exact .inl (by rw [hline, List.append_nil])
    · exact .inr hline
  · rintro ⟨blanks, hblank, hline⟩
    obtain ⟨feed, hend, hfeed⟩ : ∃ feed : Text, lineEnd t = firstLine t ++ feed ∧
        (feed = [] ∨ feed = ['\n']) := by
      rcases (firstAt?_lineFeed t).2 with ⟨-, hend⟩ | ⟨-, hall, hend⟩
      · exact ⟨['\n'], hend, .inr rfl⟩
      · exact ⟨[], by rw [hend, hall, List.append_nil], .inl rfl⟩
    rcases hline with hline | hline
    · exact ⟨blanks, [], feed, by rw [hend, hline, List.append_nil], hblank, .inl rfl, hfeed⟩
    · exact ⟨blanks, ['\r'], feed, by rw [hend, hline], hblank, .inr rfl, hfeed⟩

end Text

namespace Line

variable {src read lead mark rest : Text} {floor start stop : Nat}

/-- A text ends where a line begins if its last line is empty. -/
theorem endsLine_iff {t : Text} : endsLine t = true ↔ Text.lastLine t = [] := by
  rcases List.eq_nil_or_concat t with rfl | ⟨s, c, rfl⟩
  · exact ⟨fun _ => rfl, fun _ => rfl⟩
  · by_cases hc : c = '\n'
    · subst hc
      simp [endsLine, Text.lastLine_lineFeed]
    · have hmem : '\n' ∉ [c] := fun hin => hc (List.mem_singleton.1 hin).symm
      rw [List.concat_eq_append, Text.lastLine_append hmem]
      simp [endsLine, hc]

/-- The indentation of a tag is looked for behind a floor: it is the whole line in front of the tag,
if that is blank and begins no further in front. -/
theorem indent?_endsLine (read lead : Text) :
    if (Text.lastLine (read ++ lead)).size ≤ lead.size ∧
      (Text.lastLine (read ++ lead)).all Text.isBlank = true
    then ∃ kept, indent? (endsLine read) lead = some (kept, Text.lastLine (read ++ lead))
    else indent? (endsLine read) lead = none := by
  rcases hsplit : splitLast lead with ⟨lines, last⟩
  have hlead : lead = lines ++ last := splitLast_append hsplit
  have hindent : indent? (endsLine read) lead =
      if (endsLine read || !lines.isEmpty) && last.all Text.isBlank then some (lines, last)
      else none := by
    simp only [indent?, hsplit]
  rw [hindent]
  rcases lastLine_of_splitLast read hsplit with ⟨rfl, hline⟩ | ⟨hne, hline⟩
  · -- The line begins at the floor or in front of it.
    obtain rfl : lead = last := hlead
    rw [hline, List.isEmpty_nil, Bool.not_true, Bool.or_false]
    cases hread : endsLine read with
    | true =>
      rw [endsLine_iff.1 hread, List.nil_append, Bool.true_and]
      split
      next h => exact ⟨[], if_pos h.2⟩
      next h => exact if_neg fun hblank => h ⟨Nat.le_refl _, hblank⟩
    | false =>
      have hpos : 0 < (Text.lastLine read).size :=
        Text.size_pos fun hnil => Bool.false_ne_true (hread ▸ endsLine_iff.2 hnil)
      have hlong : ¬ (Text.lastLine read ++ lead).size ≤ lead.size := by
        rw [Text.size_append]
        omega
      rw [if_neg fun h => hlong h.1, Bool.false_and]
      exact if_neg Bool.false_ne_true
  · have hempty : lines.isEmpty = false := by simpa using hne
    have hsize : last.size ≤ lead.size := by
      rw [hlead, Text.size_append]
      exact Nat.le_add_left _ _
    rw [hline, hempty, Bool.not_false, Bool.or_true, Bool.true_and]
    split
    next h => exact ⟨lines, if_pos h.2⟩
    next h => exact if_neg fun hblank => h ⟨hsize, hblank⟩

/-- The line between the parts of a text is that of the whole text, if it is blank and begins no
further in front than the floor. -/
theorem find?_parts (hsrc : src = read ++ (lead ++ mark ++ rest)) :
    find? src read.size (read ++ lead).size (read ++ (lead ++ mark)).size =
      if read.size ≤ src.lineStart (read ++ lead).size ∧
        (Text.lastLine (read ++ lead)).all Text.isBlank = true ∧
        Text.BlankEnd (Text.firstLine rest)
      then some (src.lineStart (read ++ lead).size, src.lineStop (read ++ (lead ++ mark)).size)
      else none := by
  have hlead : src = read ++ lead ++ (mark ++ rest) := by simp [hsrc]
  have hstop : src.lineStop (read ++ (lead ++ mark)).size =
      (read ++ (lead ++ mark ++ Text.lineEnd rest)).size := by
    rw [Text.lineStop_eq (b := rest) (by simp [hsrc])]
    simp [Nat.add_assoc]
  have hfind : find? src read.size (read ++ lead).size (read ++ (lead ++ mark)).size = _ :=
    hsrc ▸ find?_size
  have hindent := indent?_endsLine read lead
  have hrest := restOfLine?_eq (t := rest)
  simp only [hfind, Text.size_le_lineStart hlead, hstop]
  by_cases hfront : (Text.lastLine (read ++ lead)).size ≤ lead.size ∧
      (Text.lastLine (read ++ lead)).all Text.isBlank = true
  · rw [if_pos hfront] at hindent
    obtain ⟨kept, hindent⟩ := hindent
    have hstart : src.lineStart (read ++ lead).size = (read ++ kept).size := by
      refine Text.lineStart_eq hlead ?_
      rw [List.append_assoc, ← indent?_append hindent]
    by_cases hback : Text.BlankEnd (Text.firstLine rest)
    · rw [if_pos hback] at hrest
      obtain ⟨after, hrest⟩ := hrest
      rw [if_pos ⟨hfront.1, hfront.2, hback⟩, around?, hindent, hrest, Option.map_some, hstart]
    · rw [if_neg hback] at hrest
      rw [if_neg fun h => hback h.2.2, around?, hindent, hrest]
      rfl
  · rw [if_neg hfront] at hindent
    rw [if_neg fun h => hfront ⟨h.1, h.2.1⟩, around?, hindent]
    rfl

/-- **The line of a tag,** looked for from a floor on, is the whole line or the lines that the tag
stands on: from the last line feed in front of the tag, or the beginning of the text, to the first
one behind it, or the end. It is found if it does not begin in front of the floor and holds nothing
beside the tag but blanks, with a carriage return at the end or without. -/
theorem find?_eq_wholeLine (hfloor : src.IsPart floor start) (hstop : src.IsPart start stop) :
    let first := src.lineStart start
    let last := src.lineStop stop
    IsGreatest {n | n = 0 ∨ n ≤ start ∧ src.FeedAt n} first ∧
      IsLeast {n | n = src.size ∨ stop < n ∧ src.FeedAt n} last ∧
      src.IsPart first start ∧ src.IsPart stop last ∧
      ∀ line, find? src floor start stop = some line ↔
        line = (first, last) ∧ floor ≤ first ∧
          (Text.slice first start src).all Text.isBlank = true ∧
          Text.BlankRest (Text.slice stop last src) := by
  obtain ⟨read, lead, mark, rest, hsrc, rfl, rfl, rfl⟩ := Text.isPart_isPart_iff.1 ⟨hfloor, hstop⟩
  have hfront : src = read ++ lead ++ (mark ++ rest) := by simp [hsrc]
  have hback : src = read ++ (lead ++ mark) ++ rest := by simp [hsrc]
  obtain ⟨hfirst, hindent⟩ := Text.part_lineStart hfront
  obtain ⟨hlast, htail⟩ := Text.part_lineStop hback
  refine ⟨Text.isGreatest_lineStart hfront, Text.isLeast_lineStop hback, hfirst, hlast,
    fun line => ?_⟩
  rw [find?_parts hsrc, hindent, htail, Text.blankRest_lineEnd]
  constructor
  · intro h
    split at h
    next hline => exact ⟨(Option.some.inj h).symm, hline⟩
    next => cases h
  · rintro ⟨rfl, hline⟩
    exact if_pos hline

/-- A tag of two lines, with blanks in front of it and a carriage return behind it. Its line begins
behind a floor that is in front of the line feed, and in front of one among the blanks. -/
theorem find?_eq_wholeLine_floor :
    let src : Text := "é\n \t<%!\n%> \r\nz".toList
    src.IsPart 2 5 ∧ src.IsPart 4 5 ∧ src.IsPart 5 11 ∧
      find? src 2 5 11 = some (3, 14) ∧ find? src 4 5 11 = none := by
  intro src
  have hmark : src.IsPart 5 11 := by decide
  have hbehind : src.IsPart 2 5 := by decide
  have hamong : src.IsPart 4 5 := by decide
  have hrest : Text.BlankRest " \r\n".toList :=
    ⟨" ".toList, "\r".toList, "\n".toList, rfl, rfl, .inr rfl, .inr rfl⟩
  refine ⟨hbehind, hamong, hmark, ?_, ?_⟩
  · obtain ⟨-, -, -, -, hfind⟩ := find?_eq_wholeLine hbehind hmark
    exact (hfind (3, 14)).2 ⟨by decide, by decide, by decide, hrest⟩
  · obtain ⟨-, -, -, -, hfind⟩ := find?_eq_wholeLine hamong hmark
    refine Option.eq_none_iff_forall_ne_some.2 fun line hline => ?_
    have hfloor : 4 ≤ src.lineStart 5 := ((hfind line).1 hline).2.1
    exact absurd hfloor (by decide)

end Line

end Mustache
