import Mustache.Proofs.Bytes
import Mustache.Proofs.Flat

/-!
# Whole lines

A tag stands alone if nothing but blanks stands beside it on its line or lines. `Kind.Alone` says
so by the whole text around it, from the last line feed in front of it to the next one behind it.
The scanner sees only the text since the tag before, or since the end of the line that vanished with
that tag; it is told whether a line begins there (`Line.Begins`). Both come to the same
(`Item.ofExpression_of_alone`, `Item.ofExpression_of_not_alone`): a line that a tag ends in the
middle of holds the end of a stop delimiter, which is not blank.
-/

namespace Mustache

namespace Text

variable {a b t : Text} {c : Char}

/-- The text behind the last line feed. -/
def lastLine (t : Text) : Text :=
  (t.reverse.takeWhile (· != '\n')).reverse

/-- The text in front of the first line feed. -/
def firstLine (t : Text) : Text :=
  t.takeWhile (· != '\n')

/-- The text in front of the first line feed, and the line feed. -/
def lineEnd (t : Text) : Text :=
  firstLine t ++ (t.dropWhile (· != '\n')).take 1

/-- A text of blanks, with a carriage return behind them or without. -/
def BlankEnd (t : Text) : Prop :=
  t.dropWhile isBlank = [] ∨ t.dropWhile isBlank = ['\r']

instance (t : Text) : Decidable (BlankEnd t) :=
  inferInstanceAs (Decidable (_ ∨ _))

theorem firstLine_lineFeed : firstLine ('\n' :: t) = [] := by
  simp [firstLine]

theorem firstLine_cons (h : c ≠ '\n') : firstLine (c :: t) = c :: firstLine t := by
  simp [firstLine, h]

/-- The first line of a text ends with a line feed, or it is all of the text. -/
theorem lineEnd_spec (t : Text) : lineEnd t = t ∨ ∃ l, lineEnd t = l ++ ['\n'] := by
  have hsplit : firstLine t ++ t.dropWhile (· != '\n') = t := List.takeWhile_append_dropWhile
  cases hdrop : t.dropWhile (· != '\n') with
  | nil =>
    left
    rw [lineEnd, hdrop]
    rwa [hdrop] at hsplit
  | cons c r =>
    right
    have hc : c = '\n' := by
      have := List.head?_dropWhile_not (· != '\n') t
      rw [hdrop] at this
      simpa using this
    exact ⟨firstLine t, by rw [lineEnd, hdrop, hc]; rfl⟩

/-- A line goes on in text without a line feed. -/
theorem lastLine_append (h : '\n' ∉ b) : lastLine (a ++ b) = lastLine a ++ b := by
  have hall : ∀ c ∈ b.reverse, (c != '\n') = true := by
    intro c hc
    have : c ≠ '\n' := by rintro rfl; exact h (List.mem_reverse.1 hc)
    simpa using this
  rw [lastLine, List.reverse_append, List.takeWhile_append_of_pos hall, List.reverse_append,
    List.reverse_reverse, lastLine]

/-- A line begins behind a line feed. -/
theorem lastLine_lineFeed : lastLine (a ++ ['\n']) = [] := by
  simp [lastLine]

/-- The last line of a text does not depend on what is in front of a line feed in it. -/
theorem lastLine_append_lineFeed (h : '\n' ∉ b) : lastLine (a ++ ['\n'] ++ b) = b := by
  rw [lastLine_append h, lastLine_lineFeed, List.nil_append]

end Text

namespace Line

variable {fresh : Bool} {read lead kept indent t tail rest lines last : Text}

/-- A text ends where a line begins if it is `fresh`, and in a line that is not blank if not. -/
def Begins (fresh : Bool) (read : Text) : Prop :=
  if fresh then Text.lastLine read = [] else ∃ c ∈ Text.lastLine read, Text.isBlank c = false

/-- A text ends where a line begins if what it ends with does. -/
theorem endsLine_append {a b : Text} (h : b ≠ []) : endsLine (a ++ b) = endsLine b := by
  obtain ⟨c, hc⟩ := Option.ne_none_iff_exists'.1 (mt List.getLast?_eq_none_iff.1 h)
  rw [endsLine, endsLine, List.getLast?_append, hc, Option.some_or]

/-- A line begins with the text. -/
theorem begins_nil : Begins true [] := by
  show Text.lastLine [] = []
  rfl

/-- The two parts of a text are divided at its last line feed, if it has one. -/
theorem splitLast_spec (h : splitLast t = (lines, last)) :
    '\n' ∉ last ∧ (lines = [] ∨ ∃ l, lines = l ++ ['\n']) := by
  induction t generalizing lines last with
  | nil => cases h; exact ⟨List.not_mem_nil, .inl rfl⟩
  | cons c t ih =>
    obtain ⟨hlast, hlines⟩ := ih rfl
    rw [splitLast_cons] at h
    split at h
    next hnew =>
      cases h
      exact ⟨fun hin => (List.mem_cons.1 hin).elim (fun heq => hnew.2 heq.symm) hlast, .inl rfl⟩
    next hnot =>
      cases h
      refine ⟨hlast, .inr ?_⟩
      rcases hlines with hnil | ⟨l, hl⟩
      · have hc : c = '\n' := Classical.byContradiction fun hc => hnot ⟨hnil, hc⟩
        exact ⟨[], by rw [hnil, hc]; rfl⟩
      · exact ⟨c :: l, by rw [hl]; rfl⟩

/-- The last line of two texts begins in the second one if there is a line feed there, and in the
first one if not. -/
theorem lastLine_of_splitLast (read : Text) (h : splitLast lead = (lines, last)) :
    lines = [] ∧ Text.lastLine (read ++ lead) = Text.lastLine read ++ last ∨
      lines ≠ [] ∧ Text.lastLine (read ++ lead) = last := by
  obtain ⟨hlast, rfl | ⟨l, rfl⟩⟩ := splitLast_spec h
  · rw [splitLast_append h, List.nil_append, Text.lastLine_append hlast]
    exact .inl ⟨rfl, rfl⟩
  · rw [splitLast_append h, ← List.append_assoc, ← List.append_assoc,
      Text.lastLine_append_lineFeed hlast]
    exact .inr ⟨by simp, rfl⟩

/-- The indentation of a tag is the whole line in front of it, if that is blank. -/
theorem indent?_eq (lead : Text) (h : Begins fresh read) :
    if (Text.lastLine (read ++ lead)).all Text.isBlank
    then ∃ kept, indent? fresh lead = some (kept, Text.lastLine (read ++ lead))
    else indent? fresh lead = none := by
  rcases hsplit : splitLast lead with ⟨lines, last⟩
  rcases lastLine_of_splitLast read hsplit with ⟨rfl, hline⟩ | ⟨hne, hline⟩
  · -- The line began before this text.
    cases fresh with
    | true =>
      have hread : Text.lastLine read = [] := h
      rw [hline, hread, List.nil_append]
      simp only [indent?, hsplit, Bool.true_or, Bool.true_and]
      split
      · exact ⟨_, rfl⟩
      · rfl
    | false =>
      obtain ⟨c, hc, hblank⟩ : ∃ c ∈ Text.lastLine read, Text.isBlank c = false := h
      have hall : ¬ (Text.lastLine (read ++ lead)).all Text.isBlank = true := by
        intro hall
        rw [hline, List.all_append, Bool.and_eq_true] at hall
        rw [List.all_eq_true.1 hall.1 c hc] at hblank
        cases hblank
      rw [if_neg hall]
      simp only [indent?, hsplit, List.isEmpty_nil, Bool.not_true, Bool.or_self, Bool.false_and]
      rfl
  · have hempty : lines.isEmpty = false := by simpa using hne
    rw [hline]
    simp only [indent?, hsplit, hempty, Bool.not_false, Bool.or_true, Bool.true_and]
    split
    · exact ⟨_, rfl⟩
    · rfl

/-- The end of a line, behind blanks that stand on it. -/
theorem restOfLine?_of_dropWhile (h : t.dropWhile Text.isBlank = rest) :
    (Text.BlankEnd (Text.firstLine t) ↔ Text.firstLine rest = [] ∨ Text.firstLine rest = ['\r']) ∧
      Text.lineEnd t = t.takeWhile Text.isBlank ++ Text.lineEnd rest := by
  have hsplit : t.takeWhile Text.isBlank ++ rest = t := by
    rw [← h, List.takeWhile_append_dropWhile]
  have hblank : ∀ c ∈ t.takeWhile Text.isBlank, Text.isBlank c = true :=
    List.all_eq_true.1 (List.all_takeWhile ..)
  have hline : ∀ c ∈ t.takeWhile Text.isBlank, (c != '\n') = true := by
    intro c hc
    have : c ≠ '\n' := by rintro rfl; exact absurd (hblank _ hc) (by decide)
    simpa using this
  have hfirst : Text.firstLine t = t.takeWhile Text.isBlank ++ Text.firstLine rest := by
    conv => lhs; rw [← hsplit]
    exact List.takeWhile_append_of_pos hline
  constructor
  · have hfront : (Text.firstLine rest).dropWhile Text.isBlank = Text.firstLine rest := by
      cases rest with
      | nil => rfl
      | cons c r =>
        have hc : Text.isBlank c = false := by
          have := List.head?_dropWhile_not Text.isBlank t
          rw [h] at this
          simpa using this
        by_cases hfeed : c = '\n'
        · rw [hfeed, Text.firstLine_lineFeed]
          rfl
        · rw [Text.firstLine_cons hfeed, List.dropWhile_cons, hc]
          rfl
    have hdrop : (Text.firstLine t).dropWhile Text.isBlank = Text.firstLine rest := by
      rw [hfirst, List.dropWhile_append_of_pos hblank, hfront]
    rw [Text.BlankEnd, hdrop]
  · have hdrop : t.dropWhile (· != '\n') = rest.dropWhile (· != '\n') := by
      conv => lhs; rw [← hsplit]
      exact List.dropWhile_append_of_pos hline
    rw [Text.lineEnd, Text.lineEnd, hfirst, hdrop, List.append_assoc]

/-- The rest of the line of a tag is the whole line behind it, if that is blank. -/
theorem restOfLine?_eq :
    if Text.BlankEnd (Text.firstLine t)
    then ∃ rest, restOfLine? t = some (Text.lineEnd t, rest)
    else restOfLine? t = none := by
  obtain ⟨hblank, hend⟩ := restOfLine?_of_dropWhile (t := t) rfl
  simp only [hblank, hend, restOfLine?]
  generalize t.takeWhile Text.isBlank = blanks
  generalize t.dropWhile Text.isBlank = rest
  by_cases hline : Text.firstLine rest = [] ∨ Text.firstLine rest = ['\r']
  · rw [if_pos hline]
    rcases rest with _ | ⟨c, rest⟩
    · exact ⟨[], by simp [Text.lineEnd, Text.firstLine]⟩
    · by_cases hfeed : c = '\n'
      · subst hfeed
        exact ⟨rest, by simp [Text.lineEnd, Text.firstLine]⟩
      · rw [Text.firstLine_cons hfeed] at hline
        obtain ⟨rfl, hnil⟩ : c = '\r' ∧ Text.firstLine rest = [] := by simpa using hline
        rcases rest with _ | ⟨c, rest⟩
        · exact ⟨[], by simp [Text.lineEnd, Text.firstLine]⟩
        · have hc : c = '\n' := Classical.byContradiction fun hc => by
            rw [Text.firstLine_cons hc] at hnil
            cases hnil
          subst hc
          exact ⟨rest, by simp [Text.lineEnd, Text.firstLine]⟩
  · rw [if_neg hline]
    split
    case h_5 => rfl
    all_goals exact absurd (by simp [Text.firstLine]) hline

/-- The line of a tag that has nothing but blanks beside it. -/
theorem around?_of_blank (h : Begins fresh read)
    (hfront : (Text.lastLine (read ++ lead)).all Text.isBlank = true)
    (hback : Text.BlankEnd (Text.firstLine t)) : ∃ kept rest,
      around? fresh lead t = some ⟨kept, Text.lastLine (read ++ lead), Text.lineEnd t, rest⟩ := by
  have hindent := indent?_eq lead h
  rw [if_pos hfront] at hindent
  obtain ⟨kept, hindent⟩ := hindent
  have hrest := restOfLine?_eq (t := t)
  rw [if_pos hback] at hrest
  obtain ⟨rest, hrest⟩ := hrest
  exact ⟨kept, rest, by rw [around?, hindent, hrest]⟩

/-- There is none if something else stands beside the tag. -/
theorem around?_of_not_blank (h : Begins fresh read)
    (hnot : ¬ ((Text.lastLine (read ++ lead)).all Text.isBlank = true ∧
      Text.BlankEnd (Text.firstLine t))) : around? fresh lead t = none := by
  have hindent := indent?_eq lead h
  by_cases hfront : (Text.lastLine (read ++ lead)).all Text.isBlank = true
  · have hrest := restOfLine?_eq (t := t)
    rw [if_neg fun hback => hnot ⟨hfront, hback⟩] at hrest
    rw [around?, hrest]
    cases indent? fresh lead <;> rfl
  · rw [if_neg hfront] at hindent
    rw [around?, hindent]

/-! ### Blank lines -/

variable {front back : Text}

/-- Blanks where a line begins are all of an indentation. -/
theorem indent?_of_blank (h : front.all Text.isBlank = true) :
    Line.indent? true front = some ([], front) := by
  rcases hsplit : Line.splitLast front with ⟨lines, last⟩
  have hwhole := Line.splitLast_append hsplit
  have hlines : lines = [] := by
    refine (Line.splitLast_spec hsplit).2.resolve_right ?_
    rintro ⟨l, rfl⟩
    have hfeed : '\n' ∈ front := by simp [hwhole]
    exact absurd (List.all_eq_true.1 h _ hfeed) (by decide)
  subst hlines
  obtain rfl : front = last := hwhole
  simp only [Line.indent?, hsplit, Bool.true_or, Bool.true_and, h, if_true]

/-- Blanks up to a line feed are all of the rest of a line. -/
theorem restOfLine?_of_blank (h : back.all Text.isBlank = true) :
    Line.restOfLine? (back ++ '\n' :: rest) = some (back ++ ['\n'], rest) := by
  have hall : ∀ c ∈ back, Text.isBlank c = true := List.all_eq_true.1 h
  have hfeed : ¬ Text.isBlank '\n' = true := by decide
  have htake : (back ++ '\n' :: rest).takeWhile Text.isBlank = back := by
    rw [List.takeWhile_append_of_pos hall, List.takeWhile_cons_of_neg hfeed, List.append_nil]
  have hdrop : (back ++ '\n' :: rest).dropWhile Text.isBlank = '\n' :: rest := by
    rw [List.dropWhile_append_of_pos hall, List.dropWhile_cons_of_neg hfeed]
  simp only [Line.restOfLine?, htake, hdrop]

end Line

/-- A tag of a kind stands alone between the whole text in front of it and the whole text behind
it. -/
def Kind.Alone (kind : Kind) (front back : Text) : Prop :=
  kind.mayStandAlone = true ∧ (Text.lastLine front).all Text.isBlank = true ∧
    Text.BlankEnd (Text.firstLine back)

instance (kind : Kind) (front back : Text) : Decidable (kind.Alone front back) :=
  inferInstanceAs (Decidable (_ ∧ _ ∧ _))

namespace Item

variable {fresh : Bool} {d : Delimiters} {e : Expression} {read : Text}

/-- All that stands on the lines of a tag vanishes, if it stands alone there in the whole text. -/
theorem ofExpression_of_alone (h : Line.Begins fresh read)
    (halone : e.kind.Alone (read ++ e.lead) e.rest) :
    (ofExpression fresh d e).1.indent = Text.lastLine (read ++ e.lead) ∧
      (ofExpression fresh d e).1.tail = Text.lineEnd e.rest := by
  obtain ⟨hkind, hfront, hback⟩ := halone
  obtain ⟨kept, rest, hline⟩ := Line.around?_of_blank h hfront hback
  rw [ofExpression, if_pos hkind, hline]
  exact ⟨rfl, rfl⟩

/-- Nothing vanishes around a tag that does not stand alone. -/
theorem ofExpression_of_not_alone (h : Line.Begins fresh read)
    (halone : ¬ e.kind.Alone (read ++ e.lead) e.rest) :
    ofExpression fresh d e = (ofFlat d e, e.rest) := by
  unfold ofExpression
  split
  next line hline =>
    split at hline
    next hkind =>
      rw [Line.around?_of_not_blank h fun hblank => halone ⟨hkind, hblank⟩] at hline
      cases hline
    next => cases hline
  next => rfl

/-- Behind an item a line begins or one that is not blank goes on, unless the text ends there. -/
theorem begins_ofExpression (hd : d.Solid) (hmark : d.stop <:+ e.mark)
    (h : Line.Begins fresh read) : (ofExpression fresh d e).2 = [] ∨
      Line.Begins
        (Line.endsLine ((ofExpression fresh d e).1.mark ++ (ofExpression fresh d e).1.tail))
        (read ++ (ofExpression fresh d e).1.text) := by
  by_cases halone : e.kind.Alone (read ++ e.lead) e.rest
  · obtain ⟨-, htail⟩ := ofExpression_of_alone (d := d) h halone
    have hrest := tail_append_rest fresh d e
    rcases Text.lineEnd_spec e.rest with hall | ⟨l, hl⟩
    · rw [htail, hall] at hrest
      exact .inl (by simpa using hrest)
    · right
      rw [htail, hl, ← List.append_assoc, Line.endsLine, text, htail, hl, ← List.append_assoc,
        ← List.append_assoc]
      simp only [List.getLast?_append, List.getLast?_singleton, Line.Begins]
      exact Text.lastLine_lineFeed
  · -- The stop delimiter ends in the line, and it holds no white space.
    right
    obtain ⟨m, hm⟩ := hmark
    obtain ⟨s, c, hstop⟩ : ∃ s c, d.stop = s ++ [c] :=
      ⟨_, _, (List.dropLast_concat_getLast hd.2.1).symm⟩
    have hc : Text.isSpace c = false := hd.2.2 c (by simp [hstop])
    have hfeed : c ≠ '\n' := by rintro rfl; exact absurd hc (by decide)
    have hblank : Text.isBlank c = false := by
      cases hb : Text.isBlank c with
      | false => rfl
      | true => rw [Text.isSpace_of_isBlank hb] at hc; cases hc
    have hmark' : e.mark = m ++ s ++ [c] := by rw [← hm, hstop, List.append_assoc]
    have hends : Line.endsLine (m ++ s ++ [c]) = false := by
      simp [Line.endsLine, List.getLast?_append, hfeed]
    rw [ofExpression_of_not_alone h halone]
    simp only [ofFlat, text, List.append_nil, hmark', hends]
    refine ⟨c, ?_, hblank⟩
    rw [← List.append_assoc, ← List.append_assoc, Text.lastLine_append (by simpa using hfeed.symm)]
    exact List.mem_append_right _ (.head _)

end Item

namespace Scan

variable {d d' : Delimiters} {front mark content back rest : Text} {kind : Kind}

/-- A line that holds a tag between blanks and nothing else vanishes with the tag, and what follows
it is scanned as if the text began there. -/
theorem ofText_line (hd : d.Solid) (hfront : front.all Text.isBlank = true)
    (hback : back.all Text.isBlank = true) (hmark : Mark d mark kind content)
    (hkind : kind.mayStandAlone = true)
    (hafter : Item.after? ⟨[], front, mark, back ++ ['\n'], kind, content, d⟩ = some d') :
    ofText true d (front ++ mark ++ back ++ '\n' :: rest) =
      .tag ⟨[], front, mark, back ++ ['\n'], kind, content, d⟩ (ofText true d' rest) := by
  have hwhite : Text.White front := (Text.padding_of_all_isBlank hfront).white
  have hclear : Text.Clear d.start front := by
    have := (Text.clear_append_iff (x := []) hd.1 hwhite).2 (Text.clear_nil _)
    rwa [List.append_nil] at this
  have hnext : Expression.next? d (front ++ mark ++ back ++ '\n' :: rest) =
      .ok (some ⟨front, mark, kind, content, back ++ '\n' :: rest⟩) :=
    Expression.next?_eq_some_iff.2 ⟨hclear, hmark, List.append_assoc ..⟩
  have hitem : Item.ofExpression true d ⟨front, mark, kind, content, back ++ '\n' :: rest⟩ =
      (⟨[], front, mark, back ++ ['\n'], kind, content, d⟩, rest) := by
    simp only [Item.ofExpression, hkind, if_true, Line.around?, Line.indent?_of_blank hfront,
      Line.restOfLine?_of_blank hback]
  have hends : Line.endsLine (mark ++ (back ++ ['\n'])) = true := by
    simp [Line.endsLine, List.getLast?_append]
  rw [ofText_of_some hnext, hitem, hafter]
  simp only [hends]

end Scan

end Mustache
