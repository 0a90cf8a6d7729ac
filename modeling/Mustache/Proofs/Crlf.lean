import Mustache.Line
import Mustache.Proofs.Search

/-!
# Line ends of a text

A line may end with a line feed or with a carriage return and a line feed. `Text.crlf` turns the
first sort of text into the second; the text can be told from the result (`Text.crlf_injective`).

The two characters are white space and neither is a blank. So a solid text is found in the same
place with either sort of line ends (`Text.cut?_crlf`), trimming and splitting into words come to
the same (`Text.trim_crlf`, `Text.words_crlf`), and so does the line around a tag
(`Line.around?_crlf`), if the text has no other carriage returns: one of those may end a line too.
-/

namespace Mustache

namespace Text

/-- The text with a carriage return in front of every line feed. -/
def crlf : Text → Text
  | [] => []
  | c :: t => if c = '\n' then '\r' :: '\n' :: crlf t else c :: crlf t

variable {p t a b : Text} {c : Char}

@[simp] theorem crlf_nil : crlf [] = [] := rfl

@[simp] theorem crlf_feed (t : Text) : crlf ('\n' :: t) = '\r' :: '\n' :: crlf t := rfl

theorem crlf_cons (hc : c ≠ '\n') (t : Text) : crlf (c :: t) = c :: crlf t := if_neg hc

@[simp] theorem crlf_append (a b : Text) : crlf (a ++ b) = crlf a ++ crlf b := by
  induction a with
  | nil => rfl
  | cons c a ih =>
    by_cases hc : c = '\n'
    · subst hc
      simp only [List.cons_append, crlf_feed, ih]
    · simp only [List.cons_append, crlf_cons hc, ih]

@[simp] theorem crlf_eq_nil_iff : crlf t = [] ↔ t = [] := by
  cases t with
  | nil => exact iff_of_true rfl rfl
  | cons c t =>
    by_cases hc : c = '\n'
    · subst hc
      exact iff_of_false nofun nofun
    · rw [crlf_cons hc]
      exact iff_of_false nofun nofun

/-- A text without line ends stays as it is. -/
theorem crlf_of_not_mem (h : '\n' ∉ t) : crlf t = t := by
  induction t with
  | nil => rfl
  | cons c t ih =>
    have hc : c ≠ '\n' := fun hc => h (hc ▸ .head _)
    rw [crlf_cons hc, ih fun ht => h (.tail _ ht)]

/-- No line feed comes first. -/
theorem feed_cons_ne_crlf : '\n' :: t ≠ crlf a := by
  cases a with
  | nil => nofun
  | cons c a =>
    intro h
    by_cases hc : c = '\n'
    · subst hc
      exact absurd (List.cons.inj h).1 (by decide)
    · rw [crlf_cons hc] at h
      exact hc (List.cons.inj h).1.symm

/-- The line ends can be told from the text. -/
theorem crlf_injective : Function.Injective crlf := by
  intro s
  induction s with
  | nil => exact fun t h => (crlf_eq_nil_iff.1 h.symm).symm
  | cons c s ih =>
    intro t h
    cases t with
    | nil => exact crlf_eq_nil_iff.1 h
    | cons d t =>
      by_cases hc : c = '\n' <;> by_cases hd : d = '\n'
      · subst hc hd
        rw [crlf_feed, crlf_feed] at h
        rw [ih (List.cons.inj (List.cons.inj h).2).2]
      · subst hc
        rw [crlf_feed, crlf_cons hd] at h
        exact absurd (List.cons.inj h).2 feed_cons_ne_crlf
      · subst hd
        rw [crlf_feed, crlf_cons hc] at h
        exact absurd (List.cons.inj h).2.symm feed_cons_ne_crlf
      · rw [crlf_cons hc, crlf_cons hd] at h
        rw [(List.cons.inj h).1, ih (List.cons.inj h).2]

/-! ## Searching -/

/-- A solid text has no line ends. -/
theorem Solid.crlf (hp : Solid p) : crlf p = p :=
  crlf_of_not_mem fun h => by simpa [isSpace] using hp.2 _ h

/-- A text without white space is taken off the front with either sort of line ends. -/
theorem strip?_crlf (hp : ∀ c ∈ p, isSpace c = false) :
    strip? p (Text.crlf t) = (strip? p t).map Text.crlf := by
  induction p generalizing t with
  | nil => rfl
  | cons d p ih =>
    have hd : isSpace d = false := hp d (.head _)
    cases t with
    | nil => rfl
    | cons c t =>
      by_cases hc : c = '\n'
      · subst hc
        have hfeed : d ≠ '\n' := by rintro rfl; cases hd
        have hreturn : d ≠ '\r' := by rintro rfl; cases hd
        rw [crlf_feed, strip?, strip?, if_neg hfeed, if_neg hreturn]
        rfl
      · rw [crlf_cons hc, strip?, strip?]
        split
        · exact ih fun c h => hp c (.tail _ h)
        · rfl

/-- A solid text is found in the same place with either sort of line ends. -/
theorem cut?_crlf (hp : Solid p) :
    cut? p (Text.crlf t) = (cut? p t).map (Prod.map Text.crlf Text.crlf) := by
  induction t with
  | nil =>
    have hnone : cut? p [] = none := cut?_eq_none_iff.2 fun h => hp.1 (List.infix_nil.1 h)
    rw [Text.crlf_nil, hnone]
    rfl
  | cons c t ih =>
    by_cases hc : c = '\n'
    · subst hc
      have hreturns : Passes p ['\r', '\n'] (Text.crlf t) := passes_white hp (by decide)
      have hfeeds : Passes p ['\n'] t := passes_white hp (by decide)
      show cut? p (['\r', '\n'] ++ Text.crlf t) = (cut? p (['\n'] ++ t)).map _
      rw [hreturns, hfeeds, ih, Option.map_map, Option.map_map]
      rfl
    · have hstrip := strip?_crlf hp.2 (t := c :: t)
      rw [crlf_cons hc] at hstrip ⊢
      rw [cut?, cut?, hstrip, ih]
      cases strip? p (c :: t) with
      | some rest => rfl
      | none =>
        cases cut? p t with
        | none => rfl
        | some parts =>
          obtain ⟨a, b⟩ := parts
          simp only [Option.map_none, Option.map_some, Prod.map_apply, crlf_cons hc]

/-! ## White space -/

section Class

variable {f : Char → Bool}

/-- Whether a text is all of a class does not depend on its line ends if the class has both of
their characters or neither. -/
theorem all_crlf (hf : f '\r' = f '\n') (t : Text) : (Text.crlf t).all f = t.all f := by
  induction t with
  | nil => rfl
  | cons c t ih =>
    by_cases hc : c = '\n'
    · subst hc
      rw [crlf_feed, List.all_cons, List.all_cons, List.all_cons, ih, hf, ← Bool.and_assoc,
        Bool.and_self]
    · rw [crlf_cons hc, List.all_cons, List.all_cons, ih]

/-- Such a class takes a line end whole or not at all. -/
theorem takeWhile_crlf (hf : f '\r' = f '\n') (t : Text) :
    (Text.crlf t).takeWhile f = Text.crlf (t.takeWhile f) := by
  induction t with
  | nil => rfl
  | cons c t ih =>
    by_cases hc : c = '\n'
    · subst hc
      rw [crlf_feed, List.takeWhile_cons, List.takeWhile_cons, List.takeWhile_cons, ih, hf]
      cases f '\n' <;> rfl
    · rw [crlf_cons hc, List.takeWhile_cons, List.takeWhile_cons, ih]
      split
      · rw [crlf_cons hc]
      · rfl

/-- Such a class drops a line end whole or not at all. -/
theorem dropWhile_crlf (hf : f '\r' = f '\n') (t : Text) :
    (Text.crlf t).dropWhile f = Text.crlf (t.dropWhile f) := by
  induction t with
  | nil => rfl
  | cons c t ih =>
    by_cases hc : c = '\n'
    · subst hc
      rw [crlf_feed, List.dropWhile_cons, List.dropWhile_cons, List.dropWhile_cons, ih, hf]
      cases f '\n' <;> rfl
    · rw [crlf_cons hc, List.dropWhile_cons, List.dropWhile_cons, ih]
      split
      · rfl
      · rw [crlf_cons hc]

end Class

theorem trimEnd_crlf (t : Text) : trimEnd (Text.crlf t) = Text.crlf (trimEnd t) := by
  induction t with
  | nil => rfl
  | cons c t ih =>
    by_cases hc : c = '\n'
    · subst hc
      have hfeed : isSpace '\n' = true := by decide
      have hreturn : isSpace '\r' = true := by decide
      simp only [crlf_feed, trimEnd_cons, ih, crlf_eq_nil_iff, hfeed, hreturn, and_true]
      by_cases hnil : trimEnd t = []
      · simp only [hnil, if_true, crlf_nil]
      · simp only [hnil, if_false, crlf_feed, reduceCtorEq]
    · simp only [crlf_cons hc, trimEnd_cons, ih, crlf_eq_nil_iff]
      split
      · rfl
      · rw [crlf_cons hc]

/-- Trimming leaves the line ends inside the text. -/
theorem trim_crlf (t : Text) : trim (Text.crlf t) = Text.crlf (trim t) := by
  rw [trim, trim, dropWhile_crlf (by decide), trimEnd_crlf]

/-- A line end of either sort only separates words. -/
theorem words_crlf (t : Text) : words (Text.crlf t) = words t := by
  suffices h : ∃ x xs ys, pieces isSpace t = x :: xs ∧ pieces isSpace (Text.crlf t) = x :: ys ∧
      ys.filter (· ≠ []) = xs.filter (· ≠ []) by
    obtain ⟨x, xs, ys, ht, hcrlf, hsame⟩ := h
    rw [words, words, ht, hcrlf, List.filter_cons, List.filter_cons, hsame]
  induction t with
  | nil => exact ⟨[], [], [], rfl, rfl, rfl⟩
  | cons c t ih =>
    obtain ⟨x, xs, ys, ht, hcrlf, hsame⟩ := ih
    by_cases hc : c = '\n'
    · subst hc
      have hpieces : pieces isSpace ('\n' :: t) = [] :: x :: xs := by
        rw [← ht]; rfl
      have hmore : pieces isSpace (Text.crlf ('\n' :: t)) = [] :: [] :: x :: ys := by
        rw [← hcrlf]; rfl
      refine ⟨[], x :: xs, [] :: x :: ys, hpieces, hmore, ?_⟩
      simp only [List.filter_cons, hsame, ne_eq, not_true_eq_false, decide_false,
        Bool.false_eq_true, if_false]
    · rw [crlf_cons hc, pieces, pieces, ht, hcrlf]
      split
      · exact ⟨[], x :: xs, x :: ys, rfl, rfl, by rw [List.filter_cons, List.filter_cons, hsame]⟩
      · exact ⟨c :: x, xs, ys, rfl, rfl, hsame⟩

end Text

/-- A delimiter change names the same pair with either sort of line ends. -/
theorem Delimiters.ofContent?_crlf (content : Text) :
    ofContent? (Text.crlf content) = ofContent? content := by
  rw [ofContent?, ofContent?, Text.words_crlf]

/-! ## Lines -/

namespace Line

/-- The line with carriage returns at the line ends. -/
def crlf (line : Line) : Line :=
  ⟨Text.crlf line.kept, Text.crlf line.indent, Text.crlf line.tail, Text.crlf line.rest⟩

variable {t lead rest : Text} {fresh : Bool}

theorem endsLine_crlf (t : Text) : endsLine (Text.crlf t) = endsLine t := by
  rcases List.eq_nil_or_concat t with rfl | ⟨t, c, rfl⟩
  · rfl
  · by_cases hc : c = '\n'
    · subst hc
      simp [endsLine]
    · simp [endsLine, Text.crlf_cons hc]

/-- The last line feed is the end of the same line. -/
theorem splitLast_crlf (t : Text) :
    splitLast (Text.crlf t) = Prod.map Text.crlf Text.crlf (splitLast t) := by
  induction t with
  | nil => rfl
  | cons c t ih =>
    by_cases hc : c = '\n'
    · subst hc
      have hreturn : ¬ '\r' = '\n' := by decide
      simp only [Text.crlf_feed, splitLast_cons, ih, Prod.map_fst, Prod.map_snd, ne_eq,
        not_true_eq_false, and_false, if_false, reduceCtorEq, false_and, Prod.map_apply]
    · simp only [Text.crlf_cons hc, splitLast_cons, ih, Prod.map_fst, Prod.map_snd,
        Text.crlf_eq_nil_iff]
      split
      · simp only [Prod.map_apply, Text.crlf_nil, Text.crlf_cons hc]
      · simp only [Prod.map_apply, Text.crlf_cons hc]

theorem indent?_crlf (fresh : Bool) (lead : Text) :
    indent? fresh (Text.crlf lead) = (indent? fresh lead).map (Prod.map Text.crlf Text.crlf) := by
  rcases hsplit : splitLast lead with ⟨lines, last⟩
  have hcrlf : splitLast (Text.crlf lead) = (Text.crlf lines, Text.crlf last) := by
    rw [splitLast_crlf, hsplit, Prod.map_apply]
  have hempty : (Text.crlf lines).isEmpty = lines.isEmpty := by
    rw [Bool.eq_iff_iff, List.isEmpty_iff, List.isEmpty_iff, Text.crlf_eq_nil_iff]
  simp only [indent?, hsplit, hcrlf, hempty, Text.all_crlf (f := Text.isBlank) (by decide)]
  split <;> rfl

/-- The rest of a line has either line end, if the text has no other carriage returns. -/
theorem restOfLine?_crlf (ht : '\r' ∉ t) :
    restOfLine? (Text.crlf t) = (restOfLine? t).map (Prod.map Text.crlf Text.crlf) := by
  have hblank : Text.isBlank '\r' = Text.isBlank '\n' := by decide
  have hreturn : '\r' ∉ t.dropWhile Text.isBlank :=
    fun h => ht ((List.dropWhile_suffix _).subset h)
  simp only [restOfLine?, Text.takeWhile_crlf hblank, Text.dropWhile_crlf hblank]
  generalize t.takeWhile Text.isBlank = blanks
  generalize t.dropWhile Text.isBlank = rest at hreturn
  cases rest with
  | nil => rfl
  | cons c rest =>
    by_cases hc : c = '\n'
    · subst hc
      simp
    · have hc' : c ≠ '\r' := by rintro rfl; exact hreturn (.head _)
      rw [Text.crlf_cons hc]
      simp [hc, hc']

theorem around?_crlf (fresh : Bool) (lead : Text) (hrest : '\r' ∉ rest) :
    around? fresh (Text.crlf lead) (Text.crlf rest) =
      (around? fresh lead rest).map crlf := by
  rw [around?, around?, indent?_crlf, restOfLine?_crlf hrest]
  cases indent? fresh lead with
  | none => rfl
  | some indent => cases restOfLine? rest <;> rfl

end Line

end Mustache
