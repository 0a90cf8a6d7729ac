import Mustache.Proofs.Mark
import Mustache.Proofs.Reader.Basic
import Mustache.Proofs.WholeLine

/-!
# Tags and lines by offsets

A reader finds the tags and the lines that the functions on texts find: `Reader.next?_eq` is
`Expression.next?` of the text ahead, `Reader.line?_eq` is `Line.around?` of the texts on either
side of a tag. Both hold at the end of any front part of a text and under any delimiters, so that no
cut on the way goes astray.
-/

namespace Mustache

namespace Text

variable {t : Text} {p : Char}

/-- The first line of a text ends at its first line feed, or it is all of the text. -/
theorem firstAt?_lineFeed (t : Text) : '\n' ∉ firstLine t ∧
    (firstAt? ['\n'] t = some (firstLine t).size ∧
        lineEnd t = firstLine t ++ ['\n'] ∨
      firstAt? ['\n'] t = none ∧ firstLine t = t ∧ lineEnd t = t) := by
  induction t with
  | nil => exact ⟨List.not_mem_nil, .inr ⟨rfl, rfl, rfl⟩⟩
  | cons c t ih =>
    by_cases hc : c = '\n'
    · subst hc
      rw [firstLine_lineFeed]
      exact ⟨List.not_mem_nil, .inl ⟨rfl, by simp [lineEnd, firstLine]⟩⟩
    · have hend : lineEnd (c :: t) = c :: lineEnd t := by
        simp [lineEnd, firstLine_cons hc, hc]
      have hat : firstAt? ['\n'] (c :: t) =
          (firstAt? ['\n'] t).map (c.utf8Size + ·) := by
        have hstrip : strip? ['\n'] (c :: t) = none := if_neg (Ne.symm hc)
        rw [firstAt?, cut?, hstrip, firstAt?, Option.map_map, Option.map_map]
        rfl
      obtain ⟨hmem, hcases⟩ := ih
      rw [hat, hend, firstLine_cons hc]
      refine ⟨List.not_mem_cons_of_ne_of_not_mem (Ne.symm hc) hmem, ?_⟩
      rcases hcases with ⟨hat, hend⟩ | ⟨hat, hline, hend⟩
      · exact .inl ⟨by rw [hat]; rfl, by rw [hend]; rfl⟩
      · exact .inr ⟨by rw [hat]; rfl, by rw [hline], by rw [hend]⟩

/-- A text that a character does not end is not stripped of it. -/
theorem stripLast_of_not_mem (h : p ∉ t) : t.stripLast p = t := by
  refine if_neg fun hlast => h ?_
  exact List.mem_of_getLast? hlast

/-- A text that a character ends is stripped of it. -/
theorem stripLast_append : stripLast p (t ++ [p]) = t := by
  simp [stripLast]

/-- A text is blank at its end if it is blank, or blank in front of a carriage return. -/
theorem blankEnd_iff : BlankEnd t ↔
    ∃ b : Text, b.all isBlank = true ∧ (t = b ∨ t = b ++ ['\r']) := by
  constructor
  · intro h
    have hsplit : t.takeWhile isBlank ++ t.dropWhile isBlank = t :=
      List.takeWhile_append_dropWhile
    refine ⟨t.takeWhile isBlank, List.all_takeWhile .., ?_⟩
    rcases h with h | h
    · rw [h, List.append_nil] at hsplit
      exact .inl hsplit.symm
    · rw [h] at hsplit
      exact .inr hsplit.symm
  · rintro ⟨b, hb, hcases⟩
    have hdrop : ∀ x, (b ++ x).dropWhile isBlank = x.dropWhile isBlank := fun x =>
      List.dropWhile_append_of_pos (List.all_eq_true.1 hb)
    rcases hcases with rfl | rfl
    · exact .inl (by simpa using hdrop [])
    · exact .inr (hdrop ['\r'])

/-- A text is blank at its end if it is blank without a carriage return there. -/
theorem all_stripLast : (t.stripLast '\r').all isBlank = true ↔ BlankEnd t := by
  rw [blankEnd_iff]
  constructor
  · intro h
    refine ⟨t.stripLast '\r', h, ?_⟩
    unfold stripLast
    split
    next hlast =>
      obtain ⟨x, rfl⟩ := List.getLast?_eq_some_iff.1 hlast
      exact .inr (by rw [List.dropLast_concat])
    next => exact .inl rfl
  · rintro ⟨b, hb, rfl | rfl⟩
    · have hmem : '\r' ∉ t := fun h => absurd (List.all_eq_true.1 hb _ h) (by decide)
      rw [stripLast_of_not_mem hmem]
      exact hb
    · rw [stripLast_append]
      exact hb

/-- The first line of a text with its line feed is in front. -/
theorem lineEnd_prefix (t : Text) : lineEnd t <+: t := by
  refine ⟨(t.dropWhile (· != '\n')).drop 1, ?_⟩
  rw [lineEnd, List.append_assoc, List.take_append_drop]
  exact List.takeWhile_append_dropWhile

/-- The first line of a text without its line feed. -/
theorem stripLast_lineEnd (t : Text) : (lineEnd t).stripLast '\n' = firstLine t := by
  obtain ⟨hmem, ⟨-, hend⟩ | ⟨-, hline, hend⟩⟩ := firstAt?_lineFeed t
  · rw [hend, stripLast_append]
  · rw [hend, stripLast_of_not_mem (hline ▸ hmem), hline]

end Text

namespace Line

variable {t lines last : Text}

/-- The last line feed of a text is the end of the lines in front of its last line. -/
theorem lastAt?_of_splitLast (h : splitLast t = (lines, last)) :
    lines = [] ∧ Text.lastAt? '\n' t = none ∨
      ∃ pos, lines ≠ [] ∧ Text.lastAt? '\n' t = some pos ∧ pos + 1 = lines.size := by
  induction t generalizing lines last with
  | nil => cases h; exact .inl ⟨rfl, rfl⟩
  | cons c t ih =>
    simp only [splitLast] at h
    split at h
    next tail hsplit =>
      have hnone : Text.lastAt? '\n' t = none := by
        rcases ih hsplit with ⟨-, hnone⟩ | ⟨_, hne, -⟩
        · exact hnone
        · exact absurd rfl hne
      rw [Text.lastAt?, hnone]
      split at h
      next hc => cases h; exact .inr ⟨0, by simp, if_pos hc, rfl⟩
      next hc => cases h; exact .inl ⟨rfl, if_neg hc⟩
    next front tail hne hsplit =>
      obtain ⟨pos, -, hpos, hsize⟩ := (ih hsplit).resolve_left fun h => hne h.1
      cases h
      rw [Text.lastAt?, hpos]
      exact .inr ⟨_, by simp, rfl, by rw [Text.size_cons, ← hsize, Nat.add_assoc]⟩

end Line

namespace Reader

variable {α : Type} {src read text lead mark rest lines last : Text} {d : Delimiters}
  {kind : Kind} {e : Expression}

/-! ## Tags -/

/-- An expression, found in a text that begins at `first`, as a reader finds it. -/
def found (first : Nat) (e : Expression) : Found :=
  ⟨e.kind, e.content, e.start first, e.stop first⟩

/-- A reader's answer to what is found in a text behind `read`. -/
def answer (read : Text) (x : Except Fault α) : Except Halt α :=
  x.mapError fun fault => .refused (fault.behind read).reason

/-- A sigil is one byte. -/
theorem size_sigil {s : Char} {announced : Kind × Text} (h : Kind.ofSigil? s = some announced) :
    s.utf8Size = 1 := by
  unfold Kind.ofSigil? at h
  split at h <;> first | rfl | cases h

/-- A tag ends with the first stop delimiter of its body. -/
theorem close_eq {opener body stop : Text} (hsrc : src = read ++ (lead ++ opener ++ body)) :
    (close src kind (read ++ lead).size (read ++ (lead ++ opener)).size stop >>=
        requireContent src) =
      answer read ((Expression.close lead opener kind stop body).map (some ∘ found read.size)) := by
  have hbody : src = read ++ (lead ++ opener) ++ body := by simp [hsrc]
  unfold close Expression.close
  rw [cut_rest hbody rfl, ok_bind, Text.firstAt?]
  cases hcut : Text.cut? stop body with
  | none => exact congrArg (· >>= requireContent src) (refuse_eq hbody rfl)
  | some parts =>
    obtain ⟨inner, rest⟩ := parts
    have hinner : body = inner ++ (stop ++ rest) := by
      rw [Text.eq_of_cut?_eq_some hcut, List.append_assoc]
    have hcontent : cut (read ++ (lead ++ opener)).size
        ((read ++ (lead ++ opener)).size + inner.size) src = .ok inner :=
      cut_eq (c := stop ++ rest) (by simp [hsrc, hinner]) rfl (Text.size_append _ _).symm
    have hstop : (read ++ (lead ++ opener)).size + inner.size + stop.size =
        (read ++ (lead ++ (opener ++ inner ++ stop))).size := by
      simp only [Text.size_append, Nat.add_assoc]
    simp only [Option.map_some, hcontent, ok_bind, hstop]
    have hmark : src = read ++ (lead ++ (opener ++ inner ++ stop)) ++ rest := by
      simp [hsrc, hinner]
    show requireContent src _ = _
    unfold requireContent
    split
    next => exact refuse_eq hmark (by simp)
    next =>
      have hfound : found read.size ⟨lead, opener ++ inner ++ stop, kind, Text.trim inner, rest⟩ =
          ⟨kind, Text.trim inner, (read ++ lead).size,
            (read ++ (lead ++ (opener ++ inner ++ stop))).size⟩ := by
        simp only [found, Expression.start, Expression.stop, Text.size_append, Nat.add_assoc]
      exact congrArg (Except.ok ∘ some) hfound.symm

/-- **The first tag.** A reader finds the first expression of the text ahead of it. -/
theorem next?_eq (hsrc : src = read ++ text) :
    next? src read.size d =
      answer read ((Expression.next? d text).map (Option.map (found read.size))) := by
  unfold next? Expression.next?
  rw [cut_rest hsrc rfl, ok_bind, Text.firstAt?]
  cases hcut : Text.cut? d.start text with
  | none => rfl
  | some parts =>
    obtain ⟨lead, after⟩ := parts
    have hbody : src = read ++ (lead ++ d.start ++ after) := by
      rw [hsrc, Text.eq_of_cut?_eq_some hcut]
    have hstart : read.size + lead.size = (read ++ lead).size := (Text.size_append _ _).symm
    have hsize : (read ++ lead).size + d.start.size = (read ++ (lead ++ d.start)).size := by
      simp only [Text.size_append, Nat.add_assoc]
    have hafter : cut (read ++ (lead ++ d.start)).size src.size src = .ok after :=
      cut_rest (by simp [hbody]) rfl
    simp only [Option.map_some, hstart, hsize, hafter, ok_bind]
    cases after with
    | nil =>
      have hall : src = read ++ text ++ [] := by rw [hsrc, List.append_nil]
      exact congrArg (· >>= requireContent src) (refuse_eq hall (by rw [hsrc]))
    | cons s body =>
      have hmap : ∀ x : Except Fault Expression,
          (x.map some).map (Option.map (found read.size)) = x.map (some ∘ found read.size) :=
        fun x => by cases x <;> rfl
      simp only
      cases hsigil : Kind.ofSigil? s with
      | none =>
        simp only [hmap]
        exact close_eq hbody
      | some announced =>
        have hopener : (read ++ (lead ++ d.start)).size + 1 =
            (read ++ (lead ++ (d.start ++ [s]))).size := by
          simp only [Text.size_append, Text.size_cons, Text.size_nil, size_sigil hsigil,
            Nat.add_assoc]
        simp only [hmap, hopener]
        exact close_eq (by simp [hbody])

/-! ## Lines -/

/-- The line of a tag begins behind the last line feed in front of the tag, or where reading went on
if a line begins there. -/
theorem lineStart?_eq (hsrc : src = read ++ (lead ++ rest))
    (hsplit : Line.splitLast lead = (lines, last)) :
    lineStart? src read.size (read ++ lead).size =
      .ok (if (Line.endsLine read || !lines.isEmpty) = true then some (read ++ lines).size
        else none) := by
  rw [lineStart?, cut_eq (c := rest) (by simp [hsrc]) rfl rfl, ok_bind]
  rcases Line.lastAt?_of_splitLast hsplit with ⟨rfl, hnone⟩ | ⟨pos, hne, hpos, hsize⟩
  · rw [hnone]
    cases hlast : read.getLast? with
    | none =>
      obtain rfl := List.getLast?_eq_none_iff.1 hlast
      rfl
    | some c =>
      have hread : read ≠ [] := by rintro rfl; cases hlast
      have hpos : ¬ read.size = 0 := Nat.ne_of_gt (Text.size_pos hread)
      simp only [if_neg hpos, cut_front hsrc rfl, ok_bind, Line.endsLine, hlast, Option.all_some,
        Option.some.injEq, List.isEmpty_nil, Bool.not_true, Bool.or_false, beq_iff_eq,
        List.append_nil]
      split <;> rfl
  · have hempty : lines.isEmpty = false := by simpa using hne
    rw [hpos, hempty, Bool.not_false, Bool.or_true, if_pos rfl, Text.size_append, ← hsize]
    rfl

/-- **The line of a tag.** A reader finds the line on which the tag stands alone. -/
theorem line?_eq (hsrc : src = read ++ (lead ++ mark ++ rest)) :
    line? src read.size (read ++ lead).size (read ++ (lead ++ mark)).size =
      .ok ((Line.around? (Line.endsLine read) lead rest).map fun line =>
        ((read ++ line.kept).size, (read ++ (lead ++ mark ++ line.tail)).size)) := by
  rcases hsplit : Line.splitLast lead with ⟨lines, last⟩
  have hlead : lead = lines ++ last := Line.splitLast_append hsplit
  rw [line?, lineStart?_eq (by simp [hsrc]; rfl) hsplit, ok_bind]
  cases hbegins : Line.endsLine read || !lines.isEmpty with
  | false => simp [Line.around?, Line.indent?, hsplit, hbegins]; rfl
  | true =>
    have hindent : cut (read ++ lines).size (read ++ lead).size src = .ok last :=
      cut_eq (c := mark ++ rest) (by simp [hsrc, hlead]) rfl (by simp [hlead])
    simp only [if_true, hindent, ok_bind]
    cases hblank : last.all Text.isBlank with
    | false => simp [Line.around?, Line.indent?, hsplit, hblank]; rfl
    | true =>
      have hkept : Line.indent? (Line.endsLine read) lead = some (lines, last) := by
        simp only [Line.indent?, hsplit, hbegins, hblank, Bool.and_self, if_true]
      have hrest : cut (read ++ (lead ++ mark)).size src.size src = .ok rest :=
        cut_rest (by simp [hsrc]) rfl
      have hstop : (Text.firstAt? ['\n'] rest).elim src.size
          ((read ++ (lead ++ mark)).size + · + 1) =
            (read ++ (lead ++ mark ++ Text.lineEnd rest)).size := by
        rcases (Text.firstAt?_lineFeed rest).2 with ⟨hat, hend⟩ | ⟨hat, -, hend⟩
        · have hfeed : Text.size ['\n'] = 1 := rfl
          simp only [hat, hend, Option.elim_some, Text.size_append, hfeed, Nat.add_assoc]
        · rw [hat, hend, hsrc, Option.elim_none]
      have htail : cut (read ++ (lead ++ mark)).size
          (read ++ (lead ++ mark ++ Text.lineEnd rest)).size src = .ok (Text.lineEnd rest) := by
        obtain ⟨after, hafter⟩ := Text.lineEnd_prefix rest
        exact cut_eq (c := after) (by simp [hsrc, hafter]) rfl (by simp)
      simp only [if_true, hrest, ok_bind, hstop, htail, Text.stripLast_lineEnd]
      have hline := Line.restOfLine?_eq (t := rest)
      by_cases hback : Text.BlankEnd (Text.firstLine rest)
      · rw [if_pos hback] at hline
        obtain ⟨after, hline⟩ := hline
        rw [if_pos (Text.all_stripLast.2 hback), Line.around?, hkept, hline]
        rfl
      · rw [if_neg hback] at hline
        rw [if_neg (mt Text.all_stripLast.1 hback), Line.around?, hkept, hline]
        rfl

/-- The literal in front of a tag and the tag with its line are those of its item. -/
theorem place_eq (hsrc : src = read ++ (e.lead ++ e.mark ++ e.rest)) :
    place src read.size (found read.size e) =
      .ok ((read ++ (Item.ofExpression (Line.endsLine read) d e).1.literal).size,
        (read ++ (Item.ofExpression (Line.endsLine read) d e).1.text).size) := by
  have hstart : e.start read.size = (read ++ e.lead).size := (Text.size_append _ _).symm
  have hstop : e.stop read.size = (read ++ (e.lead ++ e.mark)).size := by
    simp only [Expression.stop, hstart, Text.size_append, Nat.add_assoc]
  simp only [place, found, hstart, hstop, Item.ofExpression]
  cases hkind : e.kind.mayStandAlone with
  | false => simp [Item.text]; rfl
  | true =>
    rw [if_pos rfl, if_pos rfl, line?_eq hsrc, ok_bind]
    cases hline : Line.around? (Line.endsLine read) e.lead e.rest with
    | none => simp [Item.text]; rfl
    | some line =>
      obtain ⟨hlead, -⟩ := Line.around?_append hline
      simp only [Option.map_some, Option.getD_some, Item.text, hlead]
      rfl

end Reader

end Mustache
