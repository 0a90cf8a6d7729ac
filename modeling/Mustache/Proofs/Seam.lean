import Mustache.Proofs.Machine
import Mustache.Proofs.RoundTrip

/-!
# Texts one after another

A text that ends with a line and the text that follows it are scanned one after the other: the
second scan begins where a line does, under the delimiters that the first one ends with
(`Scan.ofText_append`). A start delimiter does not reach over a line feed, what is told from the
line behind a tag is settled by the line feed at the end, and what is told from the line in front of
a tag by the one that the second text begins behind.

The outlines follow each other too, if there is no fault in the first
(`Outline.ofScan_followedBy`). So the tags of two texts are the tags of the first and those of the
second, which is parsed in the state that the first parse leaves (`parse_append`).
-/

namespace Mustache

/-- Moves an error in a text behind another text. -/
def Error.behind (x : Text) : Error → Error
  | .malformed fault => .malformed (fault.behind x)
  | .notFound path => .notFound path

/-! ## Lines at the seam -/

namespace Line

variable {a b t lead rest : Text} {fresh : Bool}

/-- A text that ends with a solid one does not end with a line feed. -/
theorem endsLine_of_suffix {p : Text} (hp : Text.Solid p) (h : p <:+ t) : endsLine t = false := by
  obtain ⟨x, rfl⟩ := h
  obtain ⟨s, c, rfl⟩ : ∃ s c, p = s ++ [c] := ⟨_, _, (List.dropLast_concat_getLast hp.1).symm⟩
  have hc : Text.isSpace c = false := hp.2 c (by simp)
  have hfeed : c ≠ '\n' := by rintro rfl; exact absurd hc (by decide)
  simp [endsLine, List.getLast?_append, hfeed]

/-- Whole lines that are not empty hold a line feed. -/
theorem lineFeed_mem (hne : t ≠ []) (h : endsLine t = true) : '\n' ∈ t := by
  obtain ⟨s, c, rfl⟩ : ∃ s c, t = s ++ [c] := ⟨_, _, (List.dropLast_concat_getLast hne).symm⟩
  obtain rfl : c = '\n' := by simpa [endsLine] using h
  exact List.mem_append_right _ (.head _)

/-- Text behind whole lines is divided at its own last line feed. -/
theorem splitLast_of_endsLine (h : endsLine a = true) :
    splitLast (a ++ t) = (a ++ (splitLast t).1, (splitLast t).2) := by
  induction a with
  | nil => rfl
  | cons c a ih =>
    rw [List.cons_append, splitLast_cons]
    by_cases ha : a = []
    · subst ha
      obtain rfl : c = '\n' := by simpa [endsLine] using h
      rw [List.nil_append, if_neg fun h => h.2 rfl, List.cons_append, List.nil_append]
    · have hends : endsLine a = true := by
        rwa [← List.singleton_append, endsLine_append ha] at h
      rw [ih hends, if_neg fun h => ha (List.append_eq_nil_iff.1 h.1).1, List.cons_append]

/-- The indentation of a tag is looked for behind whole lines only. -/
theorem indent?_of_endsLine (h : endsLine a = true) (hfresh : a = [] → fresh = true) :
    indent? fresh (a ++ lead) =
      (indent? true lead).map fun (kept, indent) => (a ++ kept, indent) := by
  have hbegins : (fresh || !(a ++ (splitLast lead).1).isEmpty) = true := by
    by_cases ha : a = []
    · rw [hfresh ha, Bool.true_or]
    · simp [ha]
  simp only [indent?, splitLast_of_endsLine h, hbegins, Bool.true_or, Bool.true_and]
  split <;> rfl

/-- The rest of a line that ends in a text does not depend on what follows the text. -/
theorem restOfLine?_of_mem (h : '\n' ∈ t) :
    restOfLine? (t ++ b) = (restOfLine? t).map fun (tail, rest) => (tail, rest ++ b) := by
  have hblank : ∀ c ∈ t.takeWhile Text.isBlank, Text.isBlank c = true :=
    List.all_eq_true.1 (List.all_takeWhile ..)
  have hsplit : t.takeWhile Text.isBlank ++ t.dropWhile Text.isBlank = t :=
    List.takeWhile_append_dropWhile
  have hmem : '\n' ∈ t.dropWhile Text.isBlank := by
    rw [← hsplit] at h
    exact (List.mem_append.1 h).resolve_left fun hin => absurd (hblank _ hin) (by decide)
  obtain ⟨c, r, hr⟩ := List.exists_cons_of_ne_nil (List.ne_nil_of_mem hmem)
  have hc : Text.isBlank c = false := by
    have := List.head?_dropWhile_not Text.isBlank t
    rw [hr] at this
    simpa using this
  have hwhole : t ++ b = t.takeWhile Text.isBlank ++ (c :: (r ++ b)) := by
    conv => lhs; rw [← hsplit, hr]
    simp
  have htake : (t ++ b).takeWhile Text.isBlank = t.takeWhile Text.isBlank := by
    rw [hwhole, List.takeWhile_append_of_pos hblank, List.takeWhile_cons_of_neg (by simp [hc]),
      List.append_nil]
  have hdrop : (t ++ b).dropWhile Text.isBlank = c :: (r ++ b) := by
    rw [hwhole, List.dropWhile_append_of_pos hblank, List.dropWhile_cons_of_neg (by simp [hc])]
  rw [hr] at hmem
  simp only [restOfLine?, htake, hdrop, hr]
  by_cases hfeed : c = '\n'
  · subst hfeed; rfl
  by_cases hreturn : c = '\r'
  · subst hreturn
    cases r with
    | nil => simp at hmem
    | cons x r =>
      by_cases hx : x = '\n'
      · subst hx; rfl
      · simp [hx]
  · simp [hfeed, hreturn]

/-- The line around a tag behind whole lines begins behind them. -/
theorem around?_of_endsLine (h : endsLine a = true) (hfresh : a = [] → fresh = true) :
    around? fresh (a ++ lead) rest =
      (around? true lead rest).map fun line => { line with kept := a ++ line.kept } := by
  rw [around?, around?, indent?_of_endsLine h hfresh]
  cases indent? true lead <;> cases restOfLine? rest <;> rfl

/-- The line around a tag ends where the first line behind it does. -/
theorem around?_of_mem (h : '\n' ∈ rest) :
    around? fresh lead (rest ++ b) =
      (around? fresh lead rest).map fun line => { line with rest := line.rest ++ b } := by
  rw [around?, around?, restOfLine?_of_mem h]
  cases indent? fresh lead <;> cases restOfLine? rest <;> rfl

end Line

namespace Item

variable {a b : Text} {fresh : Bool} {d : Delimiters} {e : Expression}

/-- An item behind whole lines has them in its literal. -/
theorem ofExpression_behind (h : Line.endsLine a = true) (hfresh : a = [] → fresh = true) :
    ofExpression fresh d (e.behind a) =
      ({ (ofExpression true d e).1 with literal := a ++ (ofExpression true d e).1.literal },
        (ofExpression true d e).2) := by
  have hlead : (e.behind a).lead = a ++ e.lead := rfl
  have hrest : (e.behind a).rest = e.rest := rfl
  have hkind : (e.behind a).kind = e.kind := rfl
  unfold ofExpression
  rw [hlead, hrest, hkind, Line.around?_of_endsLine h hfresh]
  cases e.kind.mayStandAlone with
  | false => rfl
  | true =>
    simp only [if_true]
    cases Line.around? true e.lead e.rest <;> rfl

/-- An item is settled by the line behind its tag. -/
theorem ofExpression_rest (h : '\n' ∈ e.rest) :
    ofExpression fresh d { e with rest := e.rest ++ b } =
      ((ofExpression fresh d e).1, (ofExpression fresh d e).2 ++ b) := by
  unfold ofExpression
  simp only [Line.around?_of_mem h]
  cases e.kind.mayStandAlone with
  | false => rfl
  | true =>
    simp only [if_true]
    cases Line.around? fresh e.lead e.rest <;> rfl

end Item

/-! ## Scans at the seam -/

namespace Scan

/-- A scan and the scan of what follows its text. -/
def followedBy : Scan → Scan → Scan
  | .tag i rest, next => .tag i (rest.followedBy next)
  | .done t, next => next.behind t
  | .faulty fault, _ => .faulty fault

/-- The delimiters in effect at the end of a scan that begins under `d`. -/
def final (d : Delimiters) : Scan → Delimiters
  | .tag i next => next.final (i.after?.getD d)
  | .done _ | .faulty _ => d

variable {a b : Text} {fresh : Bool} {d : Delimiters} {e : Expression} {s : Scan}

/-- What vanishes in a scan does not change its delimiters. -/
theorem final_untrim (s : Scan) (w : Text) : (s.untrim w).final d = s.final d := by
  induction s generalizing w d with
  | tag i next ih => rw [untrim, final, final, ih, Item.after?_untrim]
  | done | faulty => rfl

/-- Nor does it add a fault. -/
theorem fault?_untrim (s : Scan) (w : Text) : (s.untrim w).fault? = none ↔ s.fault? = none := by
  induction s generalizing w with
  | tag i next ih => exact ih i.tail
  | done => rfl
  | faulty => simp [untrim, fault?]

/-- The scan of a text ends under the delimiters that its flat scan ends under. -/
theorem final_ofText (hd : d.Solid) : (ofText fresh d a).final d = (flat d a).final d := by
  have huntrim : (ofText fresh d a).untrim [] = flat d a := untrim_ofText hd Text.white_nil
  rw [← huntrim, final_untrim]

/-- There is no fault in the scan of a text if there is none in its flat scan. -/
theorem fault?_ofText (hd : d.Solid) :
    (ofText fresh d a).fault? = none ↔ (flat d a).fault? = none := by
  have huntrim : (ofText fresh d a).untrim [] = flat d a := untrim_ofText hd Text.white_nil
  rw [← huntrim, fault?_untrim]

/-- A scan behind whole lines in which no tag begins. -/
theorem ofText_behind (hd : d.Solid) (h : Line.endsLine a = true) (hfresh : a = [] → fresh = true)
    (hnone : Expression.next? d a = .ok none) :
    ofText fresh d (a ++ b) = (ofText true d b).behind a := by
  have hpasses : Text.Passes d.start a b := by
    rcases List.eq_nil_or_concat a with rfl | ⟨x, c, rfl⟩
    · exact Text.passes_white hd.1 Text.white_nil
    · rw [List.concat_eq_append] at h hnone ⊢
      obtain rfl : c = '\n' := by simpa [Line.endsLine] using h
      refine Text.passes_space hd.1 (by decide) fun hin => ?_
      exact Expression.next?_eq_none_iff.1 hnone (hin.trans (List.prefix_append _ _).isInfix)
  have happ := Expression.next?_append hpasses
  cases hnext : Expression.next? d b with
  | error fault =>
    rw [hnext] at happ
    rw [ofText_of_error hnext, ofText_of_error happ]
    rfl
  | ok found =>
    rw [hnext] at happ
    cases found with
    | none =>
      rw [ofText_of_none hnext, ofText_of_none happ]
      rfl
    | some e =>
      rw [ofText_of_some hnext, ofText_of_some happ, Item.ofExpression_behind h hfresh]
      have hafter : Item.after? { (Item.ofExpression true d e).1 with
          literal := a ++ (Item.ofExpression true d e).1.literal } =
            (Item.ofExpression true d e).1.after? := rfl
      rw [hafter]
      cases (Item.ofExpression true d e).1.after? with
      | none => simp only [behind, Fault.behind, Item.before, List.append_assoc]
      | some d' => rfl

/-- A line feed stands behind every tag in whole lines: the tag does not end with one. -/
theorem lineFeed_mem_rest (hd : d.Solid) (h : Line.endsLine a = true)
    (hnext : Expression.next? d a = .ok (some e)) : '\n' ∈ e.rest := by
  obtain ⟨-, hmark, htext⟩ := Expression.next?_eq_some_iff.1 hnext
  have hrest : e.rest ≠ [] := fun hnil => by
    rw [htext, hnil, List.append_nil, Line.endsLine_append (Expression.mark_ne_nil hnext),
      Line.endsLine_of_suffix hd.2 hmark.ends] at h
    cases h
  rw [htext, Line.endsLine_append hrest] at h
  exact Line.lineFeed_mem hrest h

/-- Whole lines follow an item in whole lines, and it ends with a line if nothing follows it. -/
theorem endsLine_ofExpression (fresh : Bool) (h : Line.endsLine a = true)
    (hnext : Expression.next? d a = .ok (some e)) :
    Line.endsLine (Item.ofExpression fresh d e).2 = true ∧
      ((Item.ofExpression fresh d e).2 = [] → Line.endsLine
        ((Item.ofExpression fresh d e).1.mark ++ (Item.ofExpression fresh d e).1.tail) = true) := by
  obtain ⟨literal, indent, tail, rest, hitem, hlead, hrest, -⟩ := Item.ofExpression_spec fresh d e
  have htext : a = literal ++ indent ++ (e.mark ++ tail) ++ rest := by
    rw [Expression.eq_of_next? hnext, hlead, hrest]
    simp only [List.append_assoc]
  have hmark : e.mark ++ tail ≠ [] := fun hnil =>
    Expression.mark_ne_nil hnext (List.append_eq_nil_iff.1 hnil).1
  rw [hitem]
  constructor
  · by_cases hnil : rest = []
    · rw [hnil]; rfl
    · rwa [htext, Line.endsLine_append hnil] at h
  · rintro rfl
    rwa [htext, List.append_nil, Line.endsLine_append hmark] at h

/-- **Texts are scanned one after the other.** Behind whole lines that are scanned without a fault
the scan goes on as if the text began there, under the delimiters that they end with. -/
theorem ofText_append (hd : d.Solid) (h : Line.endsLine a = true) (hfresh : a = [] → fresh = true)
    (hfault : (ofText fresh d a).fault? = none) :
    ofText fresh d (a ++ b) =
      (ofText fresh d a).followedBy (ofText true ((ofText fresh d a).final d) b) := by
  fun_induction ofText fresh d a with
  | case1 => cases hfault
  | case2 fresh d a hnext => exact ofText_behind hd h hfresh hnext
  | case3 => cases hfault
  | case4 fresh d a e hnext item d' hafter ih =>
    have hfeed : '\n' ∈ e.rest := lineFeed_mem_rest hd h hnext
    have hnext' : Expression.next? d (a ++ b) = .ok (some { e with rest := e.rest ++ b }) := by
      have := Expression.next?_rest hnext (e.rest ++ b)
      rwa [← List.append_assoc, ← Expression.eq_of_next? hnext] at this
    obtain ⟨hends, hbegins⟩ := endsLine_ofExpression fresh h hnext
    have hd' : d'.Solid := Item.solid_of_after? (Item.delimiters_ofExpression fresh d e ▸ hd) hafter
    rw [ofText_of_some hnext', Item.ofExpression_rest hfeed, hafter, followedBy, final, hafter]
    exact congrArg _ (ih hd' hends hbegins hfault)

end Scan

/-! ## Tags at the seam -/

namespace Tag

/-- Tags and the tags that follow them. Two literals that meet become one. -/
def concat : List Tag → List Tag → List Tag
  | [], us => us
  | [.literal x], us => consLiteral x us
  | t :: ts, us => t :: concat ts us

variable {t : Tag} {ts us : List Tag} {x : Text}

/-- Text in front of tags stays in front when more tags follow them. -/
theorem joinList_consLiteral :
    joinList (consLiteral x ts) us = consLiteral x (joinList ts us) := by
  rcases literal_or_head ts with ⟨t, vs, rfl⟩ | hhead
  · exact consLiteral_append
  · rw [consLiteral_of_head hhead]
    split
    next hx =>
      subst hx
      rcases literal_or_head (joinList ts us) with ⟨t, vs, hjoin⟩ | hhead'
      · rw [hjoin]; rfl
      · rw [consLiteral_of_head hhead', if_pos rfl]
    next => rfl

/-- A tag that is no literal stays in front when more tags follow. -/
theorem joinList_cons (h : t.isLiteral = false) : joinList (t :: ts) us = t :: joinList ts us := by
  cases t with
  | literal => cases h
  | _ => rfl

/-- Such a tag has no part in what becomes of the seam. -/
theorem concat_cons (h : t.isLiteral = false) : concat (t :: ts) us = t :: concat ts us := by
  cases t with
  | literal => cases h
  | _ => rfl

/-- If no literals in the first tags are neighbours, only those at the seam are joined. -/
theorem joinList_eq_concat (ht : NormalList ts) : joinList ts us = concat ts us := by
  induction ts with
  | nil => rfl
  | cons t ts ih =>
    obtain ⟨hfirst, hnext, hts⟩ := ht
    have hrest : joinList ts us = concat ts us := ih hts
    cases hlit : t.isLiteral with
    | false => rw [joinList_cons hlit, hrest, concat_cons hlit]
    | true =>
      cases t with
      | literal x =>
        cases ts with
        | nil => rfl
        | cons u vs =>
          have hu : u.isLiteral = false := hnext rfl u rfl
          have hjoin : joinList (.literal x :: u :: vs) us =
              consLiteral x (joinList (u :: vs) us) := rfl
          have hconcat : concat (.literal x :: u :: vs) us =
              .literal x :: concat (u :: vs) us := rfl
          rw [hjoin, hconcat, hrest, concat_cons hu, consLiteral_of_head (by simpa using hu),
            if_neg hfirst]
      | _ => cases hlit

/-- The places of partials in joined tags. -/
theorem inclusionsList_joinList :
    inclusionsList (joinList ts us) = inclusionsList ts ++ inclusionsList us := by
  induction ts with
  | nil => rfl
  | cons t ts ih =>
    have hcons : joinList (t :: ts) us = join t (joinList ts us) := rfl
    rw [hcons, inclusionsList, List.append_assoc, ← ih]
    cases t with
    | literal x => exact inclusionsList_consLiteral
    | _ => rfl

end Tag

namespace Outline

/-- An outline and the outline of what follows its text. The tags of the last part go on with those
of the first part of the other. -/
def followedBy : Outline → Outline → Outline
  | .ended tags source, next => next.push source (Tag.joinList tags)
  | .closed tags source close rest, next => .closed tags source close (rest.followedBy next)
  | .faulty fault, _ => .faulty fault

/-- There is no fault in an outline. -/
def Sound : Outline → Prop
  | .ended .. => True
  | .closed _ _ _ next => next.Sound
  | .faulty _ => False

variable {o o' next : Outline} {r : Text} {add : List Tag → List Tag} {i : Item} {s : Scan}

theorem EqUpToCloses.refl (o : Outline) : EqUpToCloses o o := by
  induction o with
  | ended => exact .ended
  | closed _ _ _ _ ih => exact .closed rfl rfl rfl ih
  | faulty => exact .faulty

/-- Outlines that are the same up to close tags are so behind an open tag. -/
theorem EqUpToCloses.consSection (h : EqUpToCloses o o') :
    EqUpToCloses (o.consSection i) (o'.consSection i) := by
  cases h with
  | ended => exact .refl _
  | faulty => exact .refl _
  | closed hcontent hmark htail hnext =>
    rw [Outline.consSection, Outline.consSection, hcontent, hmark, htail]
    split
    · exact hnext.push
    · exact .faulty

/-- Outlines that are the same up to close tags are so behind an item. -/
theorem EqUpToCloses.cons (h : EqUpToCloses o o') : EqUpToCloses (cons i o) (cons i o') := by
  unfold Outline.cons
  cases i.kind with
  | escaped | raw | inclusion | comment | change => exact h.push
  | closing => exact .closed rfl rfl rfl h
  | opening | inverted => exact h.consSection

/-- Outlines that are the same up to close tags are complete with the same tags. -/
theorem EqUpToCloses.complete_eq (h : EqUpToCloses o o') : o.complete = o'.complete := by
  cases h with
  | ended | faulty => rfl
  | closed hcontent => rw [complete, complete, hcontent]

/-- Text and tags in front of an outline bring no fault in. -/
theorem sound_push : (o.push r add).Sound ↔ o.Sound := by
  cases o <;> rfl

/-- What stands behind an open tag has no fault if there is none with the tag in front. -/
theorem Sound.of_consSection (h : (o.consSection i).Sound) : o.Sound := by
  cases o with
  | ended => trivial
  | faulty => exact h
  | closed children source close next =>
    rw [consSection] at h
    split at h
    · show next.Sound
      exact sound_push.1 h
    · cases h

/-- What stands behind an item has no fault if there is none with the item in front. -/
theorem Sound.of_cons (h : (cons i o).Sound) : o.Sound := by
  unfold cons at h
  cases hkind : i.kind with
  | escaped | raw | inclusion | comment | change => rw [hkind] at h; exact sound_push.1 h
  | closing => rw [hkind] at h; exact h
  | opening | inverted => rw [hkind] at h; exact h.of_consSection

/-- There is no fault in a scan if there is none in its outline. -/
theorem Sound.fault?_eq_none (h : (ofScan s).Sound) : s.fault? = none := by
  induction s with
  | tag i next ih => exact ih h.of_cons
  | done => rfl
  | faulty => cases h

/-- Text and tags in front of an outline stay in front of all that follows. -/
theorem push_followedBy (hadd : ∀ ts us, Tag.joinList (add ts) us = add (Tag.joinList ts us)) :
    (o.push r add).followedBy next = (o.followedBy next).push r add := by
  cases o with
  | ended tags source =>
    rw [push, followedBy, followedBy, push_push]
    congr 1
    exact funext fun us => hadd tags us
  | closed => rfl
  | faulty => rfl

/-- Nor does an open tag see what follows the outline in which it is closed. -/
theorem consSection_followedBy (h : (o.consSection i).Sound) :
    (o.followedBy next).consSection i = (o.consSection i).followedBy next := by
  cases o with
  | ended => cases h
  | faulty => cases h
  | closed children source close rest =>
    rw [consSection] at h
    rw [followedBy, consSection, consSection]
    split
    next =>
      refine (push_followedBy fun ts us => ?_).symm
      rw [Tag.joinList_consLiteral, Tag.joinList_cons]
      unfold sectionTag
      split <;> rfl
    next hkey =>
      rw [if_neg hkey] at h
      cases h

/-- An item in front of an outline stays in front of all that follows. -/
theorem cons_followedBy (h : (cons i o).Sound) :
    cons i (o.followedBy next) = (cons i o).followedBy next := by
  have hvalue : ∀ t : Tag, t.isLiteral = false →
      (o.followedBy next).push i.text (fun tags => Tag.consLiteral i.literal (t :: tags)) =
        (o.push i.text fun tags => Tag.consLiteral i.literal (t :: tags)).followedBy next :=
    fun t ht => (push_followedBy fun ts us => by
      rw [Tag.joinList_consLiteral, Tag.joinList_cons ht]).symm
  have hnothing : (o.followedBy next).push i.text (Tag.consLiteral i.literal) =
      (o.push i.text (Tag.consLiteral i.literal)).followedBy next :=
    (push_followedBy fun _ _ => Tag.joinList_consLiteral).symm
  unfold cons at h ⊢
  cases hkind : i.kind with
  | escaped | raw | inclusion => exact hvalue _ rfl
  | comment | change => exact hnothing
  | closing => rfl
  | opening | inverted => rw [hkind] at h; exact consSection_followedBy h

/-- **Outlines of texts one after another.** What follows a scan follows its outline, if that has no
fault. -/
theorem ofScan_followedBy (h : (ofScan s).Sound) (next : Scan) :
    EqUpToCloses (ofScan (s.followedBy next)) ((ofScan s).followedBy (ofScan next)) := by
  induction s with
  | tag i rest ih =>
    have hrest := (ih h.of_cons).cons (i := i)
    rwa [cons_followedBy h] at hrest
  | done t =>
    have hjoin : Tag.joinList (Tag.consLiteral t []) = Tag.consLiteral t :=
      funext fun us => Tag.joinList_consLiteral
    rw [Scan.followedBy, ofScan, followedBy, hjoin]
    exact (EqUpToCloses.refl _).behind
  | faulty => cases h

/-- An outline without a fault holds all the text of the item in front of it and of what follows. -/
theorem text_cons_of_sound (h : (cons i o).Sound) : (cons i o).text = i.text ++ o.text := by
  have hsection : (o.consSection i).Sound → (o.consSection i).text = i.text ++ o.text := by
    intro h
    cases o with
    | ended => cases h
    | faulty => cases h
    | closed children source close next =>
      rw [consSection] at h ⊢
      split
      next => simp only [text_push, text, Item.text, Item.before, List.append_assoc]
      next hkey =>
        rw [if_neg hkey] at h
        cases h
  unfold cons at h ⊢
  cases hkind : i.kind with
  | escaped | raw | inclusion | comment | change => exact text_push
  | closing => simp only [text, Item.text, Item.before, List.append_assoc]
  | opening | inverted => rw [hkind] at h; exact hsection h

/-- An outline without a fault holds all the text of its scan. -/
theorem Sound.text_eq (h : (ofScan s).Sound) : (ofScan s).text = s.text := by
  induction s with
  | tag i next ih =>
    have hcons : (ofScan (.tag i next)).text = i.text ++ (ofScan next).text := text_cons_of_sound h
    rw [hcons, ih h.of_cons, Scan.text]
  | done => rfl
  | faulty => cases h

/-- What an outline says behind texts and tags. -/
theorem complete_push :
    (o.push r add).complete = (o.complete.map add).mapError (Error.behind r) := by
  cases o <;> rfl

end Outline

section Results

variable {state left : ParseState} {a : Text} {tags : List Tag}

/-- The outline of a text that is parsed is one part, which holds all of the text. -/
theorem ended_of_parseTags {d : Delimiters} (h : parseTags d a = .ok tags) :
    (Outline.ofScan (Scan.ofText true d a)).Sound ∧
      Outline.ofScan (Scan.ofText true d a) = .ended tags a := by
  obtain ⟨source, hended⟩ := Outline.complete_eq_ok_iff.1 h
  have hsound : (Outline.ofScan (Scan.ofText true d a)).Sound := by rw [hended]; trivial
  have hsource : source = a := by
    have htext := hsound.text_eq
    rwa [hended, Scan.text_ofText hsound.fault?_eq_none] at htext
  exact ⟨hsound, hsource ▸ hended⟩

/-- A text behind whole lines that are parsed by themselves is scanned under the delimiters that
they end with. -/
theorem ofText_append_of_parseTags {d : Delimiters} (hd : d.Solid) (ha : Line.endsLine a = true)
    (h : parseTags d a = .ok tags) (b : Text) :
    Scan.ofText true d (a ++ b) = (Scan.ofText true d a).followedBy
      (Scan.ofText true ((Scan.flat d a).final d) b) := by
  obtain ⟨hsound, -⟩ := ended_of_parseTags h
  rw [Scan.ofText_append hd ha (fun _ => rfl) hsound.fault?_eq_none, Scan.final_ofText hd]

/-- The tags of whole lines and of the text that follows them. -/
theorem parseTags_append {d : Delimiters} (hd : d.Solid) (ha : Line.endsLine a = true)
    (h : parseTags d a = .ok tags) (b : Text) :
    parseTags d (a ++ b) = ((parseTags ((Scan.flat d a).final d) b).map
      (Tag.joinList tags)).mapError (Error.behind a) := by
  obtain ⟨hsound, hended⟩ := ended_of_parseTags h
  have hsame := Outline.ofScan_followedBy hsound (Scan.ofText true ((Scan.flat d a).final d) b)
  rw [← ofText_append_of_parseTags hd ha h, hended] at hsame
  exact hsame.complete_eq.trans Outline.complete_push

/-- **Texts are parsed one after the other.** Behind whole lines that are parsed by themselves, a
text is parsed under the delimiters and with the names that they leave. Its tags follow theirs, and
it is refused where it is refused by itself, behind them. -/
theorem parse_append (hd : state.delimiters.Solid) (ha : Line.endsLine a = true)
    (h : parse state a = .ok (tags, left)) (b : Text) :
    parse state (a ++ b) =
      ((parse ⟨(Scan.flat state.delimiters a).final state.delimiters, left.names⟩ b).map
        fun (more, final) => (Tag.concat tags more, final)).mapError (Error.behind a) := by
  obtain ⟨htags, rfl⟩ := parse_eq_ok_iff.1 h
  obtain ⟨source, hended⟩ := Outline.complete_eq_ok_iff.1 htags
  have hnormal : Tag.NormalList tags := by
    have hall := Outline.normal_ofScan (Scan.ofText true state.delimiters a)
    rwa [hended] at hall
  have hnames : ∀ new more, addNames state.names (new ++ more) =
      addNames (addNames state.names new) more := fun new more => List.foldl_append
  unfold parse
  rw [parseTags_append hd ha htags]
  cases parseTags ((Scan.flat state.delimiters a).final state.delimiters) b with
  | error => rfl
  | ok more =>
    have hjoin : Tag.joinList tags more = Tag.concat tags more := Tag.joinList_eq_concat hnormal
    have hmore : Tag.inclusionsList (Tag.concat tags more) =
        Tag.inclusionsList tags ++ Tag.inclusionsList more := by
      rw [← hjoin, Tag.inclusionsList_joinList]
    simp only [Except.map, Except.mapError, hjoin, hmore, hnames]

/-- Delimiters that change in the first text, on a line of its own, and literals that meet. -/
theorem parse_append_change :
    parse {} ("a\n{{>p}}\n {{=<% %>=}}\nb\n".toList ++ "c\n<%#s%>\n<%>q%><%>p%><%/s%>".toList) =
      .ok ([.literal "a\n".toList, .inclusion ['p'], .literal "b\nc\n".toList,
        .block ['s'] "\n<%>q%><%>p%>".toList ⟨"<%".toList, "%>".toList⟩
          [.inclusion ['q'], .inclusion ['p']]], ⟨{}, [['p'], ['q']]⟩) := by
  have hfirst : parse {} "a\n{{>p}}\n {{=<% %>=}}\nb\n".toList =
      .ok ([.literal "a\n".toList, .inclusion ['p'], .literal "b\n".toList], ⟨{}, [['p']]⟩) := by
    decide +kernel
  rw [parse_append (by decide) (by decide) hfirst]
  decide +kernel

end Results

end Mustache
