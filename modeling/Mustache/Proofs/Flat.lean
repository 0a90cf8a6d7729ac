import Mustache.Scan
import Mustache.Proofs.Mark

/-!
# The flat scan

`Scan.flat` takes the tags of a text one after another, each searched from the end of the one
before it, and lets no line vanish: its items have an empty indentation and an empty tail.
`Scan.ofText` goes on behind the line that vanishes with a tag. For solid delimiters this is the
same run of tags: what vanishes is white space, which no tag begins in, so that the scan becomes
the flat one when it is given back (`Scan.untrim_ofText`).
-/

namespace Mustache

namespace Text

/-- The characters that may vanish with the line of a tag. -/
def isPadding (c : Char) : Bool :=
  isBlank c || c == '\r' || c == '\n'

/-- A text of characters that may vanish with the line of a tag. -/
def Padding (w : Text) : Prop :=
  ∀ c ∈ w, isPadding c = true

instance (w : Text) : Decidable (Padding w) :=
  List.decidableBAll _ w

/-- The empty text is padding. -/
theorem padding_nil : Padding [] := nofun

/-- What may vanish is white space. -/
theorem Padding.white {w : Text} (h : Padding w) : White w := by
  intro c hc
  have hpad := h c hc
  simp only [isPadding, Bool.or_eq_true, beq_iff_eq] at hpad
  rcases hpad with (hblank | rfl) | rfl
  · exact isSpace_of_isBlank hblank
  · decide
  · decide

/-- Blanks may vanish. -/
theorem padding_of_all_isBlank {w : Text} (h : w.all isBlank = true) : Padding w := by
  intro c hc
  simp [isPadding, List.all_eq_true.1 h c hc]

end Text

namespace Line

variable {t kept indent tail rest : Text} {fresh : Bool}

/-- The indentation of a tag that stands alone is made of blanks. -/
theorem padding_of_indent? (h : indent? fresh t = some (kept, indent)) : Text.Padding indent := by
  simp only [indent?] at h
  split at h
  next hblank =>
    cases h
    exact Text.padding_of_all_isBlank (Bool.and_eq_true_iff.1 hblank).2
  next => cases h

/-- The rest of the line of a tag that stands alone is made of blanks and the end of the line. -/
theorem padding_of_restOfLine? (h : restOfLine? t = some (tail, rest)) : Text.Padding tail := by
  have hblank : Text.Padding (t.takeWhile Text.isBlank) :=
    Text.padding_of_all_isBlank (List.all_takeWhile ..)
  have happend : ∀ {e : Text}, Text.Padding e → Text.Padding (t.takeWhile Text.isBlank ++ e) :=
    fun he c hc => (List.mem_append.1 hc).elim (hblank c) (he c)
  simp only [restOfLine?] at h
  split at h
  next => cases h; exact hblank
  next => cases h; exact happend (by decide)
  next => cases h; exact happend (by decide)
  next => cases h; exact happend (by decide)
  next => cases h

end Line

namespace Item

/-- Gives back what vanishes around a tag, to a tag in front of which `w` has vanished. -/
def untrim (w : Text) (i : Item) : Item :=
  ⟨w ++ i.before, [], i.mark, [], i.kind, i.content, i.delimiters⟩

/-- The item that an expression is if no line vanishes. -/
def ofFlat (d : Delimiters) (e : Expression) : Item :=
  ⟨e.lead, [], e.mark, [], e.kind, e.content, d⟩

/-- An item is the tag of its expression, with padding cut off the text on either side. -/
theorem ofExpression_spec (fresh : Bool) (d : Delimiters) (e : Expression) :
    ∃ literal indent tail rest, ofExpression fresh d e =
        (⟨literal, indent, e.mark, tail, e.kind, e.content, d⟩, rest) ∧
      e.lead = literal ++ indent ∧ e.rest = tail ++ rest ∧
      Text.Padding indent ∧ Text.Padding tail := by
  unfold ofExpression
  split
  next line hline =>
    split at hline
    · obtain ⟨hlead, hrest⟩ := Line.around?_append hline
      refine ⟨_, _, _, _, rfl, hlead, hrest, ?_⟩
      simp only [Line.around?] at hline
      split at hline
      next hindent htail =>
        cases hline
        exact ⟨Line.padding_of_indent? hindent, Line.padding_of_restOfLine? htail⟩
      next => cases hline
    · cases hline
  next =>
    exact ⟨e.lead, [], [], e.rest, rfl, (List.append_nil _).symm, rfl, Text.padding_nil,
      Text.padding_nil⟩

/-- An item with what vanishes around its tag is the expression that was found. -/
theorem untrim_ofExpression (fresh : Bool) (d : Delimiters) (e : Expression) (w : Text) :
    (ofExpression fresh d e).1.untrim w = ofFlat d (e.behind w) := by
  obtain ⟨literal, indent, tail, rest, hitem, hlead, -⟩ := ofExpression_spec fresh d e
  rw [hitem]
  simp only [untrim, before, ofFlat, Expression.behind, hlead]

/-- The end of the line that vanishes with a tag and what follows it are what follows the tag. -/
theorem tail_append_rest (fresh : Bool) (d : Delimiters) (e : Expression) :
    (ofExpression fresh d e).1.tail ++ (ofExpression fresh d e).2 = e.rest := by
  obtain ⟨literal, indent, tail, rest, hitem, -, hrest, -⟩ := ofExpression_spec fresh d e
  rw [hitem, hrest]

/-- What vanishes around a tag is padding. -/
theorem padding_ofExpression (fresh : Bool) (d : Delimiters) (e : Expression) :
    Text.Padding (ofExpression fresh d e).1.indent ∧
      Text.Padding (ofExpression fresh d e).1.tail := by
  obtain ⟨literal, indent, tail, rest, hitem, -, -, hpadding⟩ := ofExpression_spec fresh d e
  rw [hitem]
  exact hpadding

/-- An item goes by the delimiters that its expression was found under. -/
theorem delimiters_ofExpression (fresh : Bool) (d : Delimiters) (e : Expression) :
    (ofExpression fresh d e).1.delimiters = d := by
  obtain ⟨literal, indent, tail, rest, hitem, -⟩ := ofExpression_spec fresh d e
  rw [hitem]

/-- A line that vanishes does not change the delimiters. -/
theorem after?_ofExpression (fresh : Bool) (d : Delimiters) (e : Expression) :
    (ofExpression fresh d e).1.after? = (ofFlat d e).after? := by
  obtain ⟨literal, indent, tail, rest, hitem, -⟩ := ofExpression_spec fresh d e
  rw [hitem]
  rfl

@[simp] theorem after?_untrim (w : Text) (i : Item) : (i.untrim w).after? = i.after? := rfl

/-- A tag leaves solid delimiters behind if it is written with such. -/
theorem solid_of_after? {i : Item} {d : Delimiters} (hi : i.delimiters.Solid)
    (h : i.after? = some d) : d.Solid := by
  unfold after? at h
  split at h
  · exact Delimiters.solid_of_ofContent? h
  · cases h; exact hi

end Item

namespace Scan

/-- The scan of a text in which no line vanishes. -/
def flat (d : Delimiters) (text : Text) : Scan :=
  match _found : Expression.next? d text with
  | .error fault => .faulty fault
  | .ok none => .done text
  | .ok (some e) =>
    match (Item.ofFlat d e).after? with
    | none => .faulty ⟨.invalidDelimiters e.content, e.lead ++ e.mark⟩
    | some d' => .tag (Item.ofFlat d e) (flat d' e.rest)
termination_by text.length
decreasing_by exact Expression.rest_length_lt _found

variable {fresh : Bool} {d d' : Delimiters} {text w : Text} {fault : Fault} {e : Expression}

theorem flat_of_error (h : Expression.next? d text = .error fault) :
    flat d text = .faulty fault := by
  rw [flat]
  split
  next hnext => rw [h] at hnext; cases hnext; rfl
  next hnext => rw [h] at hnext; cases hnext
  next hnext => rw [h] at hnext; cases hnext

theorem flat_of_none (h : Expression.next? d text = .ok none) : flat d text = .done text := by
  rw [flat]
  split
  next hnext => rw [h] at hnext; cases hnext
  next => rfl
  next hnext => rw [h] at hnext; cases hnext

theorem flat_of_some (h : Expression.next? d text = .ok (some e)) :
    flat d text = match (Item.ofFlat d e).after? with
      | none => .faulty ⟨.invalidDelimiters e.content, e.lead ++ e.mark⟩
      | some d' => .tag (Item.ofFlat d e) (flat d' e.rest) := by
  rw [flat]
  split
  next hnext => rw [h] at hnext; cases hnext
  next hnext => rw [h] at hnext; cases hnext
  next hnext => rw [h] at hnext; cases hnext; rfl

theorem ofText_of_error (h : Expression.next? d text = .error fault) :
    ofText fresh d text = .faulty fault := by
  rw [ofText]
  split
  next hnext => rw [h] at hnext; cases hnext; rfl
  next hnext => rw [h] at hnext; cases hnext
  next hnext => rw [h] at hnext; cases hnext

theorem ofText_of_none (h : Expression.next? d text = .ok none) :
    ofText fresh d text = .done text := by
  rw [ofText]
  split
  next hnext => rw [h] at hnext; cases hnext
  next => rfl
  next hnext => rw [h] at hnext; cases hnext

theorem ofText_of_some (h : Expression.next? d text = .ok (some e)) :
    ofText fresh d text = match (Item.ofExpression fresh d e).1.after? with
      | none => .faulty ⟨.invalidDelimiters (Item.ofExpression fresh d e).1.content,
          (Item.ofExpression fresh d e).1.before ++ (Item.ofExpression fresh d e).1.mark⟩
      | some d' => .tag (Item.ofExpression fresh d e).1
          (ofText (Line.endsLine ((Item.ofExpression fresh d e).1.mark ++
            (Item.ofExpression fresh d e).1.tail)) d' (Item.ofExpression fresh d e).2) := by
  rw [ofText]
  split
  next hnext => rw [h] at hnext; cases hnext
  next hnext => rw [h] at hnext; cases hnext
  next hnext => rw [h] at hnext; cases hnext; rfl

/-- A flat scan holds the text that it is made of, as far as it is read. -/
theorem text_flat : (flat d text).text <+: text := by
  fun_induction flat d text with
  | case1 d text fault hnext => exact Expression.read_of_next? hnext
  | case2 => exact List.prefix_rfl
  | case3 d text e hnext hafter =>
    rw [Expression.eq_of_next? hnext]
    exact List.prefix_append _ _
  | case4 d text e hnext d' hafter ih =>
    have hitem : (Item.ofFlat d e).text = e.lead ++ e.mark := by
      simp only [Item.text, Item.ofFlat, List.append_nil]
    obtain ⟨rest, hrest⟩ := ih
    refine ⟨rest, ?_⟩
    rw [Scan.text, hitem, List.append_assoc, hrest, ← Expression.eq_of_next? hnext]

/-- Gives back what vanishes in a scan in front of which `w` has vanished. -/
def untrim (w : Text) : Scan → Scan
  | .tag i next => .tag (i.untrim w) (next.untrim i.tail)
  | .done t => .done (w ++ t)
  | .faulty fault => .faulty (fault.behind w)

/-- What vanishes in a scan is padding. -/
def Padded (s : Scan) : Prop :=
  ∀ i ∈ s.items, Text.Padding i.indent ∧ Text.Padding i.tail

/-- What vanishes in the scan of a text is padding. -/
theorem padded_ofText (fresh : Bool) (d : Delimiters) (text : Text) :
    (ofText fresh d text).Padded := by
  fun_induction ofText fresh d text with
  | case1 | case2 | case3 => exact fun i hi => absurd hi List.not_mem_nil
  | case4 fresh d text e he item d' hd' ih =>
    intro i hi
    rcases List.mem_cons.1 hi with rfl | hi
    · exact Item.padding_ofExpression fresh d e
    · exact ih i hi

/-- **The trimmed scan is the flat one.** Once what vanished is given back, the scan of a text is
its flat scan: no tag begins in what vanishes. -/
theorem untrim_ofText (hd : d.Solid) (hw : Text.White w) :
    (ofText fresh d text).untrim w = flat d (w ++ text) := by
  revert w
  fun_induction ofText fresh d text with
  | case1 fresh d text fault hnext =>
    intro w hw
    have happ := Expression.next?_append (Text.passes_white hd.1 hw (t := text))
    rw [hnext] at happ
    exact (flat_of_error happ).symm
  | case2 fresh d text hnext =>
    intro w hw
    have happ := Expression.next?_append (Text.passes_white hd.1 hw (t := text))
    rw [hnext] at happ
    exact (flat_of_none happ).symm
  | case3 fresh d text e hnext item =>
    rename_i hafter
    intro w hw
    have happ := Expression.next?_append (Text.passes_white hd.1 hw (t := text))
    rw [hnext] at happ
    have hitem : item.untrim w = Item.ofFlat d (e.behind w) := Item.untrim_ofExpression ..
    rw [flat_of_some happ, ← hitem, Item.after?_untrim, hafter]
    simp only [Item.untrim, Item.ofFlat, Item.mk.injEq] at hitem
    obtain ⟨hlead, -, hmark, -, -, hcontent, -⟩ := hitem
    rw [← hlead, ← hmark, ← hcontent]
    simp only [untrim, Fault.behind, List.append_assoc]
  | case4 fresh d text e hnext item d' hafter =>
    rename_i ih
    intro w hw
    have happ := Expression.next?_append (Text.passes_white hd.1 hw (t := text))
    rw [hnext] at happ
    have hitem : item.untrim w = Item.ofFlat d (e.behind w) := Item.untrim_ofExpression ..
    have hd' : d'.Solid := Item.solid_of_after? (Item.delimiters_ofExpression fresh d e ▸ hd) hafter
    have htail : Text.White item.tail := (Item.padding_ofExpression fresh d e).2.white
    have hrest : item.tail ++ (Item.ofExpression fresh d e).2 = (e.behind w).rest :=
      Item.tail_append_rest fresh d e
    rw [flat_of_some happ, ← hitem, Item.after?_untrim, hafter]
    simp only [untrim]
    rw [ih hd' htail, hrest]

end Scan

end Mustache
