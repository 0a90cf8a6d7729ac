import Mustache.Proofs.Agree
import Mustache.Proofs.Reader.Tag

/-!
# Blocks by offsets

A reader goes from tag to tag with the tags behind it in a list, and comes to a block by its end. An
outline has the same tags put together from the other side. `Reader.Answers` is what the reader must
give where the text ahead of it has an outline: the tags of its first part, pushed behind those that
were read, and a reader behind the close tag that ends the part, with the next part ahead.

By induction on the steps a reader gives this at the end of every front part of a text
(`Reader.block_answers`). A section takes the block behind its open tag, and then the one behind its
close tag; both are shorter than what was ahead, so that a step for each character is enough.
-/

namespace Mustache

/-! ## Tags behind those that were read -/

namespace Reader

variable {tags more : List Tag} {a b text : Text} {t : Tag}

/-- Puts tags behind those that were read, one after another. -/
def pushTags (tags : List Tag) : List Tag → List Tag
  | [] => tags
  | .literal text :: more => pushTags (pushLiteral tags text) more
  | t :: more => pushTags (tags ++ [t]) more

/-- Text that is pushed in two parts is one literal. -/
theorem pushLiteral_append : pushLiteral tags (a ++ b) = pushLiteral (pushLiteral tags a) b := by
  by_cases ha : a = []
  · subst ha
    rfl
  by_cases hb : b = []
  · subst hb
    rw [List.append_nil]
    rfl
  have hab : ¬ a ++ b = [] := fun h => ha (List.append_eq_nil_iff.1 h).1
  simp only [pushLiteral, if_neg ha, if_neg hb, if_neg hab]
  split <;> simp

/-- Text in front of tags is pushed before them. -/
theorem pushTags_consLiteral :
    pushTags tags (Tag.consLiteral text more) = pushTags (pushLiteral tags text) more := by
  rcases Tag.literal_or_head more with ⟨t, us, rfl⟩ | hhead
  · exact congrArg (pushTags · us) pushLiteral_append
  · rw [Tag.consLiteral_of_head hhead]
    split
    next h => subst h; rfl
    next => rfl

/-- A tag that is no literal is pushed as it is. -/
theorem pushTags_cons (h : t.isLiteral = false) :
    pushTags tags (t :: more) = pushTags (tags ++ [t]) more := by
  cases t with
  | literal => cases h
  | _ => rfl

/-- Normal tags are pushed as they are, but behind a literal. -/
theorem pushTags_normal (h : Tag.NormalList more)
    (hlast : ∀ t ∈ tags.getLast?, t.isLiteral = true → ∀ u ∈ more.head?, u.isLiteral = false) :
    pushTags tags more = tags ++ more := by
  induction more generalizing tags with
  | nil => exact (List.append_nil tags).symm
  | cons t more ih =>
    obtain ⟨ht, hhead, hmore⟩ := h
    have hnext : pushTags (tags ++ [t]) more = tags ++ t :: more := by
      rw [ih hmore (by simpa using hhead), List.append_assoc, List.singleton_append]
    cases hlit : t.isLiteral with
    | false => rw [pushTags_cons hlit, hnext]
    | true =>
      cases t with
      | literal text =>
        have hpush : pushLiteral tags text = tags ++ [.literal text] := by
          rw [pushLiteral, if_neg ht]
          split
          next last hl => exact absurd (hlast _ hl rfl _ rfl) (by simp [Tag.isLiteral])
          next => rfl
        rw [pushTags, hpush, hnext]
      | _ => cases hlit

/-- Normal tags are pushed as they are where nothing was read. -/
theorem pushTags_nil (h : Tag.NormalList more) : pushTags [] more = more :=
  pushTags_normal h fun t ht => absurd ht (Option.not_mem_none t)

end Reader

/-! ## What lies ahead -/

namespace Outline

/-- The outline of the text that follows `read`. -/
def ahead (read : Text) (d : Delimiters) (text : Text) : Outline :=
  ofScan (Scan.ofText (Line.endsLine read) d text)

variable {read text rest : Text} {d : Delimiters} {e : Expression} {i : Item} {fault : Fault}

theorem ahead_of_error (h : Expression.next? d text = .error fault) :
    ahead read d text = .faulty fault := by
  rw [ahead, Scan.ofText_of_error h, ofScan]

theorem ahead_of_none (h : Expression.next? d text = .ok none) :
    ahead read d text = .ended (Tag.consLiteral text []) text := by
  rw [ahead, Scan.ofText_of_none h, ofScan]

/-- An item in front of the text that follows it is in front of its outline. -/
theorem ahead_of_some (h : Expression.next? d text = .ok (some e))
    (hitem : Item.ofExpression (Line.endsLine read) d e = (i, rest)) :
    ahead read d text = match i.after? with
      | none => .faulty ⟨.invalidDelimiters i.content, i.before ++ i.mark⟩
      | some d' => cons i (ahead (read ++ i.text) d' rest) := by
  have hi : (Item.ofExpression (Line.endsLine read) d e).1 = i := by rw [hitem]
  have hmark : i.mark ++ i.tail ≠ [] := by
    obtain ⟨_, _, _, _, hspec, -⟩ := Item.ofExpression_spec (Line.endsLine read) d e
    rw [← hi, hspec]
    exact fun hnil => Expression.mark_ne_nil h (List.append_eq_nil_iff.1 hnil).1
  have hends : Line.endsLine (i.mark ++ i.tail) = Line.endsLine (read ++ i.text) := by
    have happend : read ++ i.text = read ++ (i.literal ++ i.indent) ++ (i.mark ++ i.tail) := by
      simp [Item.text]
    rw [happend, Line.endsLine_append hmark]
  rw [ahead, Scan.ofText_of_some h, hitem]
  cases i.after? with
  | none => rfl
  | some d' => exact hends ▸ rfl

end Outline

/-! ## Blocks -/

namespace Reader

/-- What reading a block gives if the text ahead of the reader has an outline. -/
def Answers (src read : Text) (names : List Text) (tags : List Tag) :
    Outline → Except Halt Block → Prop
  | .ended more source, answer => ∃ d, src = read ++ source ∧
      answer = .ok ⟨pushTags tags more, .eof,
        ⟨src.size, ⟨d, addNames names (Tag.inclusionsList more)⟩⟩⟩
  | .closed more source close next, answer => ∃ rest,
      src = read ++ source ++ close.mark ++ close.tail ++ rest ∧
      next = Outline.ahead (read ++ source ++ close.mark ++ close.tail) close.delimiters rest ∧
      answer = .ok ⟨pushTags tags more, .close close.content (read ++ source).size,
        ⟨(read ++ source ++ close.mark ++ close.tail).size,
          ⟨close.delimiters, addNames names (Tag.inclusionsList more)⟩⟩⟩
  | .faulty fault, answer => answer = .error (.refused (fault.behind read).reason)

variable {src read text r : Text} {names new : List Text} {tags tags' : List Tag} {o : Outline}
  {add : List Tag → List Tag} {result : Except Halt Block} {d : Delimiters}

/-- Tags in front of an outline are tags that the reader has read already. -/
theorem Answers.push (h : Answers src (read ++ r) (addNames names new) tags' o result)
    (hadd : ∀ more, pushTags tags (add more) = pushTags tags' more ∧
      Tag.inclusionsList (add more) = new ++ Tag.inclusionsList more) :
    Answers src read names tags (o.push r add) result := by
  have hnames : ∀ more, addNames names (new ++ more) = addNames (addNames names new) more :=
    fun more => List.foldl_append
  cases o with
  | ended more source =>
    obtain ⟨d, hsrc, hresult⟩ := h
    refine ⟨d, by rw [hsrc, List.append_assoc], ?_⟩
    rw [hresult, (hadd more).1, (hadd more).2, hnames]
  | closed more source close next =>
    obtain ⟨rest, hsrc, hnext, hresult⟩ := h
    simp only [List.append_assoc] at hsrc hnext hresult
    refine ⟨rest, by simpa using hsrc, by simpa using hnext, ?_⟩
    rw [hresult, (hadd more).1, (hadd more).2, hnames]
    simp only [List.append_assoc]
  | faulty fault =>
    have hresult : result = .error (.refused (fault.behind (read ++ r)).reason) := h
    simpa [Answers, Outline.push, Fault.behind] using hresult

/-- A tag behind a literal in front of an outline is one that the reader has read already. -/
theorem Answers.pushTag {t : Tag} {literal : Text} (ht : t.isLiteral = false)
    (h : Answers src (read ++ r) (addNames names (Tag.inclusions t))
      (pushLiteral tags literal ++ [t]) o result) :
    Answers src read names tags (o.push r fun more => Tag.consLiteral literal (t :: more)) result :=
  h.push fun more => ⟨by rw [pushTags_consLiteral, pushTags_cons ht],
    by rw [Tag.inclusionsList_consLiteral]; rfl⟩

/-- A literal in front of an outline is one that the reader has read already. -/
theorem Answers.pushNothing {literal : Text}
    (h : Answers src (read ++ r) names (pushLiteral tags literal) o result) :
    Answers src read names tags (o.push r (Tag.consLiteral literal)) result := by
  have hnone : Answers src (read ++ r) (addNames names []) (pushLiteral tags literal) o result := h
  exact hnone.push fun _ => ⟨pushTags_consLiteral, Tag.inclusionsList_consLiteral⟩

/-- What an item is to a reader that has read the text in front of it. -/
def foundItem (read : Text) (i : Item) : Found :=
  ⟨i.kind, i.content, (read ++ i.before).size, (read ++ (i.before ++ i.mark)).size⟩

/-- An item is what a reader finds ahead of it. -/
structure Meets (src read : Text) (i : Item) (rest : Text) : Prop where
  text : src = read ++ i.text ++ rest
  next : next? src read.size i.delimiters = .ok (some (foundItem read i))
  place : place src read.size (foundItem read i) =
    .ok ((read ++ i.literal).size, (read ++ i.text).size)

variable {i : Item} {rest : Text} {e : Expression}

/-- An item that a reader meets, divided at the end of its tag. -/
theorem Meets.text_mark (h : Meets src read i rest) :
    src = read ++ (i.before ++ i.mark) ++ (i.tail ++ rest) := by
  simp [h.text, Item.text, Item.before]

/-- A reader meets the item of the first expression of the text ahead of it. -/
theorem meets_of_next? (hsrc : src = read ++ text) (h : Expression.next? d text = .ok (some e))
    (hitem : Item.ofExpression (Line.endsLine read) d e = (i, rest)) :
    Meets src read i rest ∧ i.delimiters = d ∧ rest.length < text.length := by
  obtain ⟨literal, indent, tail, rest', hspec, hlead, hrest, -⟩ :=
    Item.ofExpression_spec (Line.endsLine read) d e
  have htext := Expression.eq_of_next? h
  have hsrc' : src = read ++ (e.lead ++ e.mark ++ e.rest) := by rw [hsrc, htext]
  have hplace := place_eq (d := d) hsrc'
  have hlength := Item.length_ofExpression_le (Line.endsLine read) d e
  rw [hitem] at hspec hplace hlength
  obtain ⟨rfl, rfl⟩ := Prod.mk.inj hspec
  have hfound : found read.size e = foundItem read
      ⟨literal, indent, e.mark, tail, e.kind, e.content, d⟩ := by
    simp only [found, foundItem, Expression.start, Expression.stop, Item.before, hlead,
      Text.size_append, Nat.add_assoc]
  refine ⟨⟨?_, ?_, hfound ▸ hplace⟩, rfl, Nat.lt_of_le_of_lt hlength (Expression.rest_length_lt h)⟩
  · simp [hsrc', hlead, hrest, Item.text]
  · rw [next?_eq hsrc, h, ← hfound]
    rfl

/-- What a reader finds from a boundary on is an item that it meets there. -/
theorem exists_meets {first : Nat} {opened : Found} (hfirst : src.isBoundary first = true)
    (h : next? src first d = .ok (some opened)) : ∃ read i rest, first = Text.size read ∧
      opened = foundItem read i ∧ d = i.delimiters ∧ Meets src read i rest := by
  obtain ⟨read, text, hsrc, rfl⟩ := Text.isBoundary_iff.1 hfirst
  have hnext := next?_eq (d := d) hsrc
  rw [h] at hnext
  cases hfound : Expression.next? d text with
  | error fault => rw [hfound] at hnext; cases hnext
  | ok found? =>
    cases found? with
    | none => rw [hfound] at hnext; cases hnext
    | some e =>
      rcases hitem : Item.ofExpression (Line.endsLine read) d e with ⟨i, rest⟩
      obtain ⟨hmeets, rfl, -⟩ := meets_of_next? hsrc hfound hitem
      have heq := h.symm.trans hmeets.next
      cases heq
      exact ⟨read, i, rest, rfl, rfl, rfl, hmeets⟩

variable {source key : Text} {more : List Tag} {reader : Reader}

/-- A block that is not ended by a close tag makes no section. -/
theorem enclose_eof (hsrc : src = read ++ (i.before ++ i.mark) ++ rest) :
    enclose src (foundItem read i) d ⟨more, .eof, reader⟩ =
      .error (.refused (Fault.reason ⟨.unclosedSection i.content, read ++ (i.before ++ i.mark)⟩)) :=
  refuse_eq hsrc rfl

/-- A block that is ended by a close tag of another key makes no section. -/
theorem enclose_mismatched (hkey : key ≠ i.content)
    (hsrc : src = read ++ (i.before ++ i.mark) ++ source ++ rest) :
    enclose src (foundItem read i) d
        ⟨more, .close key (read ++ (i.before ++ i.mark) ++ source).size, reader⟩ =
      .error (.refused (Fault.reason
        ⟨.mismatched i.content key, read ++ (i.before ++ i.mark) ++ source⟩)) := by
  rw [← refuse_eq (α := Tag) hsrc rfl]
  exact if_neg hkey

/-- The section around a block that a close tag of the same key ends. -/
theorem enclose_eq (hsrc : src = read ++ (i.before ++ i.mark) ++ source ++ rest) :
    enclose src (foundItem read i) i.delimiters
        ⟨more, .close i.content (read ++ (i.before ++ i.mark) ++ source).size, reader⟩ =
      .ok (Outline.sectionTag i source more) := by
  have hcut : cut (read ++ (i.before ++ i.mark)).size
      (read ++ (i.before ++ i.mark) ++ source).size src = .ok source := cut_eq hsrc rfl rfl
  simp only [enclose, foundItem, if_pos, Outline.sectionTag]
  cases i.kind with
  | inverted => rfl
  | _ => simp only [hcut, ok_bind]; rfl

/-- An open tag, the block behind it and what follows that. -/
theorem answers_section {steps : Nat} (hmeets : Meets src read i rest)
    (ih : ∀ read text names tags d, src = read ++ text → text.length ≤ rest.length →
      Answers src read names tags (Outline.ahead read d text)
        (block src steps ⟨read.size, ⟨d, names⟩⟩ tags)) :
    Answers src read names tags
      (Outline.consSection i (Outline.ahead (read ++ i.text) i.delimiters rest)) (do
        let inner ← block src steps ⟨(read ++ i.text).size, ⟨i.delimiters, names⟩⟩ []
        let tag ← enclose src (foundItem read i) i.delimiters inner
        block src steps inner.reader (pushLiteral tags i.literal ++ [tag])) := by
  have hinner := ih (read ++ i.text) rest names [] i.delimiters hmeets.text (Nat.le_refl _)
  have hnormal : (Outline.ahead (read ++ i.text) i.delimiters rest).Normal :=
    Outline.normal_ofScan _
  cases ho : Outline.ahead (read ++ i.text) i.delimiters rest with
  | ended more source =>
    rw [ho] at hinner
    obtain ⟨d, -, hblock⟩ := hinner
    rw [hblock, ok_bind, enclose_eof hmeets.text_mark]
    rfl
  | faulty fault =>
    rw [ho] at hinner
    have hblock : block src steps ⟨(read ++ i.text).size, ⟨i.delimiters, names⟩⟩ [] = _ := hinner
    rw [hblock, error_bind]
    simp [Answers, Outline.consSection, Fault.behind]
  | closed more source close next =>
    rw [ho] at hinner hnormal
    obtain ⟨rest', hsrc, hnext, hblock⟩ := hinner
    rw [pushTags_nil hnormal.1] at hblock
    have hsource : (read ++ i.text ++ source).size =
        (read ++ (i.before ++ i.mark) ++ (i.tail ++ source)).size := by
      simp [Item.text, Item.before]
    have hsrc' : src = read ++ (i.before ++ i.mark) ++ (i.tail ++ source) ++
        (close.mark ++ close.tail ++ rest') := by
      simp [hsrc, Item.text, Item.before]
    rw [hblock, ok_bind, hsource, Outline.consSection]
    by_cases hkey : close.content = i.content
    · have hsection : (Outline.sectionTag i (i.tail ++ source) more).isLiteral = false :=
        (Outline.normal_sectionTag hnormal.1).2
      have hinclusions : Tag.inclusions (Outline.sectionTag i (i.tail ++ source) more) =
          Tag.inclusionsList more := by
        unfold Outline.sectionTag
        split <;> rfl
      have hread : read ++ i.text ++ source ++ close.mark ++ close.tail =
          read ++ (i.before ++ i.mark ++ (i.tail ++ source) ++ close.mark ++ close.tail) := by
        simp [Item.text, Item.before]
      have hlength : rest'.length ≤ rest.length := by
        have hrest : rest = source ++ close.mark ++ close.tail ++ rest' :=
          List.append_cancel_left (hmeets.text.symm.trans (by simp [hsrc]))
        have := congrArg List.length hrest
        simp only [List.length_append] at this
        omega
      rw [if_pos hkey, hkey, enclose_eq hsrc', ok_bind, hnext]
      refine Answers.pushTag hsection ?_
      rw [hinclusions, ← hread]
      exact ih _ rest' _ _ _ hsrc hlength
    · rw [if_neg hkey, enclose_mismatched hkey hsrc', error_bind]
      simp [Answers, Fault.behind, Item.text, Item.before]

/-- An item and what follows it. -/
theorem answers_item {steps : Nat} (hmeets : Meets src read i rest)
    (ih : ∀ read text names tags d, src = read ++ text → text.length ≤ rest.length →
      Answers src read names tags (Outline.ahead read d text)
        (block src steps ⟨read.size, ⟨d, names⟩⟩ tags)) :
    Answers src read names tags
      (match i.after? with
        | none => .faulty ⟨.invalidDelimiters i.content, i.before ++ i.mark⟩
        | some d' => Outline.cons i (Outline.ahead (read ++ i.text) d' rest))
      (block src (steps + 1) ⟨read.size, ⟨i.delimiters, names⟩⟩ tags) := by
  have hnext {names tags d} := ih (read ++ i.text) rest names tags d hmeets.text (Nat.le_refl _)
  have hliteral : cut read.size (read ++ i.literal).size src = .ok i.literal :=
    cut_eq (c := i.indent ++ i.mark ++ i.tail ++ rest) (by simp [hmeets.text, Item.text]) rfl rfl
  have hkind : (foundItem read i).kind = i.kind := rfl
  have hcontent : (foundItem read i).content = i.content := rfl
  rw [block, hmeets.next, ok_bind, Item.after?]
  simp only [hmeets.place, ok_bind, hliteral, hkind, hcontent, Outline.cons]
  cases i.kind with
  | escaped | raw | inclusion => exact Answers.pushTag rfl hnext
  | comment => exact Answers.pushNothing hnext
  | change =>
    cases Delimiters.ofContent? i.content with
    | none => exact refuse_eq hmeets.text_mark rfl
    | some d' => exact Answers.pushNothing hnext
  | opening | inverted => exact answers_section hmeets ih
  | closing =>
    have htext : read ++ i.text = read ++ i.before ++ i.mark ++ i.tail := by
      simp [Item.text, Item.before]
    refine ⟨rest, by rw [hmeets.text, htext], by rw [htext], ?_⟩
    rw [pushTags_consLiteral, Tag.inclusionsList_consLiteral, htext]
    rfl

/-- **A block.** A reader gives what the outline of the text ahead of it says. -/
theorem block_answers {steps : Nat} (hsrc : src = read ++ text) (hsteps : text.length < steps) :
    Answers src read names tags (Outline.ahead read d text)
      (block src steps ⟨read.size, ⟨d, names⟩⟩ tags) := by
  induction steps generalizing read text d names tags with
  | zero => exact absurd hsteps (Nat.not_lt_zero _)
  | succ steps ih =>
    have hnext := next?_eq (d := d) hsrc
    cases hfound : Expression.next? d text with
    | error fault =>
      rw [hfound] at hnext
      rw [block, hnext, Outline.ahead_of_error hfound]
      rfl
    | ok found? =>
      cases found? with
      | none =>
        have hliteral : cut read.size src.size src = .ok text := cut_rest hsrc rfl
        have hnone : next? src read.size d = .ok none := by rw [hnext, hfound]; rfl
        rw [block, hnone, ok_bind, Outline.ahead_of_none hfound]
        simp only [hliteral, ok_bind]
        refine ⟨d, hsrc, ?_⟩
        rw [pushTags_consLiteral, Tag.inclusionsList_consLiteral]
        rfl
      | some e =>
        rcases hitem : Item.ofExpression (Line.endsLine read) d e with ⟨i, rest⟩
        obtain ⟨hmeets, rfl, hlength⟩ := meets_of_next? hsrc hfound hitem
        rw [Outline.ahead_of_some hfound hitem]
        exact answers_item hmeets fun _ _ _ _ _ hsrc hle => ih hsrc (by omega)

end Reader

end Mustache
