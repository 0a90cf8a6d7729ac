import Mustache.Proofs.Interchange

/-!
# A partial on a line of its own

A line that holds the tag of a partial and nothing else stands for the lines of the partial: the
template says the same with the text of the partial in place of the line (`Template.renders_lines`).
The text in front may leave sections open at the line. What is needed is that the tag is one in the
whole text, which `Scan.tagAt?` tells. Then the text in front is scanned by itself up to the line
(`Scan.flat_of_tagAt?`), and the line and the text of the partial are scanned in the same place.
-/

namespace Mustache

/-! ## The tag at a place of a text -/

namespace Scan

/-- The item whose tag stands behind the text `front`, if the scan takes a tag there. -/
def tagAt? (front : Text) : Scan → Option Item
  | .tag i next =>
    if front = i.before then some i
    else (Text.strip? i.text front).bind fun rest => next.tagAt? rest
  | .done _ | .faulty _ => none

variable {d : Delimiters} {text front blanks rest : Text} {i : Item}

/-- A tag that ends in front of the end of white space ends in front of the white space. -/
theorem mark_within {p mark lead : Text} (hp : Text.Solid p) (hmark : p <:+ mark)
    (hblanks : Text.White blanks) (h : front ++ blanks = lead ++ mark ++ rest) :
    ∃ t, front = lead ++ mark ++ t ∧ rest = t ++ blanks := by
  rcases List.append_eq_append_iff.1 h with ⟨t, hmarked, hwhite⟩ | ⟨t, hfront, hrest⟩
  · rcases List.eq_nil_or_concat t with rfl | ⟨t, c, rfl⟩
    · exact ⟨[], by simpa using hmarked.symm, by simpa using hwhite.symm⟩
    · -- The stop delimiter would end in white space.
      obtain ⟨s, e, rfl⟩ : ∃ s e, p = s ++ [e] :=
        ⟨_, _, (List.dropLast_concat_getLast hp.1).symm⟩
      obtain ⟨x, rfl⟩ := hmark
      have hlast := congrArg List.getLast? hmarked
      simp only [List.concat_eq_append, List.getLast?_append, List.getLast?_singleton,
        Option.some_or, Option.some.injEq] at hlast
      have hc : Text.isSpace c = true := hblanks c (by simp [hwhite])
      have he : Text.isSpace e = false := hp.2 e (by simp)
      rw [← hlast, he] at hc
      cases hc
  · exact ⟨t, hfront, hrest⟩

/-- If a tag is taken behind a text and white space, the text is scanned by itself without a fault,
up to the delimiters that the tag is written with. -/
theorem flat_of_tagAt? (hd : d.Solid) (hblanks : Text.White blanks)
    (h : (flat d (front ++ (blanks ++ rest))).tagAt? (front ++ blanks) = some i) :
    (flat d front).fault? = none ∧ (flat d front).final d = i.delimiters ∧
      Mark i.delimiters i.mark i.kind i.content ∧ i.mark <+: rest := by
  generalize htext : front ++ (blanks ++ rest) = text at h
  fun_induction flat d text generalizing front with
  | case1 => cases h
  | case2 => cases h
  | case3 => cases h
  | case4 d text e hnext d' hafter ih =>
    obtain ⟨hlead, hmark, hsplit⟩ := Expression.next?_eq_some_iff.1 hnext
    have hbefore : (Item.ofFlat d e).before = e.lead := List.append_nil _
    have hitem : (Item.ofFlat d e).text = e.lead ++ e.mark := by
      simp only [Item.text, Item.ofFlat, List.append_nil]
    rw [tagAt?, hbefore, hitem] at h
    split at h
    next hhere =>
      cases h
      have hnone : Expression.next? d front = .ok none := by
        refine Expression.next?_eq_none_iff.2 fun hin => hlead.not_occurs hd.1.1 ?_
        rw [← hhere]
        exact hin.trans (List.prefix_append _ _).isInfix
      rw [flat_of_none hnone]
      refine ⟨rfl, rfl, hmark, e.rest, ?_⟩
      rw [← htext, ← hhere] at hsplit
      show e.mark ++ e.rest = rest
      simpa using hsplit.symm
    next hlater =>
      obtain ⟨later, hstrip, hlater⟩ := Option.bind_eq_some_iff.1 h
      obtain ⟨t, hfront, hrest⟩ :=
        mark_within hd.2 hmark.ends hblanks (Text.strip?_eq_some.1 hstrip)
      rw [hrest] at hlater
      have hfollows : t ++ (blanks ++ rest) = e.rest := by
        rw [← htext, hfront] at hsplit
        simpa using hsplit
      have hflat : flat d front = .tag (Item.ofFlat d e) (flat d' t) := by
        have hfound := Expression.next?_rest hnext t
        have hsame : Item.ofFlat d { e with rest := t } = Item.ofFlat d e := rfl
        rw [hfront, flat_of_some hfound, hsame, hafter]
      have hd' : d'.Solid := Item.solid_of_after? hd hafter
      rw [hflat, final, hafter]
      exact ih hd' hfollows hlater

/-- Without a delimiter change the delimiters stay as they are. -/
theorem final_flat (h : ∀ i ∈ (flat d text).items, i.kind ≠ .change) :
    (flat d text).final d = d := by
  fun_induction flat d text with
  | case1 | case2 | case3 => rfl
  | case4 d text e hnext d' hafter ih =>
    have hkind : (Item.ofFlat d e).kind ≠ .change := h _ (.head _)
    have hsame : d' = d := by
      rw [Item.after?, if_neg hkind] at hafter
      exact (Option.some.inj hafter).symm
    rw [final, hafter, Option.getD_some, hsame]
    rw [hsame] at ih h
    exact ih fun j hj => h j (.tail _ hj)

end Scan

/-! ## A line with a partial -/

/-- The tag of a partial, written with the usual delimiters. -/
def inclusionMark (name : Text) : Text :=
  ['{', '{', '>'] ++ name ++ ['}', '}']

/-- A line with the tag of a partial between blanks. -/
def inclusionLine (front name back : Text) : Text :=
  front ++ inclusionMark name ++ back ++ ['\n']

section Line

variable {front name back rest : Text} {i : Item}

/-- A tag that is written as the tag of a partial, and is one of that name, is all of it. -/
theorem mark_eq_inclusionMark {mark : Text} (h : Mark {} mark .inclusion name)
    (hmark : mark <+: inclusionMark name ++ rest) : mark = inclusionMark name := by
  generalize hkind : Kind.inclusion = kind at h
  cases h with
  | key => cases hkind
  | @sigil c _ guard inner hsigil hclear =>
    subst hkind
    obtain ⟨rfl, rfl⟩ : c = '>' ∧ guard = [] := by
      unfold Kind.ofSigil? at hsigil
      split at hsigil <;> cases hsigil
      exact ⟨rfl, rfl⟩
    obtain ⟨r, hr⟩ := hmark
    have hbody : inner ++ (['}', '}'] ++ r) = Text.trim inner ++ (['}', '}'] ++ rest) := by
      simpa [inclusionMark] using hr
    -- The tag ends with the first stop delimiter, so the name is no longer than its key.
    obtain ⟨t, hinner⟩ : Text.trim inner <+: inner :=
      List.prefix_of_prefix_length_le ⟨_, hbody.symm⟩ (List.prefix_append _ _)
        (Text.length_trim_le inner)
    generalize Text.trim inner = key at hbody hinner ⊢
    subst hinner
    have hstop : t ++ ['}', '}'] ++ r = ['}', '}'] ++ rest := by simpa using hbody
    obtain ⟨b, hb⟩ : ['}', '}'] <+: t ++ ['}', '}'] :=
      List.prefix_of_prefix_length_le ⟨rest, hstop.symm⟩ (List.prefix_append _ _) (by simp)
    have hnil : b = [] := hclear key b (by
      show key ++ t ++ ['}', '}'] = key ++ ['}', '}'] ++ b
      rw [List.append_assoc, ← hb, List.append_assoc])
    have ht : t = [] := by
      rw [hnil, List.append_nil] at hb
      exact List.append_left_eq_self.1 hb.symm
    rw [ht, List.append_nil]
    rfl

/-- A line with a partial is scanned to the tag of the partial, with which all of it vanishes. -/
theorem ofText_inclusionLine (hfront : front.all Text.isBlank = true)
    (hback : back.all Text.isBlank = true)
    (hmark : Mark {} (inclusionMark name) .inclusion name) :
    Scan.ofText true {} (inclusionLine front name back ++ rest) =
      .tag ⟨[], front, inclusionMark name, back ++ ['\n'], .inclusion, name, {}⟩
        (Scan.ofText true {} rest) := by
  have hline : inclusionLine front name back ++ rest =
      front ++ inclusionMark name ++ back ++ '\n' :: rest := by simp [inclusionLine]
  rw [hline]
  exact Scan.ofText_line (by decide) hfront hback hmark rfl rfl

end Line

/-! ## The line and the lines -/

namespace Outline

variable {scope : Scope} {name : Text} {inner : List Tag} {s : Scan} {source : Text} {i : Item}

/-- In front of the same text the tag of a partial has the rendering of the scan that the partial is
parsed from. -/
theorem sameRendering_inclusion (next : Scan) (h : valueAt? scope.partials name = some inner)
    (hkind : i.kind = .inclusion) (hname : i.content = name) (hliteral : i.literal = [])
    (hs : ofScan s = .ended inner source) :
    SameRendering scope (ofScan (.tag i next)) (ofScan (s.followedBy next)) := by
  have hline : ofScan (.tag i next) = (ofScan next).push i.text (.inclusion name :: ·) := by
    have hadd : (fun tags => Tag.consLiteral [] (.inclusion name :: tags)) =
        (.inclusion name :: ·) := funext fun tags => Tag.consLiteral_nil _
    rw [ofScan, cons, hkind, hname, hliteral, ← hadd]
  have hlines : EqUpToCloses (ofScan (s.followedBy next))
      ((ofScan next).push source (Tag.joinList inner)) := by
    have hsound : (ofScan s).Sound := by rw [hs]; trivial
    have hfollow := ofScan_followedBy hsound next
    rwa [hs] at hfollow
  have hpush : SameRendering scope ((ofScan next).push i.text (.inclusion name :: ·))
      ((ofScan next).push source (Tag.joinList inner)) := by
    have hsame : SameRendering scope (ofScan next) (ofScan next) :=
      (EqUpToCloses.refl _).sameRendering
    refine hsame.push fun ts us hrest => ?_
    exact (Scope.sameRendering_inclusion h).trans
      ((hrest.append inner).trans Scope.sameRendering_joinList.symm)
  rw [hline]
  exact hpush.trans hlines.sameRendering.symm

end Outline

section Lines

variable {before text after front name back : Text} {inner tags : List Tag} {scope : Scope}

/-- If the tag of a partial is taken on a line, then what stands in front of the line is scanned by
itself, whatever follows, and the tag is all of its mark. -/
theorem ofText_of_tagAt? (hbefore : Line.endsLine before = true)
    (hfront : front.all Text.isBlank = true)
    (h : ∃ i, (Scan.flat {} (before ++ inclusionLine front name back ++ after)).tagAt?
      (before ++ front) = some i ∧ i.kind = .inclusion ∧ i.content = name ∧ i.delimiters = {}) :
    (∀ rest, Scan.ofText true {} (before ++ rest) =
      (Scan.ofText true {} before).followedBy (Scan.ofText true {} rest)) ∧
        Mark {} (inclusionMark name) .inclusion name := by
  obtain ⟨i, htag, hkind, hname, hdelimiters⟩ := h
  have hsplit : before ++ inclusionLine front name back ++ after =
      before ++ (front ++ (inclusionMark name ++ (back ++ '\n' :: after))) := by
    simp [inclusionLine]
  have hwhite : Text.White front := (Text.padding_of_all_isBlank hfront).white
  rw [hsplit] at htag
  obtain ⟨hfault, hfinal, hmark, hwritten⟩ := Scan.flat_of_tagAt? (by decide) hwhite htag
  have hd : Delimiters.Solid {} := by decide
  rw [← Scan.fault?_ofText hd] at hfault
  rw [hkind, hname, hdelimiters] at hmark
  refine ⟨fun rest => ?_, mark_eq_inclusionMark hmark hwritten ▸ hmark⟩
  rw [Scan.ofText_append hd hbefore (fun _ => rfl) hfault, Scan.final_ofText hd, hfinal,
    hdelimiters]

/-- Between the same texts, the line of a partial has the rendering of the lines of the partial, if
each of them is scanned by itself. -/
theorem exists_sameRendering_lines
    (hbefore : ∀ rest, Scan.ofText true {} (before ++ rest) =
      (Scan.ofText true {} before).followedBy (Scan.ofText true {} rest))
    (hmark : Mark {} (inclusionMark name) .inclusion name)
    (hfront : front.all Text.isBlank = true) (hback : back.all Text.isBlank = true)
    (htext : ∀ rest, Scan.ofText true {} (text ++ rest) =
      (Scan.ofText true {} text).followedBy (Scan.ofText true {} rest))
    (hinner : parseTags {} text = .ok inner)
    (h : parseTags {} (before ++ inclusionLine front name back ++ after) = .ok tags)
    (hpartial : valueAt? scope.partials name = some inner) :
    ∃ tags', parseTags {} (before ++ text ++ after) = .ok tags' ∧
      scope.SameRendering tags tags' := by
  obtain ⟨source, hended⟩ := Outline.complete_eq_ok_iff.1 hinner
  obtain ⟨whole, hwhole⟩ := Outline.complete_eq_ok_iff.1 h
  have hrel := (Outline.sameRendering_inclusion
    (i := ⟨[], front, inclusionMark name, back ++ ['\n'], .inclusion, name, {}⟩)
    (Scan.ofText true {} after) hpartial rfl rfl rfl hended).followedBy (Scan.ofText true {} before)
  rw [← ofText_inclusionLine hfront hback hmark, ← hbefore, ← htext, ← hbefore,
    ← List.append_assoc, ← List.append_assoc, hwhole] at hrel
  obtain ⟨tags', source', hspliced, hsame⟩ := hrel.eq_ended
  exact ⟨tags', Outline.complete_eq_ok_iff.2 ⟨source', hspliced⟩, hsame⟩

end Lines

namespace Template

variable {before text after front name back src : Text} {t inner : Template} {tags : List Tag}

/-- A template has the tags of its text. -/
theorem tags_of_parse (h : Template.parse src = .ok t) : parseTags {} src = .ok t.tags := by
  unfold Template.parse Mustache.parse at h
  cases htags : parseTags {} src with
  | error => rw [htags] at h; cases h
  | ok tags => rw [htags] at h; cases h; rfl

/-- A text that has tags is a template. -/
theorem exists_parse (h : parseTags {} src = .ok tags) :
    ∃ t, Template.parse src = .ok t ∧ t.tags = tags := by
  unfold Template.parse Mustache.parse
  rw [h]
  exact ⟨_, rfl, rfl⟩

/-- **A partial on a line of its own is its lines.** With the lines of the partial in place of the
line, a text is a template again, and it is rendered if and only if it is with the partial, and to
the same, against lambda-free data of whatever type. -/
theorem renders_lines (hbefore : Line.endsLine before = true) (htext : Line.endsLine text = true)
    (hfront : front.all Text.isBlank = true) (hback : back.all Text.isBlank = true)
    (hinner : Template.parse text = .ok inner)
    (hchange : ∀ i ∈ (Scan.flat {} text).items, i.kind ≠ .change)
    (h : Template.parse (before ++ inclusionLine front name back ++ after) = .ok t)
    (htag : ∃ i, (Scan.flat {} (before ++ inclusionLine front name back ++ after)).tagAt?
      (before ++ front) = some i ∧ i.kind = .inclusion ∧ i.content = name ∧ i.delimiters = {}) :
    ∃ spliced, Template.parse (before ++ text ++ after) = .ok spliced ∧
      ∀ partials options, valueAt? partials name = some inner.tags →
        ∀ (V : Type) [Renderable V] (v : V), Renderable.LambdaFree v → ∀ r,
          ({ t with partials, options } : Template).Renders v r ↔
            ({ spliced with partials, options } : Template).Renders v r := by
  obtain ⟨hscan, hmark⟩ := ofText_of_tagAt? hbefore hfront htag
  have hlines : ∀ rest, Scan.ofText true {} (text ++ rest) =
      (Scan.ofText true {} text).followedBy (Scan.ofText true {} rest) := fun rest => by
    rw [ofText_append_of_parseTags (by decide) htext (tags_of_parse hinner),
      Scan.final_flat hchange]
  have hrendered : ∀ scope : Scope, valueAt? scope.partials name = some inner.tags →
      ∃ tags, parseTags {} (before ++ text ++ after) = .ok tags ∧ scope.SameRendering t.tags tags :=
    fun scope hpartial => exists_sameRendering_lines hscan hmark hfront hback hlines
      (tags_of_parse hinner) (tags_of_parse h) hpartial
  -- Whether the text is a template does not depend on the partials; what it is rendered to does.
  obtain ⟨tags, htags, -⟩ := hrendered ⟨.text, [(name, inner.tags)]⟩ (if_pos rfl)
  obtain ⟨spliced, hspliced, rfl⟩ := exists_parse htags
  refine ⟨spliced, hspliced, fun partials options hpartial V _ v hv r => ?_⟩
  obtain ⟨tags', htags', hsame⟩ := hrendered ⟨options.keyType, partials⟩ hpartial
  obtain rfl : tags' = spliced.tags := Except.ok.inj (htags'.symm.trans htags)
  have hc : Context.LambdaFree [v] := List.forall_mem_singleton.2 hv
  exact hsame hc r

/-- A partial in an open section, with a section, a partial and standalone lines of its own. -/
theorem renders_lines_nested :
    let v : Value := .json (.object [(['s'], .array [.object [], .object [(['x'], .bool true)]])])
    let partials : Partials := [(['q'], [.literal "c\n".toList]), (['p'],
      [.inverted ['x'] [.literal " b\n".toList], .inclusion ['q']])]
    ∃ spliced,
      Template.parse "{{#s}}\n{{^x}}\n b\n{{/x}}\n{{>q}}\n{{/s}}\n".toList = .ok spliced ∧
        ({ spliced with partials, options := {} } : Template).Renders v
          ⟨" b\nc\nc\n".toList, []⟩ := by
  intro v partials
  have hinner : Template.parse "{{^x}}\n b\n{{/x}}\n{{>q}}\n".toList = .ok
      ⟨[.inverted ['x'] [.literal " b\n".toList], .inclusion ['q']], [], [['q']], {}⟩ := by
    have hparse : Mustache.parse {} "{{^x}}\n b\n{{/x}}\n{{>q}}\n".toList = .ok
        ([.inverted ['x'] [.literal " b\n".toList], .inclusion ['q']], ⟨{}, [['q']]⟩) := by
      decide +kernel
    rw [Template.parse, hparse]
    rfl
  have hwhole : Template.parse ("{{#s}}\n".toList ++ inclusionLine ['\t'] ['p'] [' '] ++
      "{{/s}}\n".toList) = .ok
        ⟨[.block ['s'] "\n\t{{>p}} \n".toList {} [.inclusion ['p']]], [], [['p']], {}⟩ := by
    have hparse : Mustache.parse {} ("{{#s}}\n".toList ++ inclusionLine ['\t'] ['p'] [' '] ++
        "{{/s}}\n".toList) = .ok
          ([.block ['s'] "\n\t{{>p}} \n".toList {} [.inclusion ['p']]], ⟨{}, [['p']]⟩) := by
      decide +kernel
    rw [Template.parse, hparse]
    rfl
  obtain ⟨spliced, hspliced, hsame⟩ := renders_lines (by decide) (by decide) (by decide) (by decide)
    hinner (by decide +kernel) hwhole
      ⟨⟨"\n\t".toList, [], "{{>p}}".toList, [], .inclusion, ['p'], {}⟩, by decide +kernel⟩
  have hv : Renderable.LambdaFree v := (Value.WithoutLambda.json _).lambdaFree
  refine ⟨spliced, hspliced, (hsame partials {} rfl _ v hv _).1 ⟨4, ?_⟩⟩
  decide +kernel

end Template

end Mustache
