import Mustache.Escape
import Mustache.Proofs.Search

/-!
# Entities

Three characters make markup: the angle brackets and the double quote. An escaped text has none of
them (`not_mem_escape`), and an ampersand only where an entity begins (`exists_entity_of_escape`).

The text that was escaped comes back when the entities are replaced by their characters one after
another, each over the whole text, that of the ampersand last (`unescape_escape`). On the way back
the text is one with fewer and fewer characters escaped (`replace_escapeOnly`): no replacement makes
a new entity for a later one, as long as every ampersand is escaped.
-/

namespace Mustache

namespace Text

variable {old new p a b t : Text} {hold : old ≠ []}

/-! ## Replacing -/

/-- A text with another one replaced wherever it occurs, from the front on and without overlaps. -/
def replace (old new : Text) (hold : old ≠ []) (t : Text) : Text :=
  match _found : cut? old t with
  | none => t
  | some (before, after) => before ++ new ++ replace old new hold after
termination_by t.length
decreasing_by
  have hpos := List.length_pos_iff.2 hold
  rw [eq_of_cut?_eq_some _found]
  simp only [List.length_append]
  omega

/-- A text without occurrences stays as it is. -/
theorem replace_of_none (h : cut? old t = none) : replace old new hold t = t := by
  unfold replace
  split
  next => rfl
  next hcut => rw [h] at hcut; cases hcut

/-- The first occurrence is replaced, and then those behind it. -/
theorem replace_of_some (h : cut? old t = some (a, b)) :
    replace old new hold t = a ++ new ++ replace old new hold b := by
  rw [replace]
  split
  next hcut => rw [h] at hcut; cases hcut
  next hcut => rw [h] at hcut; cases hcut; rfl

/-- An occurrence in front is replaced. -/
theorem replace_front : replace old new hold (old ++ t) = new ++ replace old new hold t :=
  replace_of_some (cut?_eq_some_iff.2 ⟨clear_nil old, rfl⟩)

/-- What the search passes over stays as it is. -/
theorem Passes.replace (h : Passes old a t) :
    Text.replace old new hold (a ++ t) = a ++ Text.replace old new hold t := by
  unfold Passes at h
  cases hcut : cut? old t with
  | none =>
    rw [hcut] at h
    rw [replace_of_none h, replace_of_none hcut]
  | some found =>
    obtain ⟨before, after⟩ := found
    rw [hcut] at h
    rw [replace_of_some h, replace_of_some hcut]
    simp only [List.append_assoc]

end Text

open Text

/-! ## Characters that are escaped -/

/-- The entity of a name. -/
def entity (name : Text) : Text :=
  '&' :: (name ++ [';'])

/-- The characters that are escaped, with the names of their entities. -/
def entities : List (Char × Text) :=
  [('<', "lt".toList), ('>', "gt".toList), ('"', "quot".toList), ('&', "amp".toList)]

/-- The characters that make markup. -/
def markup : List Char := ['<', '>', '"']

variable {c d : Char} {cs : List Char} {name name' t : Text}

theorem entity_ne_nil (name : Text) : entity name ≠ [] := nofun

/-- A character with an entity is written as that. -/
theorem escapeChar_of_mem (h : (c, name) ∈ entities) : escapeChar c = entity name := by
  have hall : ∀ e ∈ entities, escapeChar e.1 = entity e.2 := by decide
  exact hall _ h

/-- A character has an entity, or it is written as itself. -/
theorem escapeChar_cases (c : Char) :
    (∃ name, (c, name) ∈ entities) ∨ (∀ name, (c, name) ∉ entities) ∧ escapeChar c = [c] := by
  by_cases h : ∃ name, (c, name) ∈ entities
  · exact .inl h
  · refine .inr ⟨not_exists.1 h, ?_⟩
    unfold escapeChar
    split
    next => exact absurd ⟨"amp".toList, by decide⟩ h
    next => exact absurd ⟨"lt".toList, by decide⟩ h
    next => exact absurd ⟨"gt".toList, by decide⟩ h
    next => exact absurd ⟨"quot".toList, by decide⟩ h
    next => rfl

/-- A name has neither the first character of an entity nor the last, and no markup. -/
theorem not_mem_of_entities (h : (c, name) ∈ entities) :
    '&' ∉ name ∧ ';' ∉ name ∧ ∀ m ∈ markup, m ∉ entity name := by
  have hall : ∀ e ∈ entities, '&' ∉ e.2 ∧ ';' ∉ e.2 ∧ ∀ m ∈ markup, m ∉ entity e.2 := by
    simp [entities, entity, markup]
  exact hall _ h

/-- A name belongs to one character. -/
theorem eq_of_entities (h : (c, name) ∈ entities) (h' : (d, name) ∈ entities) : c = d := by
  have hall : ∀ e ∈ entities, ∀ f ∈ entities, e.2 = f.2 → e.1 = f.1 := by decide
  exact hall _ h _ h' rfl

/-- No character is written with markup. -/
theorem not_mem_escapeChar (hc : c ∈ markup) (a : Char) : c ∉ escapeChar a := by
  rcases escapeChar_cases a with ⟨name, hname⟩ | ⟨hnone, heq⟩
  · rw [escapeChar_of_mem hname]
    exact (not_mem_of_entities hname).2.2 c hc
  · rw [heq, List.mem_singleton]
    rintro rfl
    have hall : ∀ m ∈ markup, ∃ e ∈ entities, e.1 = m := by simp [markup, entities]
    obtain ⟨⟨_, name⟩, hname, rfl⟩ := hall c hc
    exact hnone name hname

/-- There is no markup in an escaped text. -/
theorem not_mem_escape (hc : c ∈ markup) (t : Text) : c ∉ escape t := by
  intro h
  obtain ⟨a, -, ha⟩ := List.mem_flatMap.1 h
  exact not_mem_escapeChar hc a ha

/-- What a character is written as has an ampersand in front only, and is an entity then. -/
theorem exists_entity_of_escapeChar {before after : Text}
    (h : escapeChar c = before ++ '&' :: after) :
    ∃ e ∈ entities, entity e.2 = '&' :: after := by
  have hmem : '&' ∈ escapeChar c := h ▸ List.mem_append_right _ (.head _)
  rcases escapeChar_cases c with ⟨name, hname⟩ | ⟨hnone, heq⟩
  · rw [escapeChar_of_mem hname] at h
    cases before with
    | nil => exact ⟨(c, name), hname, h⟩
    | cons b before =>
      have htail : name ++ [';'] = before ++ '&' :: after := (List.cons.inj h).2
      have hin : '&' ∈ name ++ [';'] := htail ▸ List.mem_append_right _ (.head _)
      rcases List.mem_append.1 hin with hin | hin
      · exact absurd hin (not_mem_of_entities hname).1
      · exact absurd hin (by decide)
  · rw [heq, List.mem_singleton] at hmem
    subst hmem
    exact absurd (by decide) (hnone "amp".toList)

/-- An ampersand in an escaped text is the beginning of an entity. -/
theorem exists_entity_of_escape {before after : Text} (h : escape t = before ++ '&' :: after) :
    ∃ e ∈ entities, entity e.2 <+: '&' :: after := by
  induction t generalizing before with
  | nil => exact absurd h.symm (by simp [escape])
  | cons c t ih =>
    have hcons : escape (c :: t) = escapeChar c ++ escape t := List.flatMap_cons
    rw [hcons] at h
    -- The ampersand stands behind what the first character is written as, or in it.
    rcases List.append_eq_append_iff.1 h with ⟨rest, -, hrest⟩ | ⟨rest, hchar, hrest⟩
    · exact ih hrest
    · cases rest with
      | nil =>
        have hfront : escape t = [] ++ '&' :: after := hrest.symm
        exact ih hfront
      | cons d rest =>
        obtain ⟨rfl, rfl⟩ := List.cons.inj hrest
        obtain ⟨e, he, heq⟩ := exists_entity_of_escapeChar hchar
        exact ⟨e, he, heq ▸ List.prefix_append ('&' :: rest) _⟩

/-! ## Texts that are escaped in part -/

/-- An entity does not begin where another one stands. -/
theorem not_begins_entity (hname : ';' ∉ name) (hname' : ';' ∉ name') (hne : name ≠ name') :
    ¬ entity name <+: entity name' ++ t := by
  rintro ⟨rest, hrest⟩
  have hfront : ∀ {x y : Text}, ';' ∉ x → (x ++ ';' :: y).takeWhile (· != ';') = x := by
    intro x y hx
    rw [List.takeWhile_append_of_pos fun a ha => by simpa using fun heq : a = ';' => hx (heq ▸ ha)]
    simp
  have heq : name ++ ';' :: rest = name' ++ ';' :: t := by simpa [entity] using hrest
  refine hne ?_
  calc name = (name ++ ';' :: rest).takeWhile (· != ';') := (hfront hname).symm
    _ = (name' ++ ';' :: t).takeWhile (· != ';') := by rw [heq]
    _ = name' := hfront hname'

/-- The search for one entity passes over another. -/
theorem passes_entity (h : (c, name) ∈ entities) (h' : (d, name') ∈ entities)
    (hne : name ≠ name') : Passes (entity name) (entity name') t := by
  obtain ⟨-, hname, -⟩ := not_mem_of_entities h
  obtain ⟨hamp, hname', -⟩ := not_mem_of_entities h'
  have hrest : '&' ∉ name' ++ [';'] := by simp [hamp]
  exact Passes.append (x := ['&']) (passes_cons (not_begins_entity hname hname' hne))
    (passes_of_not_mem hrest)

/-- A text in which only some characters are escaped. -/
def escapeOnly (cs : List Char) (t : Text) : Text :=
  t.flatMap fun c => if c ∈ cs then escapeChar c else [c]

/-- Nothing is escaped if no character is. -/
theorem escapeOnly_nil (t : Text) : escapeOnly [] t = t := by
  simp [escapeOnly]

/-- All is escaped if every character with an entity is. -/
theorem escapeOnly_entities (t : Text) : escapeOnly (entities.map Prod.fst) t = escape t := by
  have hchar : (fun c => if c ∈ entities.map Prod.fst then escapeChar c else [c]) = escapeChar := by
    funext c
    rcases escapeChar_cases c with ⟨name, hname⟩ | ⟨-, hself⟩
    · rw [if_pos (List.mem_map_of_mem hname)]
    · rw [hself, ite_self]
  rw [escape, escapeOnly, hchar]

/-- The search for an entity passes over what any other character is written as, if every ampersand
is escaped. -/
theorem passes_escapeOnly (h : (c, name) ∈ entities) (hamp : '&' ∈ c :: cs) (hd : d ≠ c) :
    Passes (entity name) (if d ∈ cs then escapeChar d else [d]) t := by
  have hself : d ≠ '&' → Passes (entity name) [d] t := fun hne =>
    passes_of_not_mem fun hin => hne (List.mem_singleton.1 hin).symm
  split
  next =>
    rcases escapeChar_cases d with ⟨name', hname'⟩ | ⟨hnone, heq⟩
    · rw [escapeChar_of_mem hname']
      refine passes_entity h hname' ?_
      rintro rfl
      exact hd (eq_of_entities hname' h)
    · rw [heq]
      refine hself ?_
      rintro rfl
      exact hnone "amp".toList (by decide)
  next hnot =>
    refine hself ?_
    rintro rfl
    exact (List.mem_cons.1 hamp).elim (fun heq => hd heq) hnot

/-- Replacing the entity of a character by the character leaves the others escaped. -/
theorem replace_escapeOnly (h : (c, name) ∈ entities) (hc : c ∉ cs) (hamp : '&' ∈ c :: cs)
    (t : Text) :
    replace (entity name) [c] (entity_ne_nil name) (escapeOnly (c :: cs) t) = escapeOnly cs t := by
  induction t with
  | nil =>
    refine replace_of_none (cut?_eq_none_iff.2 fun hin => ?_)
    exact entity_ne_nil name (List.infix_nil.1 hin)
  | cons d t ih =>
    have hcons : ∀ cs, escapeOnly cs (d :: t) =
        (if d ∈ cs then escapeChar d else [d]) ++ escapeOnly cs t := fun _ => List.flatMap_cons
    rw [hcons, hcons]
    -- `c` has its entity in front, which is replaced. The entity of `c` is not found in anything
    -- else that stands there, nor across its end.
    by_cases hd : d = c
    · subst hd
      rw [if_pos (.head _), if_neg hc, escapeChar_of_mem h, replace_front, ih]
    · have hmem : d ∈ c :: cs ↔ d ∈ cs := by simp [hd]
      simp only [hmem]
      rw [(passes_escapeOnly h hamp hd).replace, ih]

/-! ## Back -/

/-- A text with the entities replaced by their characters, one entity after another, that of the
ampersand last. -/
def unescape (t : Text) : Text :=
  entities.foldl (fun t e => replace (entity e.2) [e.1] (entity_ne_nil e.2) t) t

/-- Escaping is undone. -/
theorem unescape_escape (t : Text) : unescape (escape t) = t := by
  rw [← escapeOnly_entities]
  simp only [unescape, entities, List.map_cons, List.map_nil, List.foldl_cons, List.foldl_nil]
  rw [replace_escapeOnly (by decide) (by decide) (by decide),
    replace_escapeOnly (by decide) (by decide) (by decide),
    replace_escapeOnly (by decide) (by decide) (by decide),
    replace_escapeOnly (by decide) (by decide) (by decide), escapeOnly_nil]

/-- **Escaping can be undone and leaves no markup.** There is none in an escaped text, and each
ampersand in it begins an entity. Replacing the entities one after another, each over the whole
text, brings the text back, whatever entities it had before; so different texts have different
escaped forms. -/
theorem escape_reversible (t : Text) :
    (∀ c ∈ escape t, c ≠ '<' ∧ c ≠ '>' ∧ c ≠ '"') ∧
    (∀ before after, escape t = before ++ '&' :: after →
      ∃ e ∈ ["&amp;", "&lt;", "&gt;", "&quot;"], e.toList <+: '&' :: after) ∧
    (let lt := replace "&lt;".toList ['<'] (by decide) (escape t)
     let gt := replace "&gt;".toList ['>'] (by decide) lt
     let quot := replace "&quot;".toList ['"'] (by decide) gt
     replace "&amp;".toList ['&'] (by decide) quot = t) ∧
    ∀ s, escape s = escape t → s = t := by
  refine ⟨fun c hc => ?_, fun before after h => ?_, unescape_escape t, fun s h => ?_⟩
  · have hmarkup : ∀ m ∈ markup, c ≠ m := by
      rintro m hm rfl
      exact not_mem_escape hm t hc
    exact ⟨hmarkup _ (by decide), hmarkup _ (by decide), hmarkup _ (by decide)⟩
  · obtain ⟨e, he, hprefix⟩ := exists_entity_of_escape h
    have hall : ∀ e ∈ entities, ∃ s ∈ ["&amp;", "&lt;", "&gt;", "&quot;"],
        s.toList = entity e.2 := by decide
    obtain ⟨s, hs, heq⟩ := hall e he
    exact ⟨s, hs, heq ▸ hprefix⟩
  · rw [← unescape_escape s, h, unescape_escape]

/-- A text with an entity in it and the character of that. -/
theorem escape_reversible_entity :
    let t := "&lt;<".toList
    escape t = "&amp;lt;&lt;".toList ∧ '<' ∉ escape t ∧
      (∃ e ∈ ["&amp;", "&lt;", "&gt;", "&quot;"], e.toList <+: "&lt;".toList) ∧
      unescape (escape t) = t ∧ escape "<<".toList ≠ escape t := by
  intro t
  obtain ⟨hfree, hamp, hback, hsame⟩ := escape_reversible t
  exact ⟨by decide, fun hin => (hfree '<' hin).1 rfl,
    hamp "&amp;lt;".toList "lt;".toList (by decide), hback,
    fun h => absurd (hsame "<<".toList h) (by decide)⟩

end Mustache
