import Mathlib
import Mustache.Accessor

/-!
# Names in snake case

An accessor is named after its template. For an ASCII name each character stands for itself in
lower case, or for an underscore if it is a separator, and an upper-case letter has an underscore in
front unless the name begins with it (`accessorName_cons`). So nothing but underscores is added
(`filter_accessorName`), one for each of those letters (`length_accessorName`).

A name in snake case, in ASCII or not, is the name of its own accessor
(`accessorName_of_inSnakeCase`). The name that an ASCII one leads to is in snake case
(`inSnakeCase_accessorName`), so it leads to no other.
-/

namespace Mustache

namespace Text

variable {c d : Char} {r : CaseRun}

/-! ## Upper case in ASCII -/

theorem isUpper_iff : c.isUpper = true ↔ 65 ≤ c.toNat ∧ c.toNat ≤ 90 := by
  rw [Char.isUpper, decide_eq_true_iff]
  exact Iff.rfl

/-- The run of the ASCII letters. -/
def asciiRun : CaseRun := ⟨0x41, 0x5A, 1, 32⟩

theorem contains_asciiRun : asciiRun.contains c = c.isUpper := by
  rw [Bool.eq_iff_iff, isUpper_iff, CaseRun.contains, Bool.and_eq_true, Bool.and_eq_true,
    decide_eq_true_iff, decide_eq_true_iff, beq_iff_eq]
  exact and_iff_left (Nat.mod_one _)

/-- The run of the ASCII letters is the first one. -/
theorem caseRuns_eq : caseRuns = asciiRun :: caseRuns.tail := rfl

/-- The other runs lie behind ASCII. -/
theorem le_first_of_mem_tail (h : r ∈ caseRuns.tail) : 128 ≤ r.first := by
  have hall : ∀ r ∈ caseRuns.tail, 128 ≤ r.first := by decide +kernel
  exact hall r h

/-- The upper-case characters of ASCII are its upper-case letters. -/
theorem isUppercase_of_ascii (h : c.toNat < 128) : isUppercase c = c.isUpper := by
  have hdotted : (c == dottedCapitalI) = false := by
    refine beq_eq_false_iff_ne.2 ?_
    rintro rfl
    exact absurd h (by decide)
  have htail : caseRuns.tail.any (·.contains c) = false := by
    refine List.any_eq_false.2 fun r hr hin => ?_
    have hfirst := le_first_of_mem_tail hr
    simp only [CaseRun.contains, Bool.and_eq_true, decide_eq_true_eq] at hin
    omega
  rw [isUppercase, hdotted, Bool.false_or, caseRuns_eq, List.any_cons, htail, Bool.or_false,
    contains_asciiRun]

/-- An upper-case letter of ASCII has one character for its lower case. -/
theorem lowercase_of_isUpper (h : c.isUpper = true) : lowercase c = [c.toLower] := by
  have hdotted : c ≠ dottedCapitalI := by
    rintro rfl
    exact absurd h (by decide)
  have hin : asciiRun.contains c = true := contains_asciiRun.trans h
  have hfind : caseRuns.find? (·.contains c) = some asciiRun := by
    rw [caseRuns_eq, List.find?_cons, hin]
  rw [lowercase, if_neg hdotted, hfind, Char.toLower_eq_of_isUpper h]
  rfl

/-- Only letters change when they are put in lower case. -/
theorem toLower_of_not_isAlpha (h : c.isAlpha = false) : c.toLower = c := by
  refine Char.toLower_eq_of_not_isUpper fun hupper => ?_
  rw [Char.isAlpha, hupper, Bool.true_or] at h
  cases h

/-- No other character has one that is not a letter for its lower case. -/
theorem toLower_eq_iff (hd : d.isAlpha = false) : c.toLower = d ↔ c = d := by
  constructor
  · rintro rfl
    rw [Char.isAlpha_toLower_eq_isAlpha] at hd
    exact (toLower_of_not_isAlpha hd).symm
  · rintro rfl
    exact toLower_of_not_isAlpha hd

theorem toLower_lt (h : c.toNat < 128) : c.toLower.toNat < 128 := by
  cases hupper : c.isUpper with
  | false => rwa [Char.toLower_eq_of_not_isUpper (Bool.eq_false_iff.1 hupper)]
  | true =>
    obtain ⟨hfirst, hlast⟩ := isUpper_iff.1 hupper
    have hvalid : (c.toNat + 32).isValidChar := .inl (by omega)
    rw [Char.toLower_eq_of_isUpper hupper, Char.toNat_ofNat, if_pos hvalid]
    omega

end Text

variable {c d : Char} {name t : Text} {isFirst : Bool}

theorem isSeparator_iff : isSeparator c = true ↔ c = '-' ∨ c = '.' ∨ c = ' ' := by
  simp [isSeparator, or_assoc]

/-- A separator is not a letter. -/
theorem isUpper_of_isSeparator (h : isSeparator c = true) : c.isUpper = false := by
  rcases isSeparator_iff.1 h with rfl | rfl | rfl <;> rfl

/-- Lower case makes no separators and loses none. -/
theorem isSeparator_toLower : isSeparator c.toLower = isSeparator c := by
  have hdash : c.toLower = '-' ↔ c = '-' := Text.toLower_eq_iff rfl
  have hdot : c.toLower = '.' ↔ c = '.' := Text.toLower_eq_iff rfl
  have hblank : c.toLower = ' ' ↔ c = ' ' := Text.toLower_eq_iff rfl
  rw [Bool.eq_iff_iff, isSeparator_iff, isSeparator_iff, hdash, hdot, hblank]

/-! ## Names that stay as they are -/

/-- A character that stands for itself in the name of an accessor. -/
structure InSnakeCase (c : Char) : Prop where
  lower : Text.isUppercase c = false
  joined : isSeparator c = false

theorem InSnakeCase.snakeChar (h : InSnakeCase c) : snakeChar isFirst c = [c] := by
  rw [Mustache.snakeChar, h.lower]
  rfl

/-- A name in snake case is the name of the accessor. -/
theorem accessorName_of_inSnakeCase (h : ∀ c ∈ name, InSnakeCase c) : accessorName name = name := by
  have hjoined : (name.map fun c => if isSeparator c then '_' else c) = name := by
    refine (List.map_congr_left fun c hc => ?_).trans (List.map_id name)
    rw [(h c hc).joined]
    rfl
  rw [accessorName, hjoined]
  cases name with
  | nil => rfl
  | cons c t =>
    have hrest : t.flatMap (snakeChar false) = t.flatMap fun c => [c] :=
      List.flatMap_congr fun c hc => (h c (.tail _ hc)).snakeChar
    rw [snakeCase, (h c (.head _)).snakeChar, hrest, List.flatMap_singleton']
    rfl

/-! ## ASCII names, character by character -/

/-- The character of an accessor's name that stands for one of the template's. -/
def accessorChar (c : Char) : Char :=
  if isSeparator c then '_' else c.toLower

/-- What an accessor's name has for a character behind the first: an underscore goes in front of an
upper-case letter. -/
def accessorPart (c : Char) : Text :=
  if c.isUpper then ['_', accessorChar c] else [accessorChar c]

/-- An underscore stands for a separator and for itself. -/
theorem accessorChar_eq_iff : accessorChar c = '_' ↔ isSeparator c = true ∨ c = '_' := by
  rw [accessorChar]
  split
  next h => exact iff_of_true rfl (.inl h)
  next h => rw [Text.toLower_eq_iff rfl, or_iff_right h]

theorem accessorChar_lt (h : c.toNat < 128) : (accessorChar c).toNat < 128 := by
  rw [accessorChar]
  split
  next => decide
  next => exact Text.toLower_lt h

theorem inSnakeCase_accessorChar (h : c.toNat < 128) : InSnakeCase (accessorChar c) := by
  refine ⟨?_, ?_⟩
  · rw [Text.isUppercase_of_ascii (accessorChar_lt h), accessorChar]
    split
    next => rfl
    next => exact Char.isUpper_toLower_eq_false c
  · rw [accessorChar]
    split
    next => rfl
    next hsep => rw [isSeparator_toLower, Bool.eq_false_iff.2 hsep]

/-- A character in snake case, once it is replaced if it is a separator. No underscore goes in front
of the one that is put in its place. -/
theorem snakeChar_of_ascii (h : c.toNat < 128) :
    snakeChar isFirst (if isSeparator c then '_' else c) =
      (if c.isUpper && !isFirst then ['_'] else []) ++ [accessorChar c] := by
  rw [accessorChar]
  split
  next hsep =>
    have hunderscore : InSnakeCase '_' := inSnakeCase_accessorChar (c := '_') (by decide)
    rw [hunderscore.snakeChar, isUpper_of_isSeparator hsep]
    rfl
  next =>
    rw [snakeChar, Text.isUppercase_of_ascii h]
    cases hupper : c.isUpper with
    | false =>
      rw [Char.toLower_eq_of_not_isUpper (Bool.eq_false_iff.1 hupper)]
      rfl
    | true =>
      rw [Text.lowercase_of_isUpper hupper]
      cases isFirst <;> rfl

/-- The name of an accessor. Only the first character has a place of its own. -/
theorem accessorName_cons (h : ∀ d ∈ c :: t, d.toNat < 128) :
    accessorName (c :: t) = accessorChar c :: t.flatMap accessorPart := by
  have hfirst : snakeChar true (if isSeparator c then '_' else c) = [accessorChar c] := by
    rw [snakeChar_of_ascii (h c (.head _)), Bool.not_true, Bool.and_false]
    rfl
  have hrest : ∀ d ∈ t, snakeChar false (if isSeparator d then '_' else d) = accessorPart d := by
    intro d hd
    rw [snakeChar_of_ascii (h d (.tail _ hd)), accessorPart]
    cases d.isUpper <;> rfl
  rw [accessorName, List.map_cons, snakeCase, hfirst, List.flatMap_map, List.flatMap_congr hrest,
    List.singleton_append]

/-! ## What is in the name of an accessor -/

theorem exists_of_mem_accessorPart (h : c.toNat < 128) (hd : d ∈ accessorPart c) :
    ∃ e : Char, e.toNat < 128 ∧ accessorChar e = d := by
  rw [accessorPart] at hd
  split at hd
  next =>
    rcases List.mem_cons.1 hd with rfl | hlast
    · exact ⟨'_', by decide, rfl⟩
    · exact ⟨c, h, (List.mem_singleton.1 hlast).symm⟩
  next => exact ⟨c, h, (List.mem_singleton.1 hd).symm⟩

/-- The name of an accessor is ASCII in snake case. -/
theorem inSnakeCase_accessorName (h : ∀ c ∈ name, c.toNat < 128) (hd : d ∈ accessorName name) :
    d.toNat < 128 ∧ InSnakeCase d := by
  have hchar : ∃ e : Char, e.toNat < 128 ∧ accessorChar e = d := by
    cases name with
    | nil => cases hd
    | cons c t =>
      rw [accessorName_cons h] at hd
      rcases List.mem_cons.1 hd with rfl | hd
      · exact ⟨c, h c (.head _), rfl⟩
      · obtain ⟨e, he, hpart⟩ := List.mem_flatMap.1 hd
        exact exists_of_mem_accessorPart (h e (.tail _ he)) hpart
  obtain ⟨e, he, rfl⟩ := hchar
  exact ⟨accessorChar_lt he, inSnakeCase_accessorChar he⟩

/-- The characters of a name that are neither separators nor underscores, in lower case. -/
def bare (name : Text) : Text :=
  (name.filter (· ∉ ['-', '.', ' ', '_'])).map Char.toLower

theorem bare_cons : bare (c :: t) = bare [c] ++ bare t := by
  rw [bare, bare, bare, ← List.map_append, ← List.filter_append, List.singleton_append]

/-- All but an underscore is left of a character. -/
theorem filter_accessorChar : [accessorChar c].filter (· != '_') = bare [c] := by
  have hjoint : accessorChar c = '_' ↔ c ∈ ['-', '.', ' ', '_'] := by
    rw [accessorChar_eq_iff, isSeparator_iff]
    simp [or_assoc]
  by_cases hc : c ∈ ['-', '.', ' ', '_']
  · have hnone : [c].filter (· ∉ ['-', '.', ' ', '_']) = [] :=
      List.filter_cons_of_neg fun hout => of_decide_eq_true hout hc
    rw [hjoint.2 hc, bare, hnone]
    rfl
  · have hne : accessorChar c ≠ '_' := mt hjoint.1 hc
    have hsep : ¬ isSeparator c = true := fun hsep => hne (accessorChar_eq_iff.2 (.inl hsep))
    have hleft : [accessorChar c].filter (· != '_') = [accessorChar c] :=
      List.filter_cons_of_pos (bne_iff_ne.2 hne)
    have hkept : [c].filter (· ∉ ['-', '.', ' ', '_']) = [c] :=
      List.filter_cons_of_pos (decide_eq_true hc)
    rw [hleft, bare, hkept, accessorChar, if_neg hsep]
    rfl

/-- The underscore in front of a letter is not left either. -/
theorem filter_accessorPart : (accessorPart c).filter (· != '_') = bare [c] := by
  rw [accessorPart, ← filter_accessorChar]
  split
  next => exact List.filter_cons_of_neg (by decide)
  next => rfl

theorem filter_flatMap_accessorPart : (t.flatMap accessorPart).filter (· != '_') = bare t := by
  induction t with
  | nil => rfl
  | cons c t ih => rw [List.flatMap_cons, List.filter_append, filter_accessorPart, ih, ← bare_cons]

/-- The name of an accessor without its underscores. -/
theorem filter_accessorName (h : ∀ c ∈ name, c.toNat < 128) :
    (accessorName name).filter (· != '_') = bare name := by
  cases name with
  | nil => rfl
  | cons c t =>
    rw [accessorName_cons h, ← List.singleton_append, List.filter_append, filter_accessorChar,
      filter_flatMap_accessorPart, ← bare_cons]

/-- A part has one character more for an upper-case letter. -/
theorem length_flatMap_accessorPart :
    (t.flatMap accessorPart).length = t.length + t.countP Char.isUpper := by
  induction t with
  | nil => rfl
  | cons c t ih =>
    rw [List.flatMap_cons, List.length_append, ih, List.length_cons, List.countP_cons, accessorPart]
    split
    all_goals
      simp only [List.length_cons, List.length_nil]
      omega

/-- The length of an accessor's name. -/
theorem length_accessorName (h : ∀ c ∈ name, c.toNat < 128) :
    (accessorName name).length = name.length + name.tail.countP Char.isUpper := by
  cases name with
  | nil => rfl
  | cons c t =>
    rw [accessorName_cons h, List.length_cons, length_flatMap_accessorPart, List.length_cons,
      List.tail_cons]
    omega

/-- **The name of an accessor has one form.** For an ASCII name it is ASCII without upper-case
letters, dashes, dots and blanks, and it is the name of its own accessor. But for the underscores it
is the template's name without those three and in lower case. It is longer by the number of
upper-case letters behind the first character. -/
theorem accessorName_canonical (h : ∀ c ∈ name, c.toNat < 128) :
    (∀ c ∈ accessorName name,
      c.toNat < 128 ∧ c.isUpper = false ∧ c ≠ '-' ∧ c ≠ '.' ∧ c ≠ ' ') ∧
    accessorName (accessorName name) = accessorName name ∧
    (accessorName name).filter (· != '_') =
      (name.filter (· ∉ ['-', '.', ' ', '_'])).map Char.toLower ∧
    (accessorName name).length = name.length + name.tail.countP Char.isUpper := by
  refine ⟨fun d hd => ?_, ?_, filter_accessorName h, length_accessorName h⟩
  · obtain ⟨hascii, hlower, hjoined⟩ := inSnakeCase_accessorName h hd
    have hnone : ¬ (d = '-' ∨ d = '.' ∨ d = ' ') :=
      mt isSeparator_iff.2 (Bool.eq_false_iff.1 hjoined)
    rw [not_or, not_or] at hnone
    exact ⟨hascii, Text.isUppercase_of_ascii hascii ▸ hlower, hnone⟩
  · exact accessorName_of_inSnakeCase fun d hd => (inSnakeCase_accessorName h hd).2

/-- A name with a capital in front, a run of them, and one behind a separator. -/
theorem accessorName_canonical_capitals :
    let name := "Get .HTML-v_2".toList
    (∀ c ∈ name, c.toNat < 128) ∧ accessorName name = "get___h_t_m_l_v_2".toList ∧
      (∀ c ∈ accessorName name, c.isUpper = false) ∧
      accessorName (accessorName name) = accessorName name ∧
      (accessorName name).filter (· != '_') = "gethtmlv2".toList ∧
      (accessorName name).length = name.length + 4 := by
  intro name
  have hascii : ∀ c ∈ name, c.toNat < 128 := by simp [name]
  obtain ⟨hall, hagain, hbare, hlength⟩ := accessorName_canonical hascii
  exact ⟨hascii, by decide +kernel, fun c hc => (hall c hc).2.1, hagain, hbare, hlength⟩

/-- A capital that is its own lower case has one underscore more each time. -/
example : accessorName ['x', '𝐀'] = ['x', '_', '𝐀'] ∧
    accessorName (accessorName ['x', '𝐀']) = ['x', '_', '_', '𝐀'] := by decide +kernel

end Mustache
