import Mustache.Parse
import Mustache.Proofs.Flat

/-!
# Trees up to their literals

`Tag.mapLiterals` rewrites every literal of a tree and drops those that nothing is left of. Two
trees that it makes the same differ in their literals only, and only in what the rewriting forgets:
with `Text.squeeze` in spaces, tabs and line ends (`Tag.squeezeList`), with a function that forgets
everything in all their text, so that what is left is the structure of the tree (`Tag.bonesList`).

A tree is `Tag.NormalList` if no literal of it is empty and no two are neighbours. Then rewriting
commutes with the way literals are put in front of tags (`Tag.mapLiterals_consLiteral`).
-/

namespace Mustache

namespace Text

/-- Rewriting text character by character so that nothing is left of padding. -/
structure Forgets (f : Text → Text) : Prop where
  append : ∀ x y, f (x ++ y) = f x ++ f y
  padding : ∀ w, Padding w → f w = []

/-- A text without its spaces, tabs and line ends. -/
def squeeze (t : Text) : Text :=
  t.filter fun c => !isPadding c

/-- Squeezing forgets padding and nothing else. -/
theorem forgets_squeeze : Forgets squeeze where
  append := List.filter_append
  padding w hw := List.filter_eq_nil_iff.2 fun c hc => by simp [hw c hc]

/-- Forgetting everything forgets padding. -/
theorem forgets_nil : Forgets fun _ => [] where
  append _ _ := rfl
  padding _ _ := rfl

end Text

namespace Tag

/-- A tag is text that stands for itself. -/
def isLiteral : Tag → Bool
  | .literal _ => true
  | _ => false

mutual

/-- What a tag becomes if its literals are rewritten: nothing if it is a literal and no text is
left of it. -/
def mapLiterals (f : Text → Text) : Tag → List Tag
  | .literal t => if f t = [] then [] else [.literal (f t)]
  | .escaped key => [.escaped key]
  | .raw key => [.raw key]
  | .block key source d children => [.block key source d (mapLiteralsList f children)]
  | .inverted key children => [.inverted key (mapLiteralsList f children)]
  | .inclusion name => [.inclusion name]

/-- What a list of tags becomes if their literals are rewritten. -/
def mapLiteralsList (f : Text → Text) : List Tag → List Tag
  | [] => []
  | t :: ts => mapLiterals f t ++ mapLiteralsList f ts

end

/-- Tags without the spaces, tabs and line ends of their literals. -/
def squeezeList : List Tag → List Tag :=
  mapLiteralsList Text.squeeze

/-- Tags without their literals. -/
def bonesList : List Tag → List Tag :=
  mapLiteralsList fun _ => []

mutual

/-- No literal in a tag is empty, and no two are neighbours. -/
def Normal : Tag → Prop
  | .literal t => t ≠ []
  | .block _ _ _ children | .inverted _ children => NormalList children
  | .escaped _ | .raw _ | .inclusion _ => True

/-- No literal in a list of tags is empty, and no two are neighbours. -/
def NormalList : List Tag → Prop
  | [] => True
  | t :: ts =>
    Normal t ∧ (t.isLiteral = true → ∀ u ∈ ts.head?, u.isLiteral = false) ∧ NormalList ts

end

variable {f : Text → Text} {t : Tag} {ts : List Tag} {x : Text}

/-! ## Putting text in front -/

/-- A list of tags begins with a literal or it does not. -/
theorem literal_or_head (ts : List Tag) :
    (∃ t us, ts = .literal t :: us) ∨ ∀ u ∈ ts.head?, u.isLiteral = false := by
  cases ts with
  | nil => exact .inr fun u hu => nomatch hu
  | cons t ts =>
    cases t with
    | literal t => exact .inl ⟨t, ts, rfl⟩
    | _ => exact .inr fun u hu => by cases hu; rfl

/-- Text stays a literal of its own in front of tags that do not begin with one. -/
theorem consLiteral_of_head (h : ∀ u ∈ ts.head?, u.isLiteral = false) :
    consLiteral x ts = if x = [] then ts else .literal x :: ts := by
  rcases literal_or_head ts with ⟨t, us, rfl⟩ | -
  · cases h _ rfl
  · cases ts with
    | nil => rfl
    | cons t ts => cases t <;> first | rfl | cases h _ rfl

/-- Text in front of normal tags leaves them normal. -/
theorem normalList_consLiteral (h : NormalList ts) : NormalList (consLiteral x ts) := by
  rcases literal_or_head ts with ⟨t, us, rfl⟩ | hhead
  · obtain ⟨ht, hnext, hus⟩ := h
    exact ⟨fun hnil => ht (List.append_eq_nil_iff.1 hnil).2, hnext, hus⟩
  · rw [consLiteral_of_head hhead]
    split
    next => exact h
    next hx => exact ⟨hx, fun _ => hhead, h⟩

/-- Tags that do not begin with a literal do not begin with one when they are rewritten. -/
theorem head_mapLiterals (h : ∀ u ∈ ts.head?, u.isLiteral = false) :
    ∀ u ∈ (mapLiteralsList f ts).head?, u.isLiteral = false := by
  cases ts with
  | nil => exact fun u hu => nomatch hu
  | cons t ts =>
    have ht := h t rfl
    cases t with
    | literal => cases ht
    | _ => rintro u ⟨⟩; rfl

/-- Rewriting the literals of normal tags behind a text rewrites the text too. -/
theorem mapLiterals_consLiteral (hf : Text.Forgets f) (h : NormalList ts) :
    mapLiteralsList f (consLiteral x ts) = consLiteral (f x) (mapLiteralsList f ts) := by
  have hnil : f [] = [] := hf.padding [] Text.padding_nil
  rcases literal_or_head ts with ⟨t, us, rfl⟩ | hhead
  · have hfront : consLiteral x (.literal t :: us) = .literal (x ++ t) :: us := rfl
    have hnext := consLiteral_of_head (x := f x) (head_mapLiterals (f := f) (h.2.1 rfl))
    rw [hfront]
    simp only [mapLiteralsList, mapLiterals, hf.append]
    by_cases ht : f t = []
    · simp only [ht, List.append_nil, if_true, List.nil_append, hnext]
      split <;> rfl
    · simp only [List.append_eq_nil_iff, ht, and_false, if_false, List.singleton_append]
      rfl
  · rw [consLiteral_of_head hhead, consLiteral_of_head (head_mapLiterals hhead)]
    by_cases hx : x = []
    · rw [if_pos hx, hx, if_pos hnil]
    · rw [if_neg hx]
      simp only [mapLiteralsList, mapLiterals]
      split <;> rfl

/-- Text is no place of a partial. -/
theorem inclusionsList_consLiteral : inclusionsList (consLiteral x ts) = inclusionsList ts := by
  rcases literal_or_head ts with ⟨t, us, rfl⟩ | hhead
  · rfl
  · rw [consLiteral_of_head hhead]
    split <;> rfl

/-- Text is no part of the structure of tags. -/
theorem bonesList_consLiteral : bonesList (consLiteral x ts) = bonesList ts := by
  rcases literal_or_head ts with ⟨t, us, rfl⟩ | hhead
  · rfl
  · rw [consLiteral_of_head hhead]
    split <;> rfl

end Tag

end Mustache
