/-!
# Text

Template text is a list of characters. Offsets into it count the bytes of its UTF-8 encoding, so a
count of bytes is turned into a cut of the list by `takeBytes` and `dropBytes`.

The searches are stated by what they cut the text into: `strip?` takes a text off the front of
another, `cut?` splits a text around the first occurrence of another (`eq_of_cut?_eq_some`), and
`pieces` splits it at every character of a class.
-/

namespace Mustache

/-- Text is a list of characters. -/
abbrev Text := List Char

namespace Text

/-! ## Bytes -/

/-- The number of bytes of a text in UTF-8. -/
def size : Text → Nat
  | [] => 0
  | c :: t => c.utf8Size + size t

/-- The longest front part of a text that has at most `n` bytes. -/
def takeBytes : Nat → Text → Text
  | _, [] => []
  | n, c :: t => if c.utf8Size ≤ n then c :: takeBytes (n - c.utf8Size) t else []

/-- The text without its first characters, as few of them as have at least `n` bytes. -/
def dropBytes : Nat → Text → Text
  | _, [] => []
  | 0, c :: t => c :: t
  | n + 1, c :: t => dropBytes (n + 1 - c.utf8Size) t

/-- The part of a text from byte `first` up to byte `last`. -/
def slice (first last : Nat) (t : Text) : Text :=
  takeBytes (last - first) (dropBytes first t)

@[simp] theorem size_nil : size [] = 0 := rfl

@[simp] theorem size_cons (c : Char) (t : Text) : size (c :: t) = c.utf8Size + size t := rfl

@[simp] theorem size_append (a b : Text) : size (a ++ b) = size a + size b := by
  induction a with
  | nil => simp
  | cons c a ih => simp [ih, Nat.add_assoc]

/-! ## Searching -/

/-- The order of texts by the code points of their characters, which is the order of their bytes. -/
def ordered : Text → Text → Bool
  | [], _ => true
  | _ :: _, [] => false
  | a :: s, b :: t => if a = b then ordered s t else a.toNat < b.toNat

/-- The text that follows `p` in a text that begins with `p`. -/
def strip? : Text → Text → Option Text
  | [], t => some t
  | _ :: _, [] => none
  | p :: ps, c :: t => if p = c then strip? ps t else none

/-- The texts before and after the first occurrence of `p`. The empty text occurs at once. -/
def cut? (p : Text) : Text → Option (Text × Text)
  | [] => (strip? p []).map ([], ·)
  | c :: t =>
    match strip? p (c :: t) with
    | some rest => some ([], rest)
    | none => (cut? p t).map fun (before, after) => (c :: before, after)

/-- The pieces of a text between the characters of a class, empty pieces included. There is always
at least one. -/
def pieces (p : Char → Bool) : Text → List Text
  | [] => [[]]
  | c :: t =>
    if p c then [] :: pieces p t
    else match pieces p t with
      | [] => [[c]]
      | x :: xs => (c :: x) :: xs

/-- A text taken off the front is the front. -/
theorem strip?_eq_some {p t rest : Text} : strip? p t = some rest ↔ t = p ++ rest := by
  induction p generalizing t with
  | nil => simp [strip?]
  | cons c p ih =>
    cases t with
    | nil => simp [strip?]
    | cons a t =>
      by_cases h : c = a
      · subst h; simp [strip?, ih]
      · simp [strip?, h, Ne.symm h]

/-- The two parts of a cut, with the text searched for between them, are the whole text. -/
theorem eq_of_cut?_eq_some {p t before after : Text} (h : cut? p t = some (before, after)) :
    t = before ++ p ++ after := by
  induction t generalizing before with
  | nil =>
    simp only [cut?, Option.map_eq_some_iff, Prod.mk.injEq] at h
    obtain ⟨rest, hrest, rfl, rfl⟩ := h
    simpa using strip?_eq_some.1 hrest
  | cons c t ih =>
    simp only [cut?] at h
    split at h
    next rest hrest =>
      obtain ⟨rfl, rfl⟩ : [] = before ∧ rest = after := by simpa using h
      simpa using strip?_eq_some.1 hrest
    next =>
      simp only [Option.map_eq_some_iff, Prod.exists, Prod.mk.injEq] at h
      obtain ⟨b, a, hcut, rfl, rfl⟩ := h
      simp [ih hcut]

end Text

end Mustache
