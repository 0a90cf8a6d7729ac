import Mustache.Error
import Mustache.Proofs.Boundary

/-!
# Excerpts

An excerpt is cut off the bytes of a text. The cut is first made so many bytes in front of the end
as an excerpt may have, and then moved on, byte by byte, until a character begins there
(`Text.advance?`). Nothing in this bounds the moves, and nothing but the encoding does: a character
has four bytes at most, and only the first of them can begin one. So there are three moves at most,
and what is cut off is the longest end of the text that is short enough (`excerpt_longest`).
-/

namespace Mustache

namespace Text

/-! ## Bytes and characters -/

/-- The bytes of a text in UTF-8. -/
def bytes (t : Text) : List UInt8 :=
  t.flatMap String.utf8EncodeChar

/-- Whether a character begins at an offset of some bytes, or the bytes end there. -/
def beginsAt (bytes : List UInt8) (n : Nat) : Bool :=
  n == bytes.length || bytes[n]?.any fun b => decide b.IsUTF8FirstByte

variable {n m moves : Nat}

theorem bytes_cons (c : Char) (t : Text) : bytes (c :: t) = String.utf8EncodeChar c ++ bytes t :=
  List.flatMap_cons

theorem bytes_append (a b : Text) : bytes (a ++ b) = bytes a ++ bytes b :=
  List.flatMap_append

/-- The size of a text is the number of its bytes. -/
theorem length_bytes (t : Text) : (bytes t).length = size t := by
  induction t with
  | nil => rfl
  | cons c t ih =>
    rw [bytes_cons, List.length_append, String.length_utf8EncodeChar, ih, size_cons]

/-- The bytes behind a front part are those of what follows it. -/
theorem drop_bytes (a b : Text) : (bytes (a ++ b)).drop (size a) = bytes b := by
  rw [bytes_append, ← length_bytes, List.drop_left]

/-- A character begins behind a part of some bytes if it begins in what follows. -/
theorem beginsAt_append (front back : List UInt8) (n : Nat) :
    beginsAt (front ++ back) (front.length + n) = beginsAt back n := by
  rw [beginsAt, beginsAt, List.getElem?_append_right (by omega), List.length_append,
    Nat.add_sub_cancel_left]
  congr 1
  rw [Bool.eq_iff_iff, beq_iff_eq, beq_iff_eq, Nat.add_left_cancel_iff]

/-- Of the bytes of a character, only the first one begins it. -/
theorem beginsAt_utf8EncodeChar (c : Char) (back : List UInt8) (h : n < c.utf8Size) :
    beginsAt (String.utf8EncodeChar c ++ back) n = decide (n = 0) := by
  have hlength : n < (String.utf8EncodeChar c).length := String.length_utf8EncodeChar c ▸ h
  have hne : (n == (String.utf8EncodeChar c ++ back).length) = false := by
    rw [beq_eq_false_iff_ne, List.length_append]
    omega
  rw [beginsAt, hne, Bool.false_or, List.getElem?_append_left hlength,
    List.getElem?_eq_getElem hlength, Option.any_some]
  exact decide_eq_decide.2 UInt8.isUTF8FirstByte_getElem_utf8EncodeChar

/-- Characters begin at the boundaries of a text. -/
theorem beginsAt_bytes (t : Text) (n : Nat) : beginsAt (bytes t) n = isBoundary t n := by
  fun_induction isBoundary t n with
  | case1 t =>
    cases t with
    | nil => rfl
    | cons c t =>
      rw [bytes_cons, beginsAt_utf8EncodeChar c _ c.utf8Size_pos]
      rfl
  | case2 => rfl
  | case3 c t n ih =>
    rw [bytes_cons]
    by_cases hc : c.utf8Size ≤ n + 1
    · have hn : n + 1 = (String.utf8EncodeChar c).length + (n + 1 - c.utf8Size) := by
        rw [String.length_utf8EncodeChar]
        omega
      rw [decide_eq_true hc, Bool.true_and, ← ih, Nat.succ_eq_add_one, hn, beginsAt_append, ← hn]
    · rw [decide_eq_false hc, Bool.false_and, beginsAt_utf8EncodeChar c _ (by omega)]
      rfl

/-! ## The cut -/

/-- The first offset, from one on, at which a character begins, unless it takes more than so many
moves by one byte to get there. -/
def advance? (bytes : List UInt8) : (moves : Nat) → Nat → Option Nat
  | 0, n => if beginsAt bytes n then some n else none
  | moves + 1, n => if beginsAt bytes n then some n else advance? bytes moves (n + 1)

/-- The bytes of an excerpt, unless it takes more than so many moves to find where they begin.
Reference: `rcap`. -/
def cutExcerpt? (moves : Nat) (bytes : List UInt8) : Option (List UInt8) :=
  if excerptSize < bytes.length then
    (advance? bytes moves (bytes.length - excerptSize)).map bytes.drop
  else some bytes

/-- The offset where a character begins is found if it is the first one and near enough. -/
theorem advance?_eq {bytes : List UInt8} (h : n ≤ m) (hmoves : m ≤ n + moves)
    (hm : beginsAt bytes m = true) (hfirst : ∀ k, n ≤ k → k < m → beginsAt bytes k = false) :
    advance? bytes moves n = some m := by
  induction moves generalizing n with
  | zero =>
    obtain rfl : n = m := Nat.le_antisymm h hmoves
    rw [advance?, if_pos hm]
  | succ moves ih =>
    rw [advance?]
    rcases Nat.lt_or_eq_of_le h with hlt | rfl
    · rw [hfirst n (Nat.le_refl n) hlt, if_neg Bool.false_ne_true]
      exact ih hlt (by omega) fun k hk => hfirst k (by omega)
    · rw [if_pos hm]

end Text

variable {t : Text} {moves : Nat}

/-- What is in front of an excerpt: its end is the first boundary from which on the text is short
enough, and it comes within three bytes. -/
theorem excerpt_spec (t : Text) : ∃ a, t = a ++ excerpt t ∧ t.size - excerptSize ≤ a.size ∧
    a.size ≤ t.size - excerptSize + 3 ∧
    ∀ k, t.size - excerptSize ≤ k → k < a.size → t.isBoundary k = false :=
  Text.dropBytes_spec (Nat.sub_le _ _)

/-- A text that is short enough is an excerpt of itself. -/
theorem excerpt_of_le (h : t.size ≤ excerptSize) : excerpt t = t := by
  rw [excerpt, Nat.sub_eq_zero_of_le h, Text.dropBytes_zero]

/-- The bytes of an excerpt are found in three moves. -/
theorem cutExcerpt?_bytes (hmoves : 3 ≤ moves) :
    Text.cutExcerpt? moves t.bytes = some (excerpt t).bytes := by
  rw [Text.cutExcerpt?, Text.length_bytes]
  split
  next hlong =>
    obtain ⟨a, ht, hle, hnear, hfirst⟩ := excerpt_spec t
    have hbegins : Text.beginsAt t.bytes a.size = true := by
      rw [Text.beginsAt_bytes, ht]
      exact Text.isBoundary_size
    have hadvance : Text.advance? t.bytes moves (t.size - excerptSize) = some a.size :=
      Text.advance?_eq hle (by omega) hbegins fun k hk hlt =>
        (Text.beginsAt_bytes t k).trans (hfirst k hk hlt)
    have hdrop : t.bytes.drop a.size = (excerpt t).bytes := by
      conv => lhs; rw [ht]
      exact Text.drop_bytes a (excerpt t)
    rw [hadvance, Option.map_some, hdrop]
  next hshort => rw [excerpt_of_le (Nat.le_of_not_lt hshort)]

/-- **An excerpt** is the longest end of a text that has 32 bytes at most. It is found in no more
than three moves over the bytes of the text. A text that is short enough is its own excerpt, and
that of a longer one has at least 29 bytes. -/
theorem excerpt_longest (t : Text) :
    (∀ moves, 3 ≤ moves → Text.cutExcerpt? moves t.bytes = some (excerpt t).bytes) ∧
      excerpt t <:+ t ∧ (excerpt t).size ≤ 32 ∧
      (∀ b : Text, b <:+ t → b.size ≤ 32 → b <:+ excerpt t) ∧
      (t.size ≤ 32 → excerpt t = t) ∧ (32 < t.size → 29 ≤ (excerpt t).size) := by
  obtain ⟨a, ht, hle, hnear, hfirst⟩ := excerpt_spec t
  have hsize : t.size = a.size + (excerpt t).size := by
    conv => lhs; rw [ht]
    exact Text.size_append a (excerpt t)
  have hbound : excerptSize = 32 := rfl
  refine ⟨fun _ => cutExcerpt?_bytes, ⟨a, ht.symm⟩, by omega, fun b hb hshort => ?_,
    fun hshort => excerpt_of_le hshort, fun hlong => by omega⟩
  obtain ⟨front, hfront⟩ := hb
  -- A cut in front of that of the excerpt would be at a boundary that is passed over.
  have hcut : Text.size a ≤ Text.size front := by
    refine Nat.le_of_not_lt fun hlt => ?_
    have hboundary : t.isBoundary (Text.size front) = true := hfront ▸ Text.isBoundary_size
    have hnone := hfirst _ (by rw [← hfront, Text.size_append]; omega) hlt
    rw [hboundary] at hnone
    cases hnone
  obtain ⟨middle, -, hmiddle⟩ := Text.exists_append_of_size_le (ht.symm.trans hfront.symm) hcut
  exact ⟨middle, hmiddle.symm⟩

/-- A cut behind the first byte of a character moves to its end, in three moves and no fewer. -/
theorem excerpt_longest_inside :
    let t : Text := '😀' :: List.replicate 29 'y'
    Text.cutExcerpt? 2 t.bytes = none ∧ Text.cutExcerpt? 3 t.bytes = some (excerpt t).bytes ∧
      excerpt t = List.replicate 29 'y' ∧
      ∀ b : Text, b <:+ t → b.size ≤ 32 → b <:+ List.replicate 29 'y' := by
  intro t
  have hexcerpt : excerpt t = List.replicate 29 'y' := by decide
  obtain ⟨hcut, -, -, hlongest, -⟩ := excerpt_longest t
  exact ⟨by decide, hcut 3 (Nat.le_refl 3), hexcerpt,
    fun b hb hshort => hexcerpt ▸ hlongest b hb hshort⟩

end Mustache
