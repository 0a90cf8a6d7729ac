import Mustache.Scan

/-!
# Cutting a text at the end of a part

Offsets count bytes, and a text may be cut inside a character. The offsets of tags are sizes of
parts of the text, and there the three cuts of `Text` give the parts back: what is in front
(`takeBytes_size`), what follows (`dropBytes_size`), and what stands between two such offsets
(`slice_size`).
-/

namespace Mustache

namespace Text

variable {a b c t : Text} {n : Nat}

/-- A text that is not empty has bytes. -/
theorem size_pos (h : t ≠ []) : 0 < size t := by
  cases t with
  | nil => exact absurd rfl h
  | cons c t =>
    have hc : 0 < c.utf8Size := c.utf8Size_pos
    rw [size_cons]
    omega

@[simp] theorem takeBytes_zero : takeBytes 0 t = [] := by
  cases t with
  | nil => rfl
  | cons c t =>
    have hc : 0 < c.utf8Size := c.utf8Size_pos
    rw [takeBytes, if_neg (by omega)]

@[simp] theorem dropBytes_zero : dropBytes 0 t = t := by
  cases t <;> rfl

/-- Bytes past the end of a part are taken from what follows it. -/
theorem takeBytes_append : takeBytes (size a + n) (a ++ b) = a ++ takeBytes n b := by
  induction a with
  | nil => rw [size_nil, Nat.zero_add, List.nil_append, List.nil_append]
  | cons c a ih =>
    have hsize : c.utf8Size + size a + n - c.utf8Size = size a + n := by omega
    rw [size_cons, List.cons_append, takeBytes, if_pos (by omega), hsize, ih, List.cons_append]

/-- Bytes past the end of a part are dropped from what follows it. -/
theorem dropBytes_append : dropBytes (size a + n) (a ++ b) = dropBytes n b := by
  induction a with
  | nil => rw [size_nil, Nat.zero_add, List.nil_append]
  | cons c a ih =>
    have hc : 0 < c.utf8Size := c.utf8Size_pos
    obtain ⟨m, hm⟩ : ∃ m, c.utf8Size + size a + n = m + 1 :=
      ⟨c.utf8Size + size a + n - 1, by omega⟩
    have hsize : m + 1 - c.utf8Size = size a + n := by omega
    rw [size_cons, List.cons_append, hm, dropBytes, hsize, ih]

/-- The text in front of the end of a part. -/
theorem takeBytes_size : takeBytes (size a) (a ++ b) = a := by
  have h : takeBytes (size a + 0) (a ++ b) = a ++ takeBytes 0 b := takeBytes_append
  rwa [takeBytes_zero, List.append_nil] at h

/-- The text behind the end of a part. -/
theorem dropBytes_size : dropBytes (size a) (a ++ b) = b := by
  have h : dropBytes (size a + 0) (a ++ b) = dropBytes 0 b := dropBytes_append
  rwa [dropBytes_zero] at h

/-- The text between the ends of two parts. -/
theorem slice_size : slice (size a) (size a + size b) (a ++ b ++ c) = b := by
  rw [slice, Nat.add_sub_cancel_left, List.append_assoc, dropBytes_size, takeBytes_size]

/-- Of two front parts of a text, one is a front part of the other, if it is no larger. -/
theorem exists_append_of_size_le {d : Text} (h : a ++ b = c ++ d) (hsize : size a ≤ size c) :
    ∃ e, c = a ++ e ∧ b = e ++ d := by
  rcases List.append_eq_append_iff.1 h with he | ⟨e, rfl, hd⟩
  · exact he
  · have hnil : e = [] := by
      refine Classical.byContradiction fun hne => ?_
      have := size_pos hne
      rw [size_append] at hsize
      omega
    subst hnil
    exact ⟨[], by rw [List.append_nil, List.append_nil], hd.symm⟩

end Text

/-- The first expression behind a part of a text is the first one of what follows. -/
theorem Expression.find?_size {d : Delimiters} {read rest : Text} :
    find? d (read ++ rest) (Text.size read) =
      (next? d rest).mapError fun fault => .malformed ⟨fault.cause, read ++ fault.read⟩ := by
  rw [find?, Text.dropBytes_size, Text.takeBytes_size]
  cases next? d rest <;> rfl

namespace Item

/-- The offset of the tag of an item that begins at `first`. -/
def start (i : Item) (first : Nat) : Nat :=
  first + Text.size i.before

/-- The offset just past the tag of an item that begins at `first`. -/
def stop (i : Item) (first : Nat) : Nat :=
  first + Text.size (i.before ++ i.mark)

/-- The offset just past an item that begins at `first`; it is where the tag ends if no line
vanishes. -/
def next (i : Item) (first : Nat) : Nat :=
  first + Text.size i.text

/-- A tag begins before its item ends. -/
theorem start_lt_next {i : Item} {first : Nat} (h : i.mark ≠ []) :
    i.start first < i.next first := by
  have := Text.size_pos h
  simp only [start, next, text, before, Text.size_append]
  omega

end Item

end Mustache
