import Mustache.Proofs.Bytes

/-!
# Character boundaries

An offset of a text is a boundary if it is the size of a front part: it does not lie behind the end,
and no character stands across it. Two offsets bound a part of the text if they are boundaries and
in order (`Text.IsPart`); `Text.part?` is the cut that is made there and nowhere else, where `slice`
makes some cut for any two numbers.

The sizes of the parts that a text is put together from bound those parts (`Text.part?_size`). The
other offset that a parse cuts at is that of an excerpt, which is moved up to the next boundary
(`Text.boundaryFrom_spec`).
-/

namespace Mustache

namespace Text

/-- An offset lies between two characters of a text, or at either end of it. -/
def isBoundary : Text → Nat → Bool
  | _, 0 => true
  | [], _ + 1 => false
  | c :: t, n + 1 => decide (c.utf8Size ≤ n + 1) && isBoundary t (n + 1 - c.utf8Size)

/-- Two offsets bound a part of a text. -/
structure IsPart (t : Text) (first last : Nat) : Prop where
  ordered : first ≤ last
  begins : isBoundary t first = true
  ends : isBoundary t last = true

instance (t : Text) (first last : Nat) : Decidable (IsPart t first last) :=
  decidable_of_iff (first ≤ last ∧ isBoundary t first = true ∧ isBoundary t last = true)
    ⟨fun ⟨h, hf, hl⟩ => ⟨h, hf, hl⟩, fun ⟨h, hf, hl⟩ => ⟨h, hf, hl⟩⟩

/-- The part of a text that two offsets bound. -/
def part? (first last : Nat) (t : Text) : Option Text :=
  if IsPart t first last then some (slice first last t) else none

/-- The first boundary at or after an offset. -/
def boundaryFrom (n : Nat) (t : Text) : Nat :=
  if isBoundary t n ∨ size t ≤ n then n else boundaryFrom (n + 1) t
termination_by size t - n

variable {a b c t : Text} {first last m n : Nat}

/-- The end of a front part is a boundary. -/
theorem isBoundary_size : isBoundary (a ++ b) (size a) = true := by
  induction a with
  | nil => cases b <;> rfl
  | cons x a ih =>
    have hx : 0 < x.utf8Size := x.utf8Size_pos
    obtain ⟨m, hm⟩ : ∃ m, x.utf8Size + size a = m + 1 := ⟨x.utf8Size + size a - 1, by omega⟩
    have hsize : m + 1 - x.utf8Size = size a := by omega
    rw [size_cons, List.cons_append, hm, isBoundary, hsize, ih, Bool.and_true, decide_eq_true_eq]
    omega

/-- Boundaries are the ends of the front parts of a text. -/
theorem isBoundary_iff : isBoundary t n = true ↔ ∃ a b, t = a ++ b ∧ n = size a := by
  refine ⟨fun h => ?_, fun ⟨a, b, ht, hn⟩ => ht ▸ hn ▸ isBoundary_size⟩
  fun_induction isBoundary t n with
  | case1 t => exact ⟨[], t, rfl, rfl⟩
  | case2 => cases h
  | case3 x t n ih =>
    obtain ⟨hx, ht⟩ := Bool.and_eq_true_iff.1 h
    obtain ⟨a, b, rfl, hn⟩ := ih ht
    have hle : x.utf8Size ≤ n + 1 := of_decide_eq_true hx
    exact ⟨x :: a, b, rfl, by rw [size_cons]; omega⟩

/-- No boundary lies behind the end. -/
theorem le_size_of_isBoundary (h : isBoundary t n = true) : n ≤ size t := by
  obtain ⟨a, b, rfl, rfl⟩ := isBoundary_iff.1 h
  rw [size_append]
  omega

/-- Two offsets bound a part of a text if the text is put together from it and what is on either
side of it. -/
theorem isPart_iff : IsPart t first last ↔
    ∃ a b c, t = a ++ b ++ c ∧ first = size a ∧ last = size a + size b := by
  constructor
  · rintro ⟨hle, hfirst, hlast⟩
    obtain ⟨a, r, rfl, rfl⟩ := isBoundary_iff.1 hfirst
    obtain ⟨ab, c, htext, rfl⟩ := isBoundary_iff.1 hlast
    rcases List.append_eq_append_iff.1 htext with ⟨b, rfl, -⟩ | ⟨b, rfl, hr⟩
    · exact ⟨a, b, c, by rw [← htext], rfl, size_append a b⟩
    · -- The longer part is in front, so that the two offsets are the same.
      rw [size_append] at hle ⊢
      have hb : b = [] := Classical.byContradiction fun h => by
        have := size_pos h
        omega
      subst hb
      exact ⟨ab, [], r, by simp, by simp, by simp⟩
  · rintro ⟨a, b, c, rfl, rfl, rfl⟩
    refine ⟨by omega, ?_, ?_⟩
    · rw [List.append_assoc]
      exact isBoundary_size
    · rw [← size_append]
      exact isBoundary_size

/-- The ends of two parts bound what stands between them. -/
theorem part?_size : part? (size a) (size a + size b) (a ++ b ++ c) = some b := by
  rw [part?, if_pos (isPart_iff.2 ⟨a, b, c, rfl, rfl, rfl⟩), slice_size]

/-- The first boundary is the one that none stands in front of. -/
theorem boundaryFrom_eq (h : n ≤ m) (hm : isBoundary t m = true)
    (hfirst : ∀ k, n ≤ k → k < m → isBoundary t k = false) : boundaryFrom n t = m := by
  fun_induction boundaryFrom n t with
  | case1 n hstop =>
    rcases Nat.lt_or_eq_of_le h with hlt | heq
    · have hle := le_size_of_isBoundary hm
      rw [hfirst n (Nat.le_refl n) hlt] at hstop
      rcases hstop with hstop | hstop
      · cases hstop
      · omega
    · exact heq
  | case2 n hstop ih =>
    have hne : n ≠ m := by
      rintro rfl
      exact hstop (.inl hm)
    exact ih (by omega) fun k hk => hfirst k (by omega)

/-- What is left when bytes are dropped begins at a boundary: the first one behind them, and no
further away than the bytes of a character but one. -/
theorem dropBytes_spec (h : n ≤ size t) : ∃ a, t = a ++ dropBytes n t ∧ n ≤ size a ∧
    size a ≤ n + 3 ∧ ∀ k, n ≤ k → k < size a → isBoundary t k = false := by
  fun_induction dropBytes n t with
  | case1 n =>
    exact ⟨[], rfl, h, Nat.zero_le _, fun k _ hk => absurd hk (Nat.not_lt_zero k)⟩
  | case2 x t =>
    exact ⟨[], rfl, Nat.le_refl 0, Nat.zero_le _, fun k _ hk => absurd hk (Nat.not_lt_zero k)⟩
  | case3 n x t ih =>
    rw [size_cons] at h
    obtain ⟨a, ht, hle, hfar, hnone⟩ := ih (by omega)
    have hx : x.utf8Size ≤ 4 := x.utf8Size_le_four
    refine ⟨x :: a, congrArg (x :: ·) ht, ?_, ?_, fun k hk hlt => ?_⟩
    · rw [size_cons]
      omega
    · -- If the bytes end inside `x`, nothing is dropped behind it.
      have hzero : n + 1 ≤ x.utf8Size → size a = 0 := fun hend =>
        Nat.eq_zero_of_not_pos fun hpos => by
          have hfalse := hnone 0 (by omega) hpos
          rw [isBoundary] at hfalse
          cases hfalse
      rw [size_cons]
      omega
    · rw [size_cons] at hlt
      obtain ⟨j, rfl⟩ : ∃ j, k = j + 1 := ⟨k - 1, by omega⟩
      by_cases hx : x.utf8Size ≤ j + 1
      · rw [isBoundary, hnone _ (by omega) (by omega), Bool.and_false]
      · rw [isBoundary, decide_eq_false hx, Bool.false_and]

/-- What is left when bytes are dropped begins at the first boundary behind them. -/
theorem boundaryFrom_spec (h : n ≤ size t) :
    ∃ a, t = a ++ dropBytes n t ∧ boundaryFrom n t = size a := by
  obtain ⟨a, ht, hle, -, hnone⟩ := dropBytes_spec h
  refine ⟨a, ht, boundaryFrom_eq hle ?_ hnone⟩
  conv => rw [ht]
  exact isBoundary_size

end Text

end Mustache
