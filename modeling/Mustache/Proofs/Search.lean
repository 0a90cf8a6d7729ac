import Mustache.Delimiters

/-!
# First occurrences

`Text.cut?` splits a text around the first occurrence of another. `Text.Clear` says the same of the
text in front of the occurrence alone, so that a search can be moved from one text to another that
agrees with it up to the occurrence (`cut?_eq_some_iff`): neither what follows nor how much of it
there is has a say.

The texts that tags are written between are `Solid`, without white space. No occurrence of such a
text begins inside white space, so that white space in front of a text does not change what is
found in it (`clear_append_iff`, `infix_append_iff`).
-/

namespace Mustache

namespace Text

variable {p t u w x a b : Text}

/-- A text begins with what can be taken off its front, and only then. -/
theorem strip?_eq_none_iff : strip? p t = none ↔ ¬ p <+: t := by
  constructor
  · rintro h ⟨rest, rfl⟩
    rw [strip?_eq_some.2 rfl] at h
    cases h
  · intro h
    cases hs : strip? p t with
    | none => rfl
    | some rest => exact absurd ⟨rest, (strip?_eq_some.1 hs).symm⟩ h

/-! ## The text in front of an occurrence -/

/-- No occurrence of `p` begins inside `x`: if `p` follows `x`, it is found there and not before. -/
def Clear (p x : Text) : Prop :=
  ∀ a b, x ++ p = a ++ p ++ b → b = []

/-- No occurrence begins inside the empty text. -/
theorem clear_nil (p : Text) : Clear p [] := by
  intro a b h
  have := congrArg List.length h
  simp only [List.nil_append, List.length_append] at this
  exact List.length_eq_zero_iff.1 (by omega)

/-- If no occurrence begins inside a text, none begins inside an end of it. -/
theorem Clear.of_append (h : Clear p (w ++ x)) : Clear p x := by
  intro a b hx
  refine h (w ++ a) b ?_
  rw [List.append_assoc, hx]
  simp only [List.append_assoc]

/-- An occurrence that begins inside a text is seen at its first character or further on. -/
theorem clear_cons_iff {c : Char} :
    Clear p (c :: x) ↔ ¬ p <+: c :: x ++ p ∧ Clear p x := by
  constructor
  · intro h
    refine ⟨fun ⟨r, hr⟩ => ?_, Clear.of_append (w := [c]) h⟩
    have hnil := h [] r (by simpa using hr.symm)
    rw [hnil] at hr
    have := congrArg List.length hr
    simp only [List.append_nil, List.length_append, List.length_cons] at this
    omega
  · rintro ⟨hfront, hx⟩ a b h
    cases a with
    | nil => exact absurd ⟨b, h.symm⟩ hfront
    | cons d a =>
      rw [List.cons_append, List.cons_append, List.cons_append, List.cons.injEq] at h
      exact hx a b h.2

/-- A text begins with `p` if what is left of it after `p` does, and it is long enough. -/
theorem prefix_append_self (h : p <+: x ++ p ++ b) : p <+: x ++ p := by
  refine List.prefix_of_prefix_length_le h (List.prefix_append _ _) ?_
  simp

/-- The first occurrence of `p` is where nothing in front of it begins another. -/
theorem cut?_eq_some_iff : cut? p t = some (a, b) ↔ Clear p a ∧ t = a ++ p ++ b := by
  constructor
  · intro h
    refine ⟨?_, eq_of_cut?_eq_some h⟩
    induction t generalizing a with
    | nil =>
      simp only [cut?, Option.map_eq_some_iff, Prod.mk.injEq] at h
      obtain ⟨-, -, rfl, -⟩ := h
      exact clear_nil p
    | cons c t ih =>
      simp only [cut?] at h
      split at h
      next =>
        obtain ⟨rfl, -⟩ : [] = a ∧ _ := by simpa using h
        exact clear_nil p
      next hstrip =>
        simp only [Option.map_eq_some_iff, Prod.exists, Prod.mk.injEq] at h
        obtain ⟨a', b', hcut, rfl, rfl⟩ := h
        refine clear_cons_iff.2 ⟨fun hp => ?_, ih hcut⟩
        refine strip?_eq_none_iff.1 hstrip (hp.trans ⟨b', ?_⟩)
        rw [eq_of_cut?_eq_some hcut]
        simp
  · rintro ⟨hclear, rfl⟩
    induction a with
    | nil =>
      rw [List.nil_append]
      cases hpb : p ++ b with
      | nil =>
        obtain ⟨rfl, rfl⟩ := List.append_eq_nil_iff.1 hpb
        rfl
      | cons c t => rw [cut?, ← hpb, strip?_eq_some.2 rfl]
    | cons c a ih =>
      obtain ⟨hfront, ha⟩ := clear_cons_iff.1 hclear
      have hstrip : strip? p (c :: (a ++ p ++ b)) = none :=
        strip?_eq_none_iff.2 fun h => hfront (prefix_append_self (x := c :: a) h)
      rw [List.cons_append, List.cons_append, cut?, hstrip, ih ha]
      rfl

/-- Nothing is found where there is no occurrence. -/
theorem cut?_eq_none_iff : cut? p t = none ↔ ¬ p <:+: t := by
  constructor
  · rintro h ⟨a, b, rfl⟩
    induction a with
    | nil =>
      cases hpb : p ++ b with
      | nil =>
        obtain ⟨rfl, rfl⟩ := List.append_eq_nil_iff.1 hpb
        rw [List.nil_append, hpb] at h
        cases h
      | cons c t =>
        rw [List.nil_append, hpb, cut?, ← hpb, strip?_eq_some.2 rfl] at h
        cases h
    | cons c a ih =>
      rw [List.cons_append, List.cons_append, cut?] at h
      split at h
      · cases h
      · exact ih (Option.map_eq_none_iff.1 h)
  · intro h
    cases hcut : cut? p t with
    | none => rfl
    | some ab =>
      obtain ⟨a, b⟩ := ab
      exact absurd ⟨a, b, (eq_of_cut?_eq_some hcut).symm⟩ h

/-- The first occurrence is at the end of `x ++ p` if none begins inside `x`. -/
theorem clear_iff_cut? : Clear p x ↔ cut? p (x ++ p) = some (x, []) := by
  simp [cut?_eq_some_iff]

instance (p x : Text) : Decidable (Clear p x) :=
  decidable_of_iff _ clear_iff_cut?.symm

/-- A text in which `p` does not begin does not hold it either. -/
theorem Clear.not_occurs (hp : p ≠ []) (h : Clear p x) : ¬ p <:+: x := by
  rintro ⟨a, b, rfl⟩
  have hnil := h a (b ++ p) (by simp)
  exact hp (List.append_eq_nil_iff.1 hnil).2

/-! ## White space -/

/-- A text of white space. -/
def White (w : Text) : Prop :=
  ∀ c ∈ w, isSpace c = true

instance (w : Text) : Decidable (White w) :=
  List.decidableBAll _ w

/-- The empty text is white. -/
theorem white_nil : White [] := nofun

/-- A text that is not empty and holds no white space. -/
def Solid (p : Text) : Prop :=
  p ≠ [] ∧ ∀ c ∈ p, isSpace c = false

instance (p : Text) : Decidable (Solid p) :=
  have : Decidable (∀ c ∈ p, isSpace c = false) := List.decidableBAll _ p
  inferInstanceAs (Decidable (_ ∧ _))

/-- A solid text does not begin with white space. -/
theorem Solid.not_prefix_cons (hp : Solid p) {c : Char} (hc : isSpace c = true) :
    ¬ p <+: c :: x := by
  rintro ⟨r, hr⟩
  cases p with
  | nil => exact hp.1 rfl
  | cons d p =>
    obtain ⟨rfl, -⟩ := List.cons.inj hr
    rw [hp.2 d (.head _)] at hc
    cases hc

/-- No occurrence of a solid text begins inside white space. -/
theorem clear_append_iff (hp : Solid p) (hw : White w) : Clear p (w ++ x) ↔ Clear p x := by
  induction w with
  | nil => rfl
  | cons c w ih =>
    have hc : isSpace c = true := hw c (.head _)
    rw [List.cons_append, clear_cons_iff, ih fun c h => hw c (.tail _ h)]
    exact and_iff_right (hp.not_prefix_cons hc)

/-- A solid text that occurs behind white space occurs without it. -/
theorem infix_append_iff (hp : Solid p) (hw : White w) : p <:+: w ++ x ↔ p <:+: x := by
  induction w with
  | nil => rfl
  | cons c w ih =>
    have hc : isSpace c = true := hw c (.head _)
    rw [List.cons_append, List.infix_cons_iff, ih fun c h => hw c (.tail _ h)]
    exact or_iff_right (hp.not_prefix_cons hc)

/-- A solid text that does not occur in a text does not begin in it and reach over white space. -/
theorem Solid.not_prefix_append (hp : Solid p) {c : Char} (hc : isSpace c = true)
    (h : ¬ p <:+: x) : ¬ p <+: x ++ c :: t := by
  intro hbegins
  rcases Nat.lt_or_ge x.length p.length with hlong | hshort
  · have hover : x ++ [c] <+: p := by
      refine List.prefix_of_prefix_length_le ⟨t, by simp⟩ hbegins ?_
      rw [List.length_append, List.length_singleton]
      omega
    have hmem : c ∈ p := hover.subset (List.mem_append_right _ (.head _))
    rw [hp.2 c hmem] at hc
    cases hc
  · exact h (List.prefix_of_prefix_length_le hbegins (List.prefix_append _ _) hshort).isInfix

/-- A solid text that does not occur in a text does not begin in it if white space follows. -/
theorem clear_of_not_infix (hp : Solid p) {c : Char} (hc : isSpace c = true) (h : ¬ p <:+: x) :
    Clear p (x ++ [c]) := by
  induction x with
  | nil => exact clear_cons_iff.2 ⟨hp.not_prefix_cons hc, clear_nil p⟩
  | cons a x ih =>
    refine clear_cons_iff.2 ⟨fun hbegins => ?_, ih fun hin => h (List.infix_cons hin)⟩
    exact hp.not_prefix_append (t := p) hc h (by simpa using hbegins)

/-- The search for `p` in `x ++ t` is the search in `t`. -/
def Passes (p x t : Text) : Prop :=
  cut? p (x ++ t) = (cut? p t).map fun (before, after) => (x ++ before, after)

/-- The search for a solid text passes over white space. -/
theorem passes_white (hp : Solid p) (hw : White w) : Passes p w t := by
  unfold Passes
  cases h : cut? p t with
  | none =>
    refine cut?_eq_none_iff.2 fun hin => cut?_eq_none_iff.1 h ?_
    exact (infix_append_iff hp hw).1 hin
  | some ab =>
    obtain ⟨a, b⟩ := ab
    obtain ⟨ha, rfl⟩ := cut?_eq_some_iff.1 h
    refine cut?_eq_some_iff.2 ⟨(clear_append_iff hp hw).2 ha, ?_⟩
    simp only [List.append_assoc]

/-- The search passes over two texts if it passes over each. -/
theorem Passes.append (hx : Passes p x (w ++ t)) (hw : Passes p w t) : Passes p (x ++ w) t := by
  unfold Passes at *
  rw [List.append_assoc, hx, hw, Option.map_map]
  congr 1
  funext ⟨before, after⟩
  simp only [Function.comp_apply, List.append_assoc]

/-- The search passes over a character that no occurrence begins with. -/
theorem passes_cons {c : Char} (h : ¬ p <+: c :: t) : Passes p [c] t := by
  unfold Passes
  rw [List.singleton_append, cut?, strip?_eq_none_iff.2 h]
  rfl

/-- The search passes over a text without the character that occurrences begin with. -/
theorem passes_of_not_mem {c : Char} (h : c ∉ x) : Passes (c :: p) x t := by
  induction x with
  | nil =>
    show cut? (c :: p) t = (cut? (c :: p) t).map id
    rw [Option.map_id_fun, id]
  | cons a x ih =>
    have hfront : ¬ c :: p <+: a :: (x ++ t) := fun hbegins =>
      h ((List.cons_prefix_cons.1 hbegins).1 ▸ .head _)
    exact Passes.append (x := [a]) (passes_cons hfront) (ih fun hin => h (.tail _ hin))

/-- The search for a solid text passes over a text that does not hold it and white space behind that
text, whatever follows. -/
theorem passes_space (hp : Solid p) {c : Char} (hc : isSpace c = true) (h : ¬ p <:+: x) :
    Passes p (x ++ [c]) t := by
  induction x with
  | nil => exact passes_white hp (List.forall_mem_singleton.2 hc)
  | cons a x ih =>
    refine Passes.append (x := [a]) (passes_cons ?_) (ih fun hin => h (List.infix_cons hin))
    have hbegins : ¬ p <+: a :: x ++ c :: t := hp.not_prefix_append hc h
    simpa using hbegins

/-- The search passes over a text that no occurrence begins in, if an occurrence or nothing at all
follows. -/
theorem passes_clear (hp : p ≠ []) (hx : Clear p x) (ht : t = [] ∨ p <+: t) : Passes p x t := by
  unfold Passes
  rcases ht with rfl | ⟨r, rfl⟩
  · have hnil : cut? p [] = none := cut?_eq_none_iff.2 fun h => hp (List.infix_nil.1 h)
    rw [hnil, List.append_nil]
    exact cut?_eq_none_iff.2 (hx.not_occurs hp)
  · have hfront : cut? p (p ++ r) = some ([], r) := cut?_eq_some_iff.2 ⟨clear_nil p, rfl⟩
    rw [hfront]
    exact cut?_eq_some_iff.2 ⟨by simpa using hx, by simp⟩

/-! ## Pieces -/

/-- The pieces of a text are the parts that it is split into at the characters of the class. -/
theorem pieces_eq_splitOnP (f : Char → Bool) (t : Text) : pieces f t = t.splitOnP f := by
  induction t with
  | nil => rfl
  | cons c t ih =>
    rw [List.splitOnP_cons_eq_if_modifyHead, pieces, ih]
    split
    · rfl
    · cases h : t.splitOnP f with
      | nil => exact absurd h (List.splitOnP_ne_nil f t)
      | cons x xs => rfl

/-- The pieces between the occurrences of a character are the parts that a text is split into
there. -/
theorem pieces_eq_splitOn (c : Char) (t : Text) : pieces (· == c) t = t.splitOn c := by
  rw [pieces_eq_splitOnP, List.splitOn_eq_splitOnP]

/-- The pieces on either side of an occurrence of the character. -/
theorem pieces_append (c : Char) (a b : Text) : pieces (· == c) (a ++ c :: b) =
    pieces (· == c) a ++ pieces (· == c) b := by
  simp only [pieces_eq_splitOn, List.splitOn_append_cons_self]

/-- The pieces of a text hold none of the characters that it is split at. -/
theorem not_of_mem_pieces {f : Char → Bool} {x : Text} (hx : x ∈ pieces f t) :
    ∀ c ∈ x, f c = false := by
  induction t generalizing x with
  | nil =>
    obtain rfl := List.mem_singleton.1 hx
    exact fun c hc => absurd hc List.not_mem_nil
  | cons c t ih =>
    simp only [pieces] at hx
    split at hx
    next =>
      rcases List.mem_cons.1 hx with rfl | hx
      · exact fun c hc => absurd hc List.not_mem_nil
      · exact ih hx
    next hc =>
      have hfalse : f c = false := Bool.eq_false_iff.2 hc
      split at hx
      next =>
        obtain rfl := List.mem_singleton.1 hx
        simpa using hfalse
      next y ys hpieces =>
        rcases List.mem_cons.1 hx with rfl | hx
        · intro a ha
          rcases List.mem_cons.1 ha with rfl | ha
          · exact hfalse
          · exact ih (hpieces ▸ List.mem_cons_self) a ha
        · exact ih (hpieces ▸ List.mem_cons_of_mem _ hx)

/-- The words of a text are solid. -/
theorem solid_of_mem_words (h : x ∈ words t) : Solid x := by
  obtain ⟨hx, hne⟩ := List.mem_filter.1 h
  exact ⟨by simpa using hne, not_of_mem_pieces hx⟩

end Text

/-- The two texts of a pair are not empty and hold no white space. -/
def Delimiters.Solid (d : Delimiters) : Prop :=
  Text.Solid d.start ∧ Text.Solid d.stop

instance (d : Delimiters) : Decidable d.Solid :=
  inferInstanceAs (Decidable (_ ∧ _))

/-- A delimiter change names solid texts. -/
theorem Delimiters.solid_of_ofContent? {content : Text} {d : Delimiters}
    (h : ofContent? content = some d) : d.Solid := by
  unfold ofContent? at h
  split at h
  next start stop hwords =>
    have hsolid : ∀ x ∈ [start, stop], Text.Solid x := fun x hx =>
      Text.solid_of_mem_words (hwords ▸ hx)
    split at h
    · cases h
    · cases h
      exact ⟨hsolid start (.head _), hsolid stop (.tail _ (.head _))⟩
  next => cases h

end Mustache
