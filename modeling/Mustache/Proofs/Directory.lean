import Mustache.Loading
import Mustache.Proofs.Search

/-!
# Directories

The directory of a path has the components of the path without the last one, however the path is
written (`Path.components_directory`): the empty pieces and the dots that are cut off with the last
component write no steps. And a file that is looked for in a directory has the components of the
directory and one more, its name (`components_partialPath`), if there is no slash in that name.

So a file that refers to a partial by such a name, and is itself the file of such a partial, has it
looked for in the directory that it was looked for in (`directory_partialPath`), perhaps written in
another way.
-/

namespace Mustache

namespace Text

/-- Texts one after another, and then others, with a text between any two of them. -/
theorem intercalate_append (s : Text) {xs ys : List Text} (hx : xs ≠ []) (hy : ys ≠ []) :
    s.intercalate (xs ++ ys) = s.intercalate xs ++ s ++ s.intercalate ys := by
  obtain ⟨y, ys, rfl⟩ := List.exists_cons_of_ne_nil hy
  induction xs with
  | nil => exact absurd rfl hx
  | cons x xs ih =>
    cases xs with
    | nil => rw [List.singleton_append, List.intercalate_cons_cons, List.intercalate_singleton]
    | cons z xs =>
      rw [List.cons_append, List.cons_append, List.intercalate_cons_cons, ← List.cons_append,
        ih (List.cons_ne_nil z xs), List.intercalate_cons_cons]
      simp only [List.append_assoc]

/-- The parts between the slashes of a text make up the text. -/
theorem intercalate_pieces (t : Text) : ['/'].intercalate (pieces (· == '/') t) = t := by
  rw [pieces_eq_splitOn]
  exact List.intercalate_splitOn '/'

/-- Parts without slashes are the pieces of the text that they make up. -/
theorem pieces_intercalate {xs : List Text} (h : ∀ x ∈ xs, '/' ∉ x) (hne : xs ≠ []) :
    pieces (· == '/') (['/'].intercalate xs) = xs := by
  rw [pieces_eq_splitOn]
  exact List.splitOn_intercalate '/' h hne

end Text

namespace Path

variable {p dir : Path} {a b name : Text} {front back : List Text}

/-- The step that the anchor of a path writes. -/
def anchorSteps (anchor : Text) : List Component :=
  if anchor = ['/'] then [.root] else if anchor = ['.'] then [.here] else []

/-- The steps that pieces write. -/
def pieceSteps (pieces : List Text) : List Component :=
  pieces.filterMap Component.ofPiece?

/-- The components of a path are the steps of its anchor and of its pieces. -/
theorem components_eq (p : Path) :
    p.components = anchorSteps p.split.1 ++ pieceSteps p.pieces := rfl

/-- The pieces of some texts write the steps of both. -/
theorem pieceSteps_append : pieceSteps (front ++ back) = pieceSteps front ++ pieceSteps back :=
  List.filterMap_append

/-- An anchor alone writes its step and no others. -/
theorem components_anchor (p : Path) : components ⟨p.split.1⟩ = anchorSteps p.split.1 := by
  unfold split
  split <;> rfl

/-- The anchor of a path and its body make up the path. -/
theorem split_append (p : Path) : p.split.1 ++ p.split.2 = p.text := by
  unfold split
  split
  next body h => exact h.symm
  next h => exact h.symm
  next body h => exact h.symm
  next => rfl

/-- What follows a slash inside a path belongs to the body. -/
theorem split_append_slash (h : a ≠ []) :
    split ⟨a ++ '/' :: b⟩ = ((split ⟨a⟩).1, (split ⟨a⟩).2 ++ '/' :: b) := by
  obtain ⟨c, a, rfl⟩ := List.exists_cons_of_ne_nil h
  by_cases hslash : c = '/'
  · subst hslash; rfl
  by_cases hdot : c = '.'
  · subst hdot
    cases a with
    | nil => rfl
    | cons x a =>
      by_cases hx : x = '/'
      · subst hx; rfl
      · simp [split, hx]
  · simp [split, hslash, hdot]

/-- The components on either side of a slash inside a path. -/
theorem components_append_slash (h : a ≠ []) : components ⟨a ++ '/' :: b⟩ =
    components ⟨a⟩ ++ pieceSteps (Text.pieces (· == '/') b) := by
  simp only [components_eq, pieces, split_append_slash h, Text.pieces_append, pieceSteps_append,
    List.append_assoc]

/-! ## The directory of a path -/

/-- The pieces that are cut off at the end write no steps. -/
theorem exists_trimPieces (pieces : List Text) :
    ∃ cut, pieces = trimPieces pieces ++ cut ∧ pieceSteps cut = [] := by
  let blank : Text → Bool := fun piece => (Component.ofPiece? piece).isNone
  refine ⟨(pieces.reverse.takeWhile blank).reverse, ?_, ?_⟩
  · rw [trimPieces, ← List.reverse_append, List.takeWhile_append_dropWhile, List.reverse_reverse]
  · refine List.filterMap_eq_nil_iff.2 fun piece hpiece => ?_
    have hall := List.all_eq_true.1 (List.all_takeWhile (p := blank) (l := pieces.reverse))
    exact Option.isNone_iff_eq_none.1 (hall piece (List.mem_reverse.1 hpiece))

/-- The last of the pieces that are left writes a step. -/
theorem exists_step_of_trimPieces {pieces : List Text} {last : Text}
    (h : trimPieces pieces = front ++ [last]) : ∃ s, Component.ofPiece? last = some s := by
  have hhead := List.head?_dropWhile_not
    (fun piece => (Component.ofPiece? piece).isNone) pieces.reverse
  rw [trimPieces, List.reverse_eq_iff, List.reverse_append] at h
  rw [h] at hhead
  exact Option.isSome_iff_exists.1 (by simpa using hhead)

/-- The first pieces of a path, put together behind its anchor, write their steps. -/
theorem components_front (h : p.pieces = front ++ back) :
    components ⟨p.split.1 ++ ['/'].intercalate front⟩ =
      anchorSteps p.split.1 ++ pieceSteps front := by
  by_cases hfront : front = []
  · subst hfront
    rw [List.intercalate_nil, List.append_nil]
    exact (components_anchor p).trans (List.append_nil _).symm
  have hbody : ['/'].intercalate (front ++ back) = p.split.2 := h ▸ Text.intercalate_pieces _
  by_cases hback : back = []
  · subst hback
    rw [List.append_nil] at h hbody
    rw [hbody, split_append, components_eq, h]
  · -- The pieces behind the first ones begin with a slash, which is not the first letter of the
    -- path: then it would be the anchor.
    have htext : p.text =
        p.split.1 ++ ['/'].intercalate front ++ '/' :: ['/'].intercalate back := by
      rw [← split_append, ← hbody, Text.intercalate_append _ hfront hback]
      simp only [List.append_assoc, List.singleton_append]
    have hne : p.split.1 ++ ['/'].intercalate front ≠ [] := by
      intro hnil
      have hanchor : p.split.1 = [] := (List.append_eq_nil_iff.1 hnil).1
      rw [hnil, List.nil_append] at htext
      simp [split, htext] at hanchor
    have hslash : ∀ x ∈ back, '/' ∉ x := fun x hx hmem => by
      have hx' : x ∈ p.pieces := h ▸ List.mem_append_right _ hx
      exact absurd (Text.not_of_mem_pieces hx' _ hmem) (by decide)
    have hwhole := components_append_slash (b := ['/'].intercalate back) hne
    rw [← htext, Text.pieces_intercalate hslash hback] at hwhole
    refine List.append_cancel_right (hwhole.symm.trans ?_)
    rw [List.append_assoc, ← pieceSteps_append, ← h]
    rfl

/-- The parent of a path, if its pieces write steps. -/
theorem parent?_of_trimPieces {last : Text} (h : trimPieces p.pieces = front ++ [last]) :
    p.parent? = some ⟨p.split.1 ++ ['/'].intercalate (trimPieces front)⟩ := by
  unfold parent?
  rw [h]
  cases front with
  | nil => rfl
  | cons x front =>
    rw [List.cons_append]
    dsimp only
    rw [← List.cons_append, List.dropLast_concat]

/-- **The directory of a path** has its components but the last one. -/
theorem components_directory (p : Path) : p.directory.components = p.components.dropLast := by
  obtain ⟨cut, hcut, hnone⟩ := exists_trimPieces p.pieces
  have hsteps : pieceSteps p.pieces = pieceSteps (trimPieces p.pieces) := by
    conv => lhs; rw [hcut, pieceSteps_append, hnone, List.append_nil]
  rw [components_eq p, hsteps]
  rcases List.eq_nil_or_concat (trimPieces p.pieces) with hnil | ⟨front, last, hlast⟩
  · have hempty : p.directory = ⟨[]⟩ := by
      rw [directory, parent?, hnil]
      dsimp only
      split <;> rfl
    rw [hempty, hnil, anchorSteps]
    split
    · rfl
    · split <;> rfl
  · rw [List.concat_eq_append] at hlast
    obtain ⟨junk, hjunk, hnothing⟩ := exists_trimPieces front
    obtain ⟨step, hstep⟩ := exists_step_of_trimPieces hlast
    have hpieces : p.pieces = trimPieces front ++ (junk ++ [last] ++ cut) := by
      rw [hcut, hlast]
      conv => lhs; rw [hjunk]
      simp only [List.append_assoc]
    have hfront : pieceSteps front = pieceSteps (trimPieces front) := by
      conv => lhs; rw [hjunk, pieceSteps_append, hnothing, List.append_nil]
    have hlast' : pieceSteps [last] = [step] := by simp only [pieceSteps, hstep, List.filterMap]
    rw [directory, parent?_of_trimPieces hlast, Option.getD_some, components_front hpieces, hlast,
      pieceSteps_append, hlast', ← List.append_assoc, List.dropLast_concat, hfront]

/-! ## A file in a directory -/

/-- A name without a slash that writes a step has no anchor. -/
theorem split_name (hslash : '/' ∉ name) (hstep : Component.ofPiece? name = some (.name name)) :
    split ⟨name⟩ = ([], name) := by
  unfold split
  split
  next body h =>
    obtain rfl : name = '/' :: body := h
    exact absurd (.head _) hslash
  next h =>
    obtain rfl : name = ['.'] := h
    cases hstep
  next body h =>
    obtain rfl : name = '.' :: '/' :: body := h
    exact absurd (.tail _ (.head _)) hslash
  next => rfl

/-- A name is the only piece of its text if there is no slash in it. -/
theorem pieces_name (hslash : '/' ∉ name) : Text.pieces (· == '/') name = [name] := by
  rw [Text.pieces_eq_splitOn]
  exact List.splitOn_eq_singleton hslash

/-- **A file in a directory** has the components of the directory and its own name. -/
theorem components_join (hslash : '/' ∉ name)
    (hstep : Component.ofPiece? name = some (.name name)) :
    (dir.join ⟨name⟩).components = dir.components ++ [.name name] := by
  have hsteps : pieceSteps [name] = [.name name] := by
    simp only [pieceSteps, hstep, List.filterMap]
  have hrelative : isAbsolute ⟨name⟩ = false := by
    rw [isAbsolute, split_name hslash hstep]
    rfl
  -- Behind a slash that a path ends with, or that is put at its end, the name is one more piece.
  have hbehind : ∀ a, a ≠ [] →
      components ⟨a ++ '/' :: name⟩ = components ⟨a⟩ ++ [.name name] := fun a ha => by
    rw [components_append_slash ha, pieces_name hslash, hsteps]
  unfold join
  rw [hrelative, if_neg Bool.false_ne_true]
  split
  next h =>
    by_cases hempty : dir.text = []
    · obtain rfl : dir = ⟨[]⟩ := congrArg Path.mk hempty
      rw [List.nil_append, components_eq, pieces, split_name hslash hstep, pieces_name hslash,
        hsteps]
      rfl
    · obtain ⟨a, ha⟩ := List.getLast?_eq_some_iff.1 (h.resolve_left hempty)
      obtain rfl : dir = ⟨a ++ ['/']⟩ := congrArg Path.mk ha
      rw [List.append_assoc, List.singleton_append]
      by_cases hroot : a = []
      · subst hroot
        have hbelow : components ⟨'/' :: name⟩ =
            .root :: pieceSteps (Text.pieces (· == '/') name) := rfl
        rw [List.nil_append, hbelow, pieces_name hslash, hsteps]
        rfl
      · rw [hbehind a hroot, components_append_slash hroot]
        exact congrArg (· ++ _) (List.append_nil _).symm
  next h =>
    obtain ⟨hne, -⟩ := not_or.1 h
    exact hbehind _ hne

end Path

/-! ## The file of a partial -/

variable {dir : Path} {name : Text}

/-- The file of a partial is one step below the directory that it is looked for in. -/
theorem components_partialPath (h : '/' ∉ name) : (partialPath dir name).components =
    dir.components ++ [.name (name ++ ".mustache".toList)] := by
  have hslash : '/' ∉ name ++ ".mustache".toList := by
    rw [List.mem_append, not_or]
    exact ⟨h, by decide⟩
  have hlong : 2 < (name ++ ".mustache".toList).length := by
    rw [List.length_append]
    exact Nat.lt_of_lt_of_le (by decide) (Nat.le_add_left ..)
  refine Path.components_join hslash ?_
  unfold Path.Component.ofPiece?
  split
  next hshort => rcases hshort with hshort | hshort <;> rw [hshort] at hlong <;> simp at hlong
  next =>
    split
    next hshort => rw [hshort] at hlong; simp at hlong
    next => rfl

/-- The file of a partial is in the directory that it is looked for in, perhaps written in another
way. -/
theorem same_directory_partialPath (h : '/' ∉ name) :
    (partialPath dir name).directory.Same dir := by
  rw [Path.Same, Path.components_directory, components_partialPath h, List.dropLast_concat]

/-- Directories that are the same have the same file for a partial. -/
theorem same_partialPath {dir' : Path} (h : '/' ∉ name) (hsame : dir.Same dir') :
    (partialPath dir name).Same (partialPath dir' name) := by
  have hcomponents : dir.components = dir'.components := hsame
  rw [Path.Same, components_partialPath h, components_partialPath h, hcomponents]

end Mustache
