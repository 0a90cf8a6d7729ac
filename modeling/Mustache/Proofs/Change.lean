import Mustache.Render
import Mustache.Proofs.Seam

/-!
# A change of the delimiters on a line of its own

A line that holds a delimiter change and nothing else says no tags. What follows it is parsed as a
text of its own that begins with the new pair (`Delimiters.Change.parseTags_line`), whatever the two
pairs look like: the tag ends with the first equals sign behind it, as there is none in the new
pair, and neither pair holds white space. Changes can follow each other, and only the last of them
counts (`parse_changes`).
-/

namespace Mustache

namespace Text

variable {a b p x : Text} {c : Char}

/-- An occurrence begins with the first character of what occurs. -/
theorem clear_of_not_mem (h : c ∉ x) : Clear (c :: p) x := by
  induction x with
  | nil => exact clear_nil _
  | cons a x ih =>
    refine clear_cons_iff.2 ⟨?_, ih (List.not_mem_of_not_mem_cons h)⟩
    rintro ⟨r, hr⟩
    exact List.ne_of_not_mem_cons h (List.cons.inj hr).1

/-- Solid texts are the words of what they make up with a space between them. -/
theorem words_pair (ha : Solid a) (hb : Solid b) : words (a ++ ' ' :: b) = [a, b] := by
  have hpiece : ∀ {t}, Solid t → t.splitOnP isSpace = [t] := fun ht =>
    List.splitOnP_eq_singleton ht.2
  rw [words, pieces_eq_splitOnP, List.splitOnP_append_cons a b (by decide), hpiece ha, hpiece hb]
  simp [ha.1, hb.1]

/-- There is no white space at either end of it. -/
theorem trimmed_pair (ha : Solid a) (hb : Solid b) : Trimmed (a ++ ' ' :: b) := by
  obtain ⟨first, r, rfl⟩ : ∃ first r, a = first :: r := List.exists_cons_of_ne_nil ha.1
  obtain ⟨s, last, rfl⟩ : ∃ s last, b = s ++ [last] :=
    ⟨_, _, (List.dropLast_concat_getLast hb.1).symm⟩
  have hlast : first :: r ++ ' ' :: (s ++ [last]) = (first :: r ++ ' ' :: s) ++ [last] := by simp
  constructor
  · rintro _ ⟨⟩
    exact ha.2 first (.head _)
  · rw [hlast, List.getLast?_concat]
    rintro _ ⟨⟩
    exact hb.2 last (by simp)

end Text

/-- An error stays where it is behind nothing. -/
theorem Error.behind_nil (error : Error) : error.behind [] = error := by
  cases error <;> rfl

/-- An error behind two texts is behind what they make up. -/
theorem Error.behind_behind (error : Error) (x y : Text) :
    (error.behind y).behind x = error.behind (x ++ y) := by
  cases error with
  | malformed fault => simp only [behind, Fault.behind, List.append_assoc]
  | notFound path => rfl

namespace Delimiters

/-- What a tag holds that changes the delimiters to a pair. -/
def content (d : Delimiters) : Text :=
  d.start ++ ' ' :: d.stop

/-- A change of the delimiters that stands on a line of its own, between blanks. The new pair is one
that a tag can name. -/
structure Change where
  /-- The delimiters that the line changes to. -/
  pair : Delimiters
  /-- What stands in front of the tag. -/
  front : Text := []
  /-- What stands behind the tag. -/
  back : Text := []
  solid : pair.Solid
  start_free : '=' ∉ pair.start
  stop_free : '=' ∉ pair.stop
  front_blank : front.all Text.isBlank = true
  back_blank : back.all Text.isBlank = true

namespace Change

variable {d : Delimiters}

/-- The tag of a change, written with the delimiters `d`. -/
def mark (d : Delimiters) (c : Change) : Text :=
  d.start ++ ['='] ++ c.pair.content ++ (['='] ++ d.stop)

/-- The line of a change, written with the delimiters `d`. -/
def line (d : Delimiters) (c : Change) : Text :=
  c.front ++ c.mark d ++ c.back ++ ['\n']

/-- The pair that a change names is the one that it changes to. -/
theorem ofContent?_pair (c : Change) : ofContent? c.pair.content = some c.pair := by
  rw [ofContent?, content, Text.words_pair c.solid.1 c.solid.2]
  exact if_neg fun h => h.elim c.start_free c.stop_free

/-- The tag of a change is the mark of one. -/
theorem mark_change (d : Delimiters) (c : Change) :
    Mark d (c.mark d) .change c.pair.content := by
  have hne : c.pair.content ≠ [] := fun h => c.solid.1.1 (List.append_eq_nil_iff.1 h).1
  have htrim : Text.trim c.pair.content = c.pair.content :=
    Text.trim_of_trimmed hne (Text.trimmed_pair c.solid.1 c.solid.2)
  have hfree : '=' ∉ c.pair.content := by
    simp [content, c.start_free, c.stop_free]
  have hsigil : Kind.ofSigil? '=' = some (.change, ['=']) := rfl
  have hmark : Mark d _ .change _ := .sigil hsigil (Text.clear_of_not_mem (p := d.stop) hfree)
    fun h => absurd (htrim.symm.trans h) hne
  rwa [htrim] at hmark

/-- **A change on a line of its own is like a new beginning.** What follows the line says what it
says by itself under the delimiters that the line changes to, and it is refused where it is refused
by itself, behind the line. -/
theorem parseTags_line (hd : d.Solid) (c : Change) (src : Text) :
    parseTags d (c.line d ++ src) = (parseTags c.pair src).mapError (Error.behind (c.line d)) := by
  let item : Item := ⟨[], c.front, c.mark d, c.back ++ ['\n'], .change, c.pair.content, d⟩
  have htext : c.line d ++ src = c.front ++ c.mark d ++ c.back ++ '\n' :: src := by simp [line]
  have hitem : item.text = c.line d := by simp [item, Item.text, line]
  have hscan : Scan.ofText true d (c.line d ++ src) = .tag item (Scan.ofText true c.pair src) := by
    rw [htext]
    exact Scan.ofText_line hd c.front_blank c.back_blank (c.mark_change d) rfl c.ofContent?_pair
  have hsame : Tag.consLiteral [] = id := funext Tag.consLiteral_nil
  have houtline : ∀ o : Outline, Outline.cons item o = o.push (c.line d) id := fun o => by
    rw [← hitem, ← hsame]
    rfl
  rw [parseTags, hscan, Outline.ofScan, houtline, Outline.complete_push, Except.map_id, parseTags]
  rfl

end Change

/-- The lines of changes one after another, the first written with the delimiters `d` and each with
those that the one before it changes to. -/
def lines (d : Delimiters) : List Change → Text
  | [] => []
  | c :: cs => c.line d ++ c.pair.lines cs

/-- The delimiters that changes lead to from `d`. -/
def changed (d : Delimiters) : List Change → Delimiters
  | [] => d
  | c :: cs => c.pair.changed cs

/-- Behind changes a text says what it says by itself under the delimiters that they lead to. -/
theorem parseTags_lines {d : Delimiters} (hd : d.Solid) (cs : List Change) (src : Text) :
    parseTags d (d.lines cs ++ src) =
      (parseTags (d.changed cs) src).mapError (Error.behind (d.lines cs)) := by
  induction cs generalizing d with
  | nil =>
    show parseTags d src = (parseTags d src).mapError (Error.behind [])
    cases parseTags d src with
    | error error => exact congrArg Except.error error.behind_nil.symm
    | ok => rfl
  | cons c cs ih =>
    rw [lines, changed, List.append_assoc, c.parseTags_line hd, ih c.solid]
    cases parseTags (c.pair.changed cs) src with
    | error error => exact congrArg Except.error (error.behind_behind ..)
    | ok => rfl

end Delimiters

/-- **Changes of the delimiters on lines of their own are like a beginning with the last pair.**
Behind the lines a text is parsed to the tags and the names that it is parsed to under that pair, or
refused where it is refused then, and a lambda that asks for both gets what it gets for the text
under that pair. -/
theorem parse_changes {state : ParseState} (hd : state.delimiters.Solid)
    (cs : List Delimiters.Change) (src : Text) :
    parse state (state.delimiters.lines cs ++ src) =
        (parse ⟨state.delimiters.changed cs, state.names⟩ src).mapError
          (Error.behind (state.delimiters.lines cs)) ∧
      ∀ {V : Type} (block : BlockRenderer V) (context : Context V) (tags : List Tag),
        parseTags (state.delimiters.changed cs) src = .ok tags →
        renderText block state.delimiters context (state.delimiters.lines cs ++ src) =
          renderText block (state.delimiters.changed cs) context src := by
  have hlines := Delimiters.parseTags_lines hd cs src
  constructor
  · unfold parse
    rw [hlines]
    cases parseTags (state.delimiters.changed cs) src <;> rfl
  · intro V block context tags htags
    rw [htags] at hlines
    simp only [renderText, hlines, htags, Except.mapError]

/-- From a pair that holds equals signs to one of two sigils, and from there to a third one. -/
theorem parse_changes_sigils :
    let state : ParseState := ⟨⟨"[=".toList, "=]".toList⟩, [['p']]⟩
    let source : Text := "<%>q%>\n".toList
    let third : Delimiters := ⟨"<%".toList, "%>".toList⟩
    let tags : List Tag := [.block ['s'] source third [.inclusion ['q'], .literal ['\n']]]
    let text : Text := " [==# &==]\t\n#=<% %>=&\n<%#s%><%>q%>\n<%/s%>".toList
    parse state text = .ok (tags, ⟨{}, [['p'], ['q']]⟩) ∧
      ∀ {V : Type} (block : BlockRenderer V) (context : Context V),
        renderText block state.delimiters context text = block context tags := by
  intro state source third tags text
  let changes : List Delimiters.Change :=
    [⟨⟨['#'], ['&']⟩, [' '], ['\t'], by decide, by decide, by decide, by decide, by decide⟩,
      ⟨third, [], [], by decide, by decide, by decide, by decide, by decide⟩]
  let src : Text := "<%#s%><%>q%>\n<%/s%>".toList
  have hd : state.delimiters.Solid := by decide
  have htext : text = state.delimiters.lines changes ++ src := by decide +kernel
  have hsrc : parse ⟨third, [['p']]⟩ src = .ok (tags, ⟨{}, [['p'], ['q']]⟩) := by decide +kernel
  have htags : parseTags third src = .ok tags := (parse_eq_ok_iff.1 hsrc).1
  obtain ⟨hparse, hrender⟩ := parse_changes hd changes src
  rw [htext]
  refine ⟨hparse.trans (congrArg _ hsrc), fun {V} block context => ?_⟩
  rw [hrender block context tags htags]
  show renderText block third context src = _
  rw [renderText, htags]

end Mustache
