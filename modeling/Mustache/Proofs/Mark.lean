import Mustache.Expression
import Mustache.Proofs.Search

/-!
# The grammar of tags

`Mark` says what a tag looks like by itself, without the text around it. An expression is the first
tag of a text if and only if its mark is one and no start delimiter begins in front of it
(`Expression.next?_eq_some_iff`). So what is found depends on the text up to the end of the tag
only, and a text that the search passes over may stand in front or not (`Expression.next?_append`).
-/

namespace Mustache

/-- Moves a fault behind a text. -/
def Fault.behind (x : Text) (f : Fault) : Fault :=
  ⟨f.cause, x ++ f.read⟩

/-- The text of a tag, with what the tag is for and what it holds. -/
inductive Mark (d : Delimiters) : Text → Kind → Text → Prop
  /-- A tag whose first character announces its kind. -/
  | sigil {c : Char} {kind : Kind} {guard inner : Text} :
      Kind.ofSigil? c = some (kind, guard) → Text.Clear (guard ++ d.stop) inner →
      (Text.trim inner = [] → kind = .comment) →
      Mark d (d.start ++ [c] ++ inner ++ (guard ++ d.stop)) kind (Text.trim inner)
  /-- A tag that holds a key and nothing else. -/
  | key {inner : Text} :
      (∀ c ∈ inner.head?, Kind.ofSigil? c = none) → Text.Clear d.stop inner →
      Text.trim inner ≠ [] →
      Mark d (d.start ++ inner ++ d.stop) .escaped (Text.trim inner)

/-- A mark begins with the start delimiter. -/
theorem Mark.begins {d : Delimiters} {mark content : Text} {kind : Kind}
    (h : Mark d mark kind content) : d.start <+: mark := by
  cases h <;> simp only [List.append_assoc] <;> exact List.prefix_append _ _

/-- A mark ends with the stop delimiter. -/
theorem Mark.ends {d : Delimiters} {mark content : Text} {kind : Kind}
    (h : Mark d mark kind content) : d.stop <:+ mark := by
  cases h with
  | sigil => rw [← List.append_assoc]; exact List.suffix_append _ _
  | key => exact List.suffix_append _ _

namespace Expression

variable {d : Delimiters} {lead opener stop body text x : Text} {kind : Kind} {e : Expression}

/-- Moves an expression behind a text. -/
def behind (x : Text) (e : Expression) : Expression :=
  { e with lead := x ++ e.lead }

/-- A tag is closed by the first stop delimiter of its body. -/
theorem close_eq_ok_iff : close lead opener kind stop body = .ok e ↔
    ∃ inner, Text.Clear stop inner ∧ body = inner ++ stop ++ e.rest ∧
      (Text.trim inner = [] → kind = .comment) ∧
      e = ⟨lead, opener ++ inner ++ stop, kind, Text.trim inner, e.rest⟩ := by
  unfold close
  constructor
  · intro h
    split at h
    next => cases h
    next inner rest hcut =>
      obtain ⟨hclear, hbody⟩ := Text.cut?_eq_some_iff.1 hcut
      split at h
      next => cases h
      next hempty =>
        cases h
        refine ⟨inner, hclear, hbody, fun htrim => ?_, rfl⟩
        exact Classical.byContradiction fun hkind => hempty ⟨htrim, hkind⟩
  · rintro ⟨inner, hclear, hbody, hempty, he⟩
    have hcut : Text.cut? stop body = some (inner, e.rest) :=
      Text.cut?_eq_some_iff.2 ⟨hclear, hbody⟩
    rw [hcut, he]
    exact if_neg fun h => h.2 (hempty h.1)

/-- The first expression of a text is the first mark in it. -/
theorem next?_eq_some_iff : next? d text = .ok (some e) ↔
    Text.Clear d.start e.lead ∧ Mark d e.mark e.kind e.content ∧
      text = e.lead ++ e.mark ++ e.rest := by
  constructor
  · intro h
    have htext := eq_of_next? h
    simp only [next?] at h
    split at h
    next => cases h
    next => cases h
    next lead c body hcut =>
      obtain ⟨hlead, -⟩ := Text.cut?_eq_some_iff.1 hcut
      split at h
      next kind guard hsigil =>
        obtain ⟨inner, hinner, -, hempty, he⟩ := close_eq_ok_iff.1 (map_some_eq_ok.1 h)
        rw [he] at htext ⊢
        exact ⟨hlead, .sigil hsigil hinner hempty, htext⟩
      next hsigil =>
        obtain ⟨inner, hinner, hbody, hempty, he⟩ := close_eq_ok_iff.1 (map_some_eq_ok.1 h)
        have hne : Text.trim inner ≠ [] := fun h => absurd (hempty h) (by simp)
        rw [he] at htext ⊢
        refine ⟨hlead, .key ?_ hinner hne, htext⟩
        cases inner with
        | nil => exact absurd rfl hne
        | cons a inner =>
          obtain ⟨rfl, -⟩ := List.cons.inj hbody
          rintro c' ⟨⟩
          exact hsigil
  · rintro ⟨hlead, hmark, htext⟩
    obtain ⟨lead, mark, kind, content, rest⟩ := e
    simp only at hlead hmark htext
    cases hmark with
    | @sigil c _ guard inner hsigil hinner hempty =>
      have hcut : Text.cut? d.start text = some (lead, c :: (inner ++ (guard ++ d.stop) ++ rest)) :=
        Text.cut?_eq_some_iff.2 ⟨hlead, by simpa using htext⟩
      simp only [next?, hcut, hsigil]
      exact map_some_eq_ok.2 (close_eq_ok_iff.2 ⟨inner, hinner, rfl, hempty, by simp⟩)
    | @key inner hsigil hinner hne =>
      cases inner with
      | nil => exact absurd rfl hne
      | cons c inner =>
        have hcut : Text.cut? d.start text = some (lead, c :: (inner ++ d.stop ++ rest)) :=
          Text.cut?_eq_some_iff.2 ⟨hlead, by simpa using htext⟩
        simp only [next?, hcut, hsigil c rfl]
        refine map_some_eq_ok.2 (close_eq_ok_iff.2 ⟨c :: inner, hinner, rfl, ?_, by simp⟩)
        exact fun h => absurd h hne

/-- A text has no expression if the start delimiter does not occur in it. -/
theorem next?_eq_none_iff : next? d text = .ok none ↔ ¬ d.start <:+: text := by
  rw [← Text.cut?_eq_none_iff]
  constructor
  · intro h
    simp only [next?] at h
    split at h
    next hcut => exact hcut
    next => cases h
    next =>
      split at h <;> cases hclose : close _ _ _ _ _ <;> rw [hclose] at h <;> cases h
  · intro h
    simp only [next?, h]

/-- Closing a tag does not depend on the text in front of it. -/
theorem close_behind : close (x ++ lead) opener kind stop body =
    ((close lead opener kind stop body).map (behind x)).mapError (Fault.behind x) := by
  unfold close
  split
  next =>
    simp only [List.append_assoc]
    rfl
  next =>
    simp only [List.append_assoc]
    split <;> rfl

/-- A text that the search passes over only moves what is found behind it. -/
theorem next?_append (h : Text.Passes d.start x text) : next? d (x ++ text) =
    ((next? d text).map (Option.map (behind x))).mapError (Fault.behind x) := by
  unfold next?
  rw [h]
  cases hcut : Text.cut? d.start text with
  | none => rfl
  | some ab =>
    obtain ⟨lead, _ | ⟨c, body⟩⟩ := ab
    · rfl
    · simp only [Option.map_some]
      cases Kind.ofSigil? c with
      | none =>
        simp only [close_behind]
        cases close lead d.start .escaped d.stop (c :: body) <;> rfl
      | some kg =>
        simp only [close_behind]
        cases close lead (d.start ++ [c]) kg.1 (kg.2 ++ d.stop) body <;> rfl

/-- A tag that cannot be closed is refused at the end of its body or of its mark. -/
theorem read_of_close {fault : Fault} (h : close lead opener kind stop body = .error fault) :
    fault.read <+: lead ++ opener ++ body := by
  unfold close at h
  split at h
  next =>
    cases h
    exact List.prefix_append _ _
  next inner rest hcut =>
    rw [Text.eq_of_cut?_eq_some hcut]
    split at h
    next =>
      cases h
      exact ⟨rest, by simp only [List.append_assoc]⟩
    next => cases h

/-- A text is refused at a point of it. -/
theorem read_of_next? {fault : Fault} (h : next? d text = .error fault) : fault.read <+: text := by
  unfold next? at h
  split at h
  next => cases h
  next =>
    cases h
    exact List.prefix_rfl
  next lead c body hcut =>
    have hmap : ∀ {x : Except Fault Expression}, x.map some = .error fault → x = .error fault := by
      intro x hx
      cases x with
      | error => cases hx; rfl
      | ok => cases hx
    rw [Text.eq_of_cut?_eq_some hcut]
    split at h
    next =>
      have hread := read_of_close (hmap h)
      rwa [← List.append_assoc, List.append_assoc, List.singleton_append] at hread
    next => exact read_of_close (hmap h)

/-- An expression is found whatever follows it. -/
theorem next?_rest (h : next? d text = .ok (some e)) (rest : Text) :
    next? d (e.lead ++ e.mark ++ rest) = .ok (some { e with rest := rest }) := by
  obtain ⟨hlead, hmark, -⟩ := next?_eq_some_iff.1 h
  exact next?_eq_some_iff.2 ⟨hlead, hmark, rfl⟩

/-- No expression is found in front of an expression. -/
theorem next?_lead (hd : d.start ≠ []) (h : next? d text = .ok (some e)) :
    next? d e.lead = .ok none :=
  next?_eq_none_iff.2 ((next?_eq_some_iff.1 h).1.not_occurs hd)

end Expression

end Mustache
