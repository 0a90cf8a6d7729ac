import Mustache.Proofs.Agree
import Mustache.Proofs.Bytes

/-!
# A machine that pairs tags

`parse` puts a tree together from the back of a text: an open tag takes what has been read behind
it. `Machine` reads the same tags from front to back with a stack of the sections that are open. It
works on offsets: the source of a section is the text of the template from the end of its open tag
to the start of its close tag.

`Machine.resume` says what the machine makes of an outline that lies ahead of it. One step over a
tag is the same as putting the tag in front of the outline (`Machine.resume_cons`), so that a run
over a scan makes of it what the outline of the scan says (`Machine.run_eq_resume`). The flat scan
of a text takes each tag at an offset, where the one before it stops (`Scan.reads_flat`). On this
scan the machine therefore finds the tree that `parse` yields, up to literals, and stops with the
very fault that `parse` stops with (`parse_eq_run`).
-/

namespace Mustache

/-- A scan of what follows an offset of a text: each expression is the first one at or after the
offset where the one before it stops, under the delimiters in effect there. Reference:
`Expression.from`. -/
inductive Scan.Reads (src : Text) : Delimiters → Nat → Scan → Prop
  /-- No expression follows. -/
  | done {d : Delimiters} {first : Nat} (hfound : Expression.find? d src first = .ok none) :
      Reads src d first (.done (Text.dropBytes first src))
  /-- What begins an expression is none. -/
  | faulty {d : Delimiters} {first : Nat} {fault : Fault}
      (hfound : Expression.find? d src first =
        .error (.malformed ⟨fault.cause, Text.takeBytes first src ++ fault.read⟩)) :
      Reads src d first (.faulty fault)
  /-- A delimiter change does not name any delimiters. -/
  | unnamed {d : Delimiters} {first : Nat} {e : Expression}
      (hfound : Expression.find? d src first = .ok (some e))
      (hafter : (Item.ofFlat d e).after? = none) :
      Reads src d first (.faulty ⟨.invalidDelimiters e.content, e.lead ++ e.mark⟩)
  /-- An expression, and what is read from where it stops. -/
  | tag {d d' : Delimiters} {first : Nat} {e : Expression} {next : Scan}
      (hfound : Expression.find? d src first = .ok (some e))
      (hafter : (Item.ofFlat d e).after? = some d') (hnext : Reads src d' (e.stop first) next) :
      Reads src d first (.tag (Item.ofFlat d e) next)

/-- The flat scan is read from one end of an expression to the next. -/
theorem Scan.reads_flat {src read text : Text} {d : Delimiters} (hsrc : src = read ++ text) :
    Reads src d (Text.size read) (flat d text) := by
  fun_induction flat d text generalizing read with
  | case1 d text fault hnext =>
    refine .faulty ?_
    rw [hsrc, Expression.find?_size, hnext, Text.takeBytes_size]
    rfl
  | case2 d text hnext =>
    have hdone : Expression.find? d src (Text.size read) = .ok none := by
      rw [hsrc, Expression.find?_size, hnext]
      rfl
    simpa only [hsrc, Text.dropBytes_size] using Reads.done hdone
  | case3 d text e hnext hafter =>
    refine .unnamed ?_ hafter
    rw [hsrc, Expression.find?_size, hnext]
    rfl
  | case4 d text e hnext d' hafter ih =>
    have hstop : e.stop (Text.size read) = Text.size (read ++ (e.lead ++ e.mark)) := by
      simp only [Expression.stop, Expression.start, Text.size_append, Nat.add_assoc]
    refine .tag ?_ hafter ?_
    · rw [hsrc, Expression.find?_size, hnext]
      rfl
    · rw [hstop]
      exact ih (by rw [hsrc, Expression.eq_of_next? hnext, ← List.append_assoc read])

/-- A section that is open. -/
structure Frame where
  /-- The open tag. -/
  item : Item
  /-- The offset just past the open tag. -/
  opened : Nat
  /-- The tags in front of the open tag, since the section around it was opened. -/
  outer : List Tag

/-- A machine in the middle of a text. -/
structure Machine where
  /-- How far the text is read. -/
  offset : Nat := 0
  /-- The tags since the innermost open section was opened. -/
  tags : List Tag := []
  /-- The open sections, the innermost first. -/
  stack : List Frame := []

namespace Machine

variable (src : Text)

/-- The machine behind the next tag. -/
def step (m : Machine) (i : Item) : Except Fault Machine :=
  let start := i.start m.offset
  let next := i.next m.offset
  match i.kind with
  | .escaped => .ok { m with offset := next, tags := m.tags ++ [.escaped i.content] }
  | .raw => .ok { m with offset := next, tags := m.tags ++ [.raw i.content] }
  | .inclusion => .ok { m with offset := next, tags := m.tags ++ [.inclusion i.content] }
  | .comment | .change => .ok { m with offset := next }
  | .opening | .inverted => .ok ⟨next, [], ⟨i, i.stop m.offset, m.tags⟩ :: m.stack⟩
  | .closing =>
    match m.stack with
    | [] => .error ⟨.unopened i.content, Text.takeBytes start src⟩
    | frame :: stack =>
      if i.content = frame.item.content then
        let source := Text.slice frame.opened start src
        .ok ⟨next, frame.outer ++ [Outline.sectionTag frame.item source m.tags], stack⟩
      else .error ⟨.mismatched frame.item.content i.content, Text.takeBytes start src⟩

/-- The tags of a text that is read to its end. -/
def finish (m : Machine) : Except Fault (List Tag) :=
  match m.stack with
  | [] => .ok m.tags
  | frame :: _ =>
    .error ⟨.unclosedSection frame.item.content, Text.takeBytes frame.opened src⟩

/-- The tags that the machine finds in the scan ahead of it. -/
def run (m : Machine) : Scan → Except Fault (List Tag)
  | .tag i next =>
    match m.step src i with
    | .ok m' => m'.run next
    | .error fault => .error fault
  | .done _ => m.finish src
  | .faulty fault => .error ⟨fault.cause, Text.takeBytes m.offset src ++ fault.read⟩

/-- The tags that the machine finds if the scan ahead of it has an outline. -/
def resume (m : Machine) : Outline → Except Fault (List Tag)
  | .ended tags _ => finish src { m with tags := m.tags ++ Tag.bonesList tags }
  | .faulty fault => .error ⟨fault.cause, Text.takeBytes m.offset src ++ fault.read⟩
  | .closed tags source close next =>
    let start := m.offset + Text.size source
    match m.stack with
    | [] => .error ⟨.unopened close.content, Text.takeBytes start src⟩
    | frame :: stack =>
      if close.content = frame.item.content then
        let children := m.tags ++ Tag.bonesList tags
        let inner := Outline.sectionTag frame.item (Text.slice frame.opened start src) children
        resume ⟨start + Text.size close.mark + Text.size close.tail, frame.outer ++ [inner], stack⟩
          next
      else .error ⟨.mismatched frame.item.content close.content, Text.takeBytes start src⟩

end Machine

/-! ## The text of an outline -/

namespace Outline

variable {o : Outline} {r : Text} {add : List Tag → List Tag} {i : Item}

/-- The text that an outline is read from. -/
def text : Outline → Text
  | .ended _ source => source
  | .closed _ source close next => source ++ close.mark ++ close.tail ++ next.text
  | .faulty fault => fault.read

/-- Text in front of an outline is in front of its text. -/
theorem text_push : (o.push r add).text = r ++ o.text := by
  cases o with
  | ended | faulty => rfl
  | closed tags source close next => simp only [push, text, List.append_assoc]

/-- The text of an outline behind an item is read from the item and what follows it, up to the end
of the text or to a fault. -/
theorem text_cons : (cons i o).text <+: i.text ++ o.text := by
  have hsection : (o.consSection i).text <+: i.text ++ o.text := by
    cases o with
    | ended tags source =>
      exact ⟨i.tail ++ source, by simp [consSection, text, Item.text, Item.before]⟩
    | faulty fault => exact List.prefix_rfl
    | closed children source close next =>
      simp only [consSection]
      split
      · rw [text_push]
        exact ⟨[], by simp [text, Item.text, Item.before]⟩
      · exact ⟨close.mark ++ close.tail ++ next.text, by simp [text]⟩
  have hpush : ∀ add, (o.push i.text add).text <+: i.text ++ o.text := fun add =>
    ⟨[], by rw [text_push, List.append_nil]⟩
  unfold cons
  cases i.kind with
  | escaped | raw | inclusion | comment | change => exact hpush _
  | closing => exact ⟨[], by simp [text, Item.text, Item.before]⟩
  | opening | inverted => exact hsection

/-- The text of the outline of a scan is the text of the scan as far as it is read. -/
theorem text_ofScan (s : Scan) : (ofScan s).text <+: s.text := by
  induction s with
  | tag i next ih => exact text_cons.trans ((List.prefix_append_right_inj _).2 ih)
  | done | faulty => exact List.prefix_rfl

end Outline

/-! ## The machine and the outline -/

namespace Machine

variable {src read r : Text} {m m' : Machine} {o : Outline} {i : Item} {ts : List Tag}
  {add : List Tag → List Tag}

/-- A step reads an item. -/
theorem offset_of_step (h : m.step src i = .ok m') : m'.offset = i.next m.offset := by
  simp only [step] at h
  cases hkind : i.kind with
  | closing =>
    rw [hkind] at h
    simp only at h
    split at h
    next => cases h
    next =>
      split at h
      next => cases h; rfl
      next => cases h
  | escaped | raw | inclusion | comment | change | opening | inverted =>
    rw [hkind] at h
    cases h
    rfl

/-- The text that is read, up to the end of a part of what follows. -/
theorem takeBytes_offset (hread : m.offset = Text.size read) (hsrc : read ++ r <+: src) :
    Text.takeBytes (m.offset + Text.size r) src = Text.takeBytes m.offset src ++ r := by
  obtain ⟨rest, rfl⟩ := hsrc
  rw [hread, ← Text.size_append, Text.takeBytes_size, List.append_assoc, Text.takeBytes_size]

/-- Tags in front of an outline are tags that the machine has found already. -/
theorem resume_push (hadd : ∀ tags, Tag.bonesList (add tags) = ts ++ Tag.bonesList tags)
    (hread : m.offset = Text.size read) (hsrc : read ++ r <+: src) :
    m.resume src (o.push r add) =
      resume src ⟨m.offset + Text.size r, m.tags ++ ts, m.stack⟩ o := by
  cases o with
  | ended tags source => simp only [Outline.push, resume, finish, hadd, List.append_assoc]
  | faulty fault =>
    simp only [Outline.push, resume, takeBytes_offset hread hsrc, List.append_assoc]
  | closed tags source close next =>
    simp only [Outline.push, resume, hadd, Text.size_append, Nat.add_assoc, List.append_assoc]

/-- The structure of tags that begin with a section. -/
theorem bonesList_sectionTag {source : Text} {children tags : List Tag} :
    Tag.bonesList (Outline.sectionTag i source children :: tags) =
      [Outline.sectionTag i source (Tag.bonesList children)] ++ Tag.bonesList tags := by
  unfold Outline.sectionTag
  split <;> rfl

/-- An open tag in front of an outline is a section that the machine has open. -/
theorem resume_consSection (hread : m.offset = Text.size read)
    (hsrc : read ++ (i.text ++ o.text) <+: src) :
    m.resume src (o.consSection i) =
      resume src ⟨i.next m.offset, [], ⟨i, i.stop m.offset, m.tags⟩ :: m.stack⟩ o := by
  have htext : i.text = i.before ++ i.mark ++ i.tail := rfl
  have hmark : read ++ (i.before ++ i.mark) <+: src :=
    List.IsPrefix.trans ⟨i.tail ++ o.text, by simp [htext]⟩ hsrc
  have hitem : read ++ i.text <+: src :=
    List.IsPrefix.trans ⟨o.text, by simp⟩ hsrc
  cases o with
  | ended tags source =>
    simp only [Outline.consSection, resume, finish, Item.stop, takeBytes_offset hread hmark]
  | faulty fault =>
    simp only [Outline.consSection, resume, Item.next, takeBytes_offset hread hitem,
      List.append_assoc]
  | closed children source close next =>
    have hclose : read ++ (i.text ++ source) <+: src := by
      refine List.IsPrefix.trans ?_ hsrc
      exact ⟨close.mark ++ close.tail ++ next.text, by simp [Outline.text]⟩
    simp only [Outline.consSection, resume]
    split
    next hkey =>
      have hsource : Text.slice (i.stop m.offset) (i.next m.offset + Text.size source) src =
          i.tail ++ source := by
        obtain ⟨rest, rfl⟩ := hclose
        have hopened : i.stop m.offset = Text.size (read ++ (i.before ++ i.mark)) := by
          rw [Item.stop, hread, ← Text.size_append]
        have hstart : i.next m.offset + Text.size source =
            Text.size (read ++ (i.before ++ i.mark)) + Text.size (i.tail ++ source) := by
          simp only [Item.next, hread, htext, Text.size_append, Nat.add_assoc]
        rw [hopened, hstart]
        simpa [htext] using Text.slice_size (a := read ++ (i.before ++ i.mark))
          (b := i.tail ++ source) (c := rest)
      have hread' : read ++ (i.before ++ i.mark ++ (i.tail ++ source) ++ close.mark ++ close.tail)
          <+: src := by
        refine List.IsPrefix.trans ?_ hsrc
        exact ⟨next.text, by simp [Outline.text, htext]⟩
      have hadd : ∀ tags, Tag.bonesList (Tag.consLiteral i.literal
          (Outline.sectionTag i (i.tail ++ source) children :: tags)) =
            [Outline.sectionTag i (i.tail ++ source) (Tag.bonesList children)] ++
              Tag.bonesList tags := fun tags => by
        rw [Tag.bonesList_consLiteral, bonesList_sectionTag]
      rw [resume_push hadd hread hread', hsource]
      simp only [Item.next, htext, Text.size_append, Nat.add_assoc, List.nil_append]
    next =>
      have hread' := takeBytes_offset hread hclose
      rw [Text.size_append, ← Nat.add_assoc] at hread'
      simp only [resume, Item.next, hread']

/-- **A step over a tag.** What the machine makes of an outline with an item in front of it is what
it makes of the outline once it has read the item. -/
theorem resume_cons (hread : m.offset = Text.size read)
    (hsrc : read ++ (i.text ++ o.text) <+: src) :
    m.resume src (Outline.cons i o) = match m.step src i with
      | .ok m' => m'.resume src o
      | .error fault => .error fault := by
  have hitem : read ++ i.text <+: src :=
    List.IsPrefix.trans ⟨o.text, by simp⟩ hsrc
  have hvalue : ∀ t : Tag, Tag.mapLiterals (fun _ => []) t = [t] →
      m.resume src (o.push i.text fun tags => Tag.consLiteral i.literal (t :: tags)) =
        resume src { m with offset := i.next m.offset, tags := m.tags ++ [t] } o := by
    intro t ht
    refine resume_push (fun tags => ?_) hread hitem
    rw [Tag.bonesList_consLiteral, Tag.bonesList, Tag.mapLiteralsList, ht]
  have hnothing : m.resume src (o.push i.text (Tag.consLiteral i.literal)) =
      resume src { m with offset := i.next m.offset } o := by
    have hadd : ∀ tags, Tag.bonesList (Tag.consLiteral i.literal tags) =
        [] ++ Tag.bonesList tags := fun tags => Tag.bonesList_consLiteral
    rw [resume_push hadd hread hitem, List.append_nil]
    rfl
  unfold Outline.cons step
  cases hkind : i.kind with
  | escaped => exact hvalue _ rfl
  | raw => exact hvalue _ rfl
  | inclusion => exact hvalue _ rfl
  | comment => exact hnothing
  | change => exact hnothing
  | opening => exact resume_consSection hread hsrc
  | inverted => exact resume_consSection hread hsrc
  | closing =>
    have hbones : Tag.bonesList (Tag.consLiteral i.literal []) = [] := Tag.bonesList_consLiteral
    have hnext : m.offset + Text.size i.before + Text.size i.mark + Text.size i.tail =
        i.next m.offset := by
      simp only [Item.next, Item.text, Item.before, Text.size_append, Nat.add_assoc]
    simp only [resume, hbones, hnext, List.append_nil]
    cases m.stack with
    | nil => rfl
    | cons frame stack =>
      simp only [Item.start]
      split <;> rfl

/-- **A run over a scan.** -/
theorem run_eq_resume (s : Scan) (hread : m.offset = Text.size read)
    (hsrc : read ++ s.text <+: src) : m.run src s = m.resume src (Outline.ofScan s) := by
  induction s generalizing m read with
  | tag i next ih =>
    have hrest : read ++ (i.text ++ (Outline.ofScan next).text) <+: src := by
      refine List.IsPrefix.trans ?_ hsrc
      exact (List.prefix_append_right_inj _).2
        ((List.prefix_append_right_inj _).2 (Outline.text_ofScan next))
    rw [run, Outline.ofScan, resume_cons hread hrest]
    cases hstep : m.step src i with
    | error fault => rfl
    | ok m' =>
      have hread' : m'.offset = Text.size (read ++ i.text) := by
        rw [offset_of_step hstep, Item.next, hread, Text.size_append]
      exact ih hread' (by simpa [Scan.text] using hsrc)
  | done text =>
    have hbones : Tag.bonesList (Tag.consLiteral text []) = [] := Tag.bonesList_consLiteral
    simp only [run, Outline.ofScan, resume, hbones, List.append_nil]
  | faulty fault => rfl

/-- A machine at the beginning of a text makes of an outline what a parse does. -/
theorem resume_complete (hsrc : o.text <+: src) :
    (resume src {} o).mapError Error.malformed = o.complete.map Tag.bonesList := by
  cases o with
  | ended tags source => rfl
  | faulty fault => rw [resume, Text.takeBytes_zero]; rfl
  | closed tags source close next =>
    obtain ⟨rest, rfl⟩ := hsrc
    have hsource : Text.takeBytes (0 + Text.size source)
        ((Outline.closed tags source close next).text ++ rest) = source := by
      simp only [Outline.text, Nat.zero_add, List.append_assoc, Text.takeBytes_size]
    simp only [resume, hsource]
    rfl

end Machine

/-- **The parser is the machine.** The flat scan of a text is read from one end of an expression to
the next. Under solid delimiters the text is parsed if and only if the machine reads that scan
without a fault. The tree is then the one that the machine builds, up to literals; else the fault
is the first one that the machine meets. -/
theorem parse_eq_run (state : ParseState) (hd : state.delimiters.Solid) (src : Text) :
    Scan.Reads src state.delimiters 0 (Scan.flat state.delimiters src) ∧
    (parse state src).map (fun (tags, _) => Tag.bonesList tags) =
      (Machine.run src {} (Scan.flat state.delimiters src)).mapError Error.malformed := by
  refine ⟨Scan.reads_flat (List.nil_append src).symm, ?_⟩
  have hsrc : (Scan.flat state.delimiters src).text <+: src := Scan.text_flat
  have hread : (0 : Nat) = Text.size [] := rfl
  have hrun : Machine.run src {} (Scan.flat state.delimiters src) =
      Machine.resume src {} (Outline.ofScan (Scan.flat state.delimiters src)) :=
    Machine.run_eq_resume _ hread hsrc
  rw [hrun, Machine.resume_complete ((Outline.text_ofScan _).trans hsrc)]
  have hflat := parseTags_eq_parseFlat Text.forgets_nil hd src
  calc (parse state src).map (fun (tags, _) => Tag.bonesList tags)
      = (parseTags state.delimiters src).map Tag.bonesList := by
        unfold parse
        cases parseTags state.delimiters src <;> rfl
    _ = (parseFlat state.delimiters src).map Tag.bonesList := hflat

/-- A section closed by the key of the section around it, behind a change of the delimiters. The
tag that is not closed at the end is not met. -/
theorem parse_eq_run_mismatched :
    (parse {} "{{#a}}{{=<% %>=}}<%^b%>x<%/a%><%".toList).map (fun (tags, _) => Tag.bonesList tags) =
      .error (.malformed
        ⟨.mismatched "b".toList "a".toList, "{{#a}}{{=<% %>=}}<%^b%>x".toList⟩) := by
  rw [(parse_eq_run {} (by decide) _).2]
  decide +kernel

end Mustache
