import Mustache.Proofs.Closed
import Mustache.Proofs.Registration

/-!
# What a loader is asked for

A loading asks for a name once, and only if the name had no partial when it began
(`Loads.nodup_requests`, `Loads.find?_of_mem_requests`). Where a name is looked for is decided by
the files that were read before: beside the last one of them that refers to it, or where the stack
said if none does (`Loads.seeks_of_requests`). For the stack that loading begins with this is the
directory that was given.

So every path that is asked for has a reason, and every partial that is registered is what its own
request was answered with (`requests_of_load`).
-/

namespace Mustache

/-! ## The file of a partial -/

/-- A text with nothing in it that it is split at is one piece. -/
theorem Text.pieces_of_any_eq_false {f : Char → Bool} {a : Text} (ha : a.any f = false) :
    pieces f a = [a] := by
  induction a with
  | nil => rfl
  | cons c a ih =>
    obtain ⟨hc, ha⟩ := Bool.or_eq_false_iff.1 (List.any_cons.symm.trans ha)
    rw [pieces, if_neg (Bool.eq_false_iff.1 hc), ih ha]

/-- What is added to the end of a text is added to its last piece, if it holds nothing that the text
is split at. -/
theorem Text.exists_pieces_append {f : Char → Bool} {a b : Text} (hb : b.any f = false) :
    ∃ front last, pieces f (a ++ b) = front ++ [last ++ b] := by
  induction a with
  | nil => exact ⟨[], [], pieces_of_any_eq_false hb⟩
  | cons c a ih =>
    obtain ⟨front, last, hpieces⟩ := ih
    rw [List.cons_append, pieces, hpieces]
    split
    · exact ⟨[] :: front, last, rfl⟩
    · cases front with
      | nil => exact ⟨[], c :: last, rfl⟩
      | cons x front => exact ⟨(c :: x) :: front, last, rfl⟩

namespace Path

variable {p : Path} {a b : Text}

/-- The body of a path keeps what the path ends in, unless that is so short that it can be part of
the anchor. -/
theorem exists_body_append (h : p.text = a ++ '.' :: 'm' :: b) :
    ∃ a', p.split.2 = a' ++ '.' :: 'm' :: b := by
  unfold split
  split
  next body hbody =>
    rcases List.cons_eq_append_iff.1 (hbody.symm.trans h) with ⟨-, hnot⟩ | ⟨a', -, hrest⟩
    · cases hnot
    · exact ⟨a', hrest⟩
  next hbody =>
    have hlength := congrArg List.length (hbody.symm.trans h)
    simp only [List.length_append, List.length_cons, List.length_nil] at hlength
    omega
  next body hbody =>
    rcases List.cons_eq_append_iff.1 (hbody.symm.trans h) with ⟨-, hnot⟩ | ⟨a', -, hrest⟩
    · cases hnot
    · exact ⟨a', hrest⟩
  next => exact ⟨a, h⟩

/-- A path whose last piece writes a step has a parent, which is its directory. -/
theorem parent?_of_pieces {front : List Text} {last : Text} (h : p.pieces = front ++ [last])
    (hlast : (Component.ofPiece? last).isSome = true) : p.parent? = some p.directory := by
  have hkeep : (Component.ofPiece? last).isNone = false := by simpa using hlast
  have hsteps : trimPieces p.pieces = front ++ [last] := by
    rw [h, trimPieces, List.reverse_append, List.reverse_singleton, List.singleton_append,
      List.dropWhile_cons, hkeep, if_neg Bool.false_ne_true, List.reverse_cons,
      List.reverse_reverse]
  have hsome : ∃ d, p.parent? = some d := by
    unfold parent?
    rw [hsteps]
    cases front <;> exact ⟨_, rfl⟩
  obtain ⟨d, hd⟩ := hsome
  rw [directory, hd]
  rfl

end Path

/-- The file of a partial has a parent, which is the directory that it is in. -/
theorem parent?_partialPath (dir : Path) (name : Text) :
    (partialPath dir name).parent? = some (partialPath dir name).directory := by
  have htext : ∃ a, (partialPath dir name).text = a ++ ".mustache".toList := by
    unfold partialPath Path.join
    split
    · exact ⟨name, rfl⟩
    · split
      · exact ⟨dir.text ++ name, (List.append_assoc ..).symm⟩
      · exact ⟨dir.text ++ '/' :: name, by simp⟩
  obtain ⟨a, ha⟩ := htext
  obtain ⟨a', hbody⟩ := Path.exists_body_append ha
  have hslash : ".mustache".toList.any (· == '/') = false := by decide +kernel
  obtain ⟨front, last, hpieces⟩ := Text.exists_pieces_append hslash
  have hlong : 2 < (last ++ ".mustache".toList).length := by
    rw [List.length_append]
    exact Nat.lt_of_lt_of_le (by decide) (Nat.le_add_left ..)
  refine Path.parent?_of_pieces ((congrArg _ hbody).trans hpieces) ?_
  unfold Path.Component.ofPiece?
  split
  next hshort => rcases hshort with hshort | hshort <;> rw [hshort] at hlong <;> simp at hlong
  next =>
    split <;> rfl

/-! ## Where a name is looked for -/

/-- A look-up in entries in front of others. -/
theorem valueAt?_append {α : Type} (entries more : List (Text × α)) (key : Text) :
    valueAt? (entries ++ more) key = (valueAt? entries key).or (valueAt? more key) := by
  induction entries with
  | nil => rfl
  | cons e entries ih =>
    rw [List.cons_append, valueAt?, valueAt?, ih]
    split <;> rfl

/-- A look-up in entries that have the same value. -/
theorem valueAt?_map_same {α : Type} (value : α) (keys : List Text) (key : Text) :
    valueAt? (keys.map fun k => (k, value)) key = if key ∈ keys then some value else none := by
  induction keys with
  | nil => rfl
  | cons k keys ih =>
    rw [List.map_cons, valueAt?, ih]
    by_cases hk : k = key
    · simp [hk]
    · simp [hk, Ne.symm hk]

namespace Loader

variable {load : Loader} {r : Request} {before : List Request} {name : Text} {first? : Option Path}

/-- Whether the file that was asked for refers to a name. -/
def refers (load : Loader) (r : Request) (name : Text) : Bool :=
  ((load.tags? r.path).elim [] Tag.inclusionsList).contains name

theorem refers_iff : load.refers r name = true ↔
    ∃ tags, load.tags? r.path = some tags ∧ name ∈ Tag.inclusionsList tags := by
  unfold refers
  cases load.tags? r.path <;> simp

/-- The directory that a name is looked for in once some files were asked for: the one that the last
of them is in that refers to it. If none does, it is `first?`. -/
def seeks (load : Loader) (before : List Request) (name : Text) (first? : Option Path) :
    Option Path :=
  ((before.reverse.find? fun r => load.refers r name).map (·.path.directory)).or first?

/-- A file that refers to the name decides where it is looked for, until another one does. -/
theorem seeks_cons : load.seeks (r :: before) name first? =
    load.seeks before name (if load.refers r name then some r.path.directory else first?) := by
  rw [seeks, seeks, List.reverse_cons, List.find?_append, Option.map_or, Option.or_assoc]
  congr 1
  by_cases hr : load.refers r name = true <;> simp [hr]

/-- A directory that a name is looked for in is that of a file that refers to it, or `first?`. -/
theorem seeks_eq_some {d : Path} (h : load.seeks before name first? = some d) :
    (∃ q ∈ before, load.refers q name = true ∧ d = q.path.directory) ∨
      first? = some d ∧ ∀ q ∈ before, load.refers q name = false := by
  unfold seeks at h
  cases hlast : before.reverse.find? fun r => load.refers r name with
  | some q =>
    rw [hlast] at h
    cases h
    have hrefers : load.refers q name = true := by simpa using List.find?_some hlast
    exact .inl ⟨q, List.mem_reverse.1 (List.mem_of_find?_eq_some hlast), hrefers, rfl⟩
  | none =>
    rw [hlast] at h
    exact .inr ⟨h, by simpa using hlast⟩

end Loader

namespace Template

variable {t : Template} {dir path : Path} {names : List Text} {name : Text}

/-- A missing name is looked for in the directory that loading begins with. -/
theorem valueAt?_pending : valueAt? (t.pending dir) name =
    if name ∈ t.missing then some dir else none := by
  rw [pending, ← List.map_reverse, valueAt?_map_same]
  simp only [List.mem_reverse]

/-- A name without a partial that a file refers to is looked for beside the file. -/
theorem valueAt?_below (h : t.find? name = none) : valueAt? (t.below path names) name =
    if name ∈ names then some path.directory else none := by
  rw [below, ← List.map_reverse, valueAt?_map_same]
  simp only [List.mem_reverse, List.mem_filter, h, Option.isNone_none, and_true]

end Template

namespace Loads

variable {load : Loader} {t : Template} {pending : List (Text × Path)} {l : Loading}

/-- A name that is asked for had no partial before. -/
theorem find?_of_mem_requests (h : Loads load t pending l) :
    ∀ r ∈ l.requests, t.find? r.name = none := by
  induction h with
  | done => exact fun r hr => absurd hr List.not_mem_nil
  | skip _ _ ih => exact ih
  | fail hname =>
    intro r hr
    obtain rfl := List.mem_singleton.1 hr
    exact hname
  | take hname _ _ ih =>
    intro r hr
    rcases List.mem_cons.1 hr with rfl | hr
    · exact hname
    · have hnone := ih r hr
      rw [Template.find?_insert] at hnone
      split at hnone
      · cases hnone
      · exact hnone

/-- No name is asked for twice: once its file was read, it has a partial. -/
theorem nodup_requests (h : Loads load t pending l) : (l.requests.map (·.name)).Nodup := by
  induction h with
  | done => exact List.nodup_nil
  | skip _ _ ih => exact ih
  | fail => exact List.pairwise_singleton ..
  | take _ _ hrest ih =>
    refine List.nodup_cons.2 ⟨fun hmem => ?_, ih⟩
    obtain ⟨r, hr, hname⟩ := List.mem_map.1 hmem
    have hnone := hrest.find?_of_mem_requests r hr
    rw [Template.find?_insert, if_pos hname.symm] at hnone
    cases hnone

/-- **Where a name is looked for.** A name is asked for in the directory of the last file before it
that refers to it; if there is none, in the directory on the stack. For a file that refers to a name
puts it on top of the stack, and it stays there as long as its name has no partial. -/
theorem seeks_of_requests (h : Loads load t pending l) {before after : List Request} {r : Request}
    (hr : l.requests = before ++ r :: after) :
    ∃ d, load.seeks before r.name (valueAt? pending r.name) = some d ∧
      r.path = partialPath d r.name := by
  induction h generalizing before with
  | done => exact absurd hr.symm (List.append_ne_nil_of_right_ne_nil _ (List.cons_ne_nil _ _))
  | @skip t name dir pending l hname hrest ih =>
    have hne : name ≠ r.name := by
      rintro rfl
      have hmem : r ∈ l.requests := hr ▸ List.mem_append_right _ (.head _)
      rw [hrest.find?_of_mem_requests r hmem] at hname
      cases hname
    rw [valueAt?, if_neg hne]
    exact ih hr
  | @fail t name dir pending error hname hread =>
    rcases List.cons_eq_append_iff.1 hr with ⟨rfl, hhead⟩ | ⟨_, -, hnil⟩
    · cases hhead
      exact ⟨dir, if_pos rfl, rfl⟩
    · exact absurd hnil.symm (List.append_ne_nil_of_right_ne_nil _ (List.cons_ne_nil _ _))
  | @take t name dir pending l tags names hname hread hrest ih =>
    rcases List.cons_eq_append_iff.1 hr with ⟨rfl, hhead⟩ | ⟨before, rfl, htail⟩
    · cases hhead
      exact ⟨dir, if_pos rfl, rfl⟩
    · obtain ⟨d, hd, hpath⟩ := ih htail
      have hmem : r ∈ l.requests := htail ▸ List.mem_append_right _ (.head _)
      have hnone := hrest.find?_of_mem_requests r hmem
      rw [Template.find?_insert] at hnone
      split at hnone
      next => cases hnone
      next hne =>
        obtain ⟨htags, rfl⟩ := Loader.read_eq_ok_iff.1 hread
        have hrefers : load.refers ⟨name, partialPath dir name⟩ r.name = true ↔
            r.name ∈ addNames [] (Tag.inclusionsList tags) := by
          rw [Loader.refers_iff, mem_addNames, or_iff_right List.not_mem_nil]
          simp [htags]
        refine ⟨d, ?_, hpath⟩
        rw [valueAt?_append, Template.valueAt?_below hnone] at hd
        rw [Loader.seeks_cons, valueAt?, if_neg hne, ← hd]
        congr 1
        by_cases hin : r.name ∈ addNames [] (Tag.inclusionsList tags)
        · rw [if_pos (hrefers.2 hin), if_pos hin, Option.some_or]
        · rw [if_neg (mt hrefers.1 hin), if_neg hin, Option.none_or]

/-- A name that was asked for has the partial that is at the path of the request. -/
theorem find?_of_tags? (h : Loads load t pending l) {r : Request} {tags : List Tag}
    (hr : r ∈ l.requests) (htags : load.tags? r.path = some tags) :
    l.template.find? r.name = some tags := by
  have hread := Loader.read_eq_ok_iff.2 ⟨htags, rfl⟩
  induction h with
  | done => exact absurd hr List.not_mem_nil
  | skip _ _ ih => exact ih hr
  | fail _ herror =>
    obtain rfl := List.mem_singleton.1 hr
    rw [hread] at herror
    cases herror
  | take _ hread' hrest ih =>
    rcases List.mem_cons.1 hr with rfl | hr
    · rw [hread] at hread'
      cases hread'
      refine hrest.extends_template.partials _ _ ?_
      rw [Template.find?_insert, if_pos rfl]
    · exact ih hr

/-- A name that has a partial now and had none before was asked for, and has the partial that is at
the path of the request. -/
theorem exists_request (h : Loads load t pending l) {name : Text} {tags : List Tag}
    (hnone : t.find? name = none) (hfind : l.template.find? name = some tags) :
    ∃ r ∈ l.requests, r.name = name ∧ load.tags? r.path = some tags := by
  rw [Template.find?_addPartials h.addPartials] at hfind
  cases hlast : (load.registered l.requests).reverse.find? fun text => text.1 = name with
  | none => rw [hlast, hnone] at hfind; cases hfind
  | some text =>
    rw [hlast] at hfind
    have hmem := List.mem_reverse.1 (List.mem_of_find?_eq_some hlast)
    have hname : text.1 = name := by simpa using List.find?_some hlast
    obtain ⟨r, hr, hr', hload, -⟩ := Loader.mem_registered.1 hmem
    exact ⟨r, hr, hr'.trans hname, Loader.tags?_eq_some_iff.2 ⟨text.2, hload, hfind⟩⟩

end Loads

/-- **What a loader is asked for.** In a loading that ends, with success or without, no name is
asked for twice, and none that had a partial before. A name is looked for where it was missing from
the start, in the directory that was given, or beside a file that was asked for before and refers to
it. A partial that was not there before is the template that its own name's request was answered
with. -/
theorem requests_of_load {t : Template} {load : Loader} {dir : Path} {l : Loading}
    (h : t.LoadsFrom load dir l) :
    (l.requests.map (·.name)).Nodup ∧ (∀ r ∈ l.requests, t.find? r.name = none) ∧
    (∀ before r after, l.requests = before ++ r :: after →
      (r.name ∈ t.missing ∧ r.path = partialPath dir r.name) ∨
        ∃ q ∈ before, ∃ parent src tags state, q.path.parent? = some parent ∧
          load q.path = .ok src ∧ parse {} src = .ok (tags, state) ∧
          r.name ∈ Tag.inclusionsList tags ∧ r.path = partialPath parent r.name) ∧
    ∀ name tags, t.find? name = none → (l.template.find? name = some tags ↔
      ∃ r ∈ l.requests, r.name = name ∧ ∃ src state, load r.path = .ok src ∧
        parse {} src = .ok (tags, state)) := by
  have hloads : Loads load t (t.pending dir) l := loads_iff.2 h
  refine ⟨hloads.nodup_requests, hloads.find?_of_mem_requests, ?_, ?_⟩
  · intro before r after hr
    obtain ⟨d, hseeks, hpath⟩ := hloads.seeks_of_requests hr
    rw [Template.valueAt?_pending] at hseeks
    rcases Loader.seeks_eq_some hseeks with ⟨q, hq, hrefers, rfl⟩ | ⟨hfirst, -⟩
    · obtain ⟨tags, htags, hmem⟩ := Loader.refers_iff.1 hrefers
      obtain ⟨src, state, hload, hparse⟩ := Loader.exists_parse_of_tags? htags
      obtain ⟨front, back, rfl⟩ := List.append_of_mem hq
      obtain ⟨d', -, hq'⟩ := hloads.seeks_of_requests (hr.trans (List.append_assoc ..))
      have hparent : q.path.parent? = some q.path.directory := by rw [hq', parent?_partialPath]
      exact .inr ⟨q, hq, _, src, tags, state, hparent, hload, hparse, hmem, hpath⟩
    · split at hfirst
      next hmissing => cases hfirst; exact .inl ⟨hmissing, hpath⟩
      next => cases hfirst
  · intro name tags hnone
    constructor
    · intro hfind
      obtain ⟨r, hr, hname, htags⟩ := hloads.exists_request hnone hfind
      exact ⟨r, hr, hname, Loader.exists_parse_of_tags? htags⟩
    · rintro ⟨r, hr, rfl, src, state, hload, hparse⟩
      exact hloads.find?_of_tags? hr (Loader.tags?_of_parse hload hparse)

/-- A file that refers to itself, and one that refers to a name that was missing from the start: the
file of that name is looked for beside it, and is no template. -/
theorem requests_of_load_nested :
    let t : Template := ⟨[.inclusion "x/p".toList, .inclusion ['q']], [], ["x/p".toList, ['q']], {}⟩
    let s := (Memory.mk [(⟨"v/q.mustache".toList⟩, "{{>q}}{{>x/r}}".toList),
      (⟨"v/x/r.mustache".toList⟩, "{{>x/p}}".toList), (⟨"v/x/x/p.mustache".toList⟩, ['{', '{']),
      (⟨"v/x/p.mustache".toList⟩, [])]).source
    let l := t.loadPartials s ⟨['v']⟩
    let before : List Request :=
      [⟨['q'], ⟨"v/q.mustache".toList⟩⟩, ⟨"x/r".toList, ⟨"v/x/r.mustache".toList⟩⟩]
    let r : Request := ⟨"x/p".toList, ⟨"v/x/x/p.mustache".toList⟩⟩
    t.LoadsFrom s.load ⟨['v']⟩ l ∧ l.requests = before ++ [r] ∧
      (l.requests.map (·.name)).Nodup ∧ (∀ r ∈ l.requests, t.find? r.name = none) ∧
      ((r.name ∈ t.missing ∧ r.path = partialPath ⟨['v']⟩ r.name) ∨
        ∃ q ∈ before, ∃ parent src tags state, q.path.parent? = some parent ∧
          s.load q.path = .ok src ∧ parse {} src = .ok (tags, state) ∧
          r.name ∈ Tag.inclusionsList tags ∧ r.path = partialPath parent r.name) ∧
      ∃ r ∈ l.requests, r.name = ['q'] ∧ ∃ src state, s.load r.path = .ok src ∧
        parse {} src = .ok ([.inclusion ['q'], .inclusion "x/r".toList], state) := by
  intro t s l before r
  have hload : t.LoadsFrom s.load ⟨['v']⟩ l := t.loadsFrom_loadPartials s ⟨['v']⟩
  have hrequests : l.requests = before ++ [r] := by decide +kernel
  have hfind : l.template.find? ['q'] = some [.inclusion ['q'], .inclusion "x/r".toList] := by
    decide +kernel
  obtain ⟨hnodup, hnone, hreason, hpartials⟩ := requests_of_load hload
  exact ⟨hload, hrequests, hnodup, hnone, hreason before r [] hrequests,
    (hpartials ['q'] _ rfl).1 hfind⟩

end Mustache
