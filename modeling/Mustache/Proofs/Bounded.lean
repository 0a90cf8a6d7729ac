import Mathlib.Data.List.Perm.Subperm
import Mustache.Proofs.Recording
import Mustache.Proofs.Requests

/-!
# Loading ends

A loading asks for names that its stack holds or that the files lead to which it asks for
(`Loads.forall_requests`). Texts that are finitely many refer to finitely many names, and no name is
asked for twice. So a loading from memory ends, whatever the texts are and however they refer to
each other, and there are no more requests than names that are missing or referred to
(`load_bounded`).
-/

namespace Mustache

section Requests

variable {load : Loader} {t : Template} {pending : List (Text × Path)} {l : Loading}

/-- **What is asked for.** What holds of the names on the stack with their directories, and of what
a file refers to beside it if it holds of the file, holds of all that is asked for. The files that
matter are those that end up as partials. -/
theorem Loads.forall_requests {Q : Text → Path → Prop} (h : Loads load t pending l)
    (hpending : ∀ p ∈ pending, Q p.1 p.2)
    (hfile : ∀ name dir tags, Q name dir → load.tags? (partialPath dir name) = some tags →
      l.template.find? name = some tags → ∀ x ∈ Tag.inclusionsList tags, t.find? x = none →
        Q x (partialPath dir name).directory) :
    ∀ r ∈ l.requests, ∃ dir, Q r.name dir ∧ r.path = partialPath dir r.name := by
  induction h with
  | done => exact fun r hr => absurd hr List.not_mem_nil
  | skip _ _ ih => exact ih (fun p hp => hpending p (.tail _ hp)) hfile
  | fail =>
    intro r hr
    obtain rfl := List.mem_singleton.1 hr
    exact ⟨_, hpending _ (.head _), rfl⟩
  | @take t name dir pending l tags names hname hread hrest ih =>
    obtain ⟨htags, rfl⟩ := Loader.read_eq_ok_iff.1 hread
    have hfind : l.template.find? name = some tags := by
      refine hrest.extends_template.partials _ _ ?_
      rw [Template.find?_insert, if_pos rfl]
    have hbelow : ∀ p ∈ t.below (partialPath dir name) (addNames [] (Tag.inclusionsList tags)),
        Q p.1 p.2 := by
      intro p hp
      simp only [Template.below, List.mem_reverse, List.mem_map, List.mem_filter] at hp
      obtain ⟨x, ⟨hx, hnone⟩, rfl⟩ := hp
      have hmem : x ∈ Tag.inclusionsList tags := (mem_addNames.1 hx).resolve_left List.not_mem_nil
      exact hfile name dir tags (hpending _ (.head _)) htags hfind x hmem
        (Option.isNone_iff_eq_none.1 hnone)
    intro r hr
    rcases List.mem_cons.1 hr with rfl | hr
    · exact ⟨dir, hpending _ (.head _), rfl⟩
    · refine ih (fun p hp => ?_) (fun name dir tags hQ htags hfind x hx hnone =>
        hfile name dir tags hQ htags hfind x hx
          ((Template.extends_insert hname).find?_eq_none hnone)) r hr
      exact (List.mem_append.1 hp).elim (hbelow p) fun hp => hpending p (.tail _ hp)

end Requests

/-- What a file of a source refers to is among the names that all its texts refer to. -/
theorem Source.mem_references {s : Source} {path : Path} {tags : List Tag} {name : Text}
    (htags : s.load.tags? path = some tags) (hname : name ∈ Tag.inclusionsList tags) :
    name ∈ s.references := by
  obtain ⟨src, state, hload, hparse⟩ := Loader.exists_parse_of_tags? htags
  refine List.mem_flatMap.2 ⟨src, s.mem_texts hload, ?_⟩
  rw [Mustache.references, hparse]
  exact (mem_names_of_parse hparse).2 hname

/-- The names that loading begins with are some that it can ask for. -/
theorem Template.mem_reach_of_mem_pending {t : Template} {s : Source} {dir : Path}
    {p : Text × Path} (h : p ∈ t.pending dir) : p.1 ∈ t.reach s :=
  List.mem_append_left _ (mem_pending_iff.1 h).1

/-- The names that are asked for are missing from the start, or a text of the source refers to
them. -/
theorem Template.LoadsFrom.mem_reach {t : Template} {s : Source} {dir : Path} {l : Loading}
    (h : t.LoadsFrom s.load dir l) : ∀ r ∈ l.requests, r.name ∈ t.reach s := by
  intro r hr
  obtain ⟨-, hreach, -⟩ := (loads_iff.2 h).forall_requests
    (Q := fun name _ => name ∈ t.reach s) (fun _ hp => mem_reach_of_mem_pending hp)
    (fun _ _ _ _ htags _ _ hx _ => List.mem_append_right _ (Source.mem_references htags hx)) r hr
  exact hreach

/-- **Loading from memory ends,** in one way, within a number of steps that does not depend on the
directory. No name is asked for twice, and only names that are missing from the start or that a
text in memory refers to: so there are no more requests than such names, each counted once. -/
theorem load_bounded (m : Memory) (t : Template) (dir : Path) :
    ∃ l, (∀ l', t.LoadsFrom m.load dir l' ↔ l' = l) ∧
      (∀ steps, m.source.steps (t.reach m.source) t t.missing.length ≤ steps →
        loadPending m.load steps t (t.pending dir) = some l) ∧
      (l.requests.map (·.name)).Nodup ∧
      (∀ r ∈ l.requests, r.name ∈ t.missing ∨ ∃ file ∈ m.files, r.name ∈ references file.2) ∧
      l.requests.length ≤
        (t.missing ++ m.files.flatMap fun file => references file.2).eraseDups.length := by
  have hload : t.LoadsFrom m.load dir (t.loadPartials m.source dir) :=
    t.loadsFrom_loadPartials m.source dir
  have hunique : ∀ l', t.LoadsFrom m.load dir l' → l' = t.loadPartials m.source dir :=
    fun l' h' => (loads_iff.2 h').unique (loads_iff.2 hload)
  have hnodup := (loads_iff.2 hload).nodup_requests
  have hreferences : m.source.references = m.files.flatMap fun file => references file.2 :=
    List.flatMap_map ..
  have hreach : ∀ r ∈ (t.loadPartials m.source dir).requests,
      r.name ∈ t.missing ++ m.files.flatMap fun file => references file.2 := fun r hr => by
    have hmem : r.name ∈ t.reach m.source := hload.mem_reach r hr
    rwa [Template.reach, hreferences] at hmem
  refine ⟨_, fun l' => ⟨hunique l', fun h' => h' ▸ hload⟩, fun steps hsteps => ?_, hnodup,
    fun r hr => ?_, ?_⟩
  · have hlength : (t.pending dir).length = t.missing.length := by simp [Template.pending]
    have hpending : ∀ p ∈ t.pending dir, p.1 ∈ t.reach m.source :=
      fun _ hp => Template.mem_reach_of_mem_pending hp
    obtain ⟨l', hl'⟩ := Option.isSome_iff_exists.1 <|
      loadPending_isSome (fun _ hx => List.mem_append_right _ hx) hpending (hlength ▸ hsteps)
    exact hl'.trans (congrArg some (hunique l' ⟨steps, hl'⟩))
  · rcases List.mem_append.1 (hreach r hr) with hmissing | hmem
    · exact .inl hmissing
    · obtain ⟨file, hfile, hname⟩ := List.mem_flatMap.1 hmem
      exact .inr ⟨file, hfile, hname⟩
  · have hsub : (t.loadPartials m.source dir).requests.map (·.name) ⊆
        (t.missing ++ m.files.flatMap fun file => references file.2).eraseDups := by
      intro name hname
      obtain ⟨r, hr, rfl⟩ := List.mem_map.1 hname
      exact List.mem_eraseDups.2 (hreach r hr)
    have hle := (List.subperm_of_subset hnodup hsub).length_le
    rwa [List.length_map] at hle

end Mustache
