import Mustache.Proofs.Requests

/-!
# Which file a partial comes from

Several files can refer to one name, from different directories, and the name is loaded once. The
file that refers to it last before it is asked for decides: the partial is looked for beside that
file (`partial_of_last_reference`). The template itself counts as the first one to refer to its
partials, so its own directory is tried for a name only if no file that is asked for earlier refers
to that name from elsewhere; its partials need not come from there (`not_partial_of_directory`).
-/

namespace Mustache

variable {t : Template} {load : Loader} {dir : Path} {l : Loading} {name : Text}

/-- **The last reference decides.** If a loading succeeds, then every name that the template's own
tags refer to, and that had no partial before, is asked for in the directory of the last file before
it that refers to it, or in the directory of the template if there is none; and it has the partial
that is there. So it has the partial of the template's directory just if the two files say the same,
as they do if no file before it refers to it from elsewhere. -/
theorem partial_of_last_reference (ht : t.Reached) (h : t.LoadsFrom load dir l)
    (hok : l.error? = none) (hname : name ∈ Tag.inclusionsList t.tags)
    (hnone : t.find? name = none) :
    ∃ before d after tags, l.requests = before ++ ⟨name, partialPath d name⟩ :: after ∧
      load.seeks before name (some dir) = some d ∧
      load.tags? (partialPath d name) = some tags ∧ l.template.find? name = some tags ∧
      (l.template.find? name = load.tags? (partialPath dir name) ↔
        load.tags? (partialPath d name) = load.tags? (partialPath dir name)) ∧
      ((∀ q ∈ before, load.refers q name = true → q.path.directory = dir) → d = dir) := by
  have hloads : Loads load t (t.pending dir) l := loads_iff.2 h
  have hmissing : name ∈ t.missing :=
    List.mem_filter.2 ⟨ht.recorded.1 name hname, by rw [hnone]; rfl⟩
  have hclosed : (l.template.find? name).isSome = true :=
    ((ht.load h).recorded.closed (h.missing_eq_nil hok)).1 name
      (hloads.extends_template.tags ▸ hname)
  obtain ⟨tags, htags⟩ := Option.isSome_iff_exists.1 hclosed
  obtain ⟨r, hr, rfl, hread⟩ := hloads.exists_request hnone htags
  obtain ⟨before, after, hrequests⟩ := List.append_of_mem hr
  obtain ⟨d, hseeks, hpath⟩ := hloads.seeks_of_requests hrequests
  rw [Template.valueAt?_pending, if_pos hmissing] at hseeks
  refine ⟨before, d, after, tags, by rw [hrequests, ← hpath], hseeks, hpath ▸ hread, htags, ?_,
    fun hbefore => ?_⟩
  · rw [htags, ← hpath, hread]
  · rcases Loader.seeks_eq_some hseeks with ⟨q, hq, hrefers, rfl⟩ | ⟨hfirst, -⟩
    · exact hbefore q hq hrefers
    · exact (Option.some.inj hfirst).symm

/-- A partial that is asked for behind two files that refer to it, the last one in another
directory. -/
theorem partial_of_last_reference_nested :
    let page := "{{>q}}{{>r}}".toList
    let s := (Memory.mk [(⟨"v/q.mustache".toList⟩, ['1']), (⟨"v/x/q.mustache".toList⟩, ['2']),
      (⟨"v/r.mustache".toList⟩, "{{>q}}{{>x/p}}".toList),
      (⟨"v/x/p.mustache".toList⟩, "{{#s}}{{>x/o}}{{>q}}{{/s}}".toList),
      (⟨"v/x/x/o.mustache".toList⟩, [])]).source
    ∃ t, Template.parse page = .ok t ∧
      let l := t.loadPartials s ⟨['v']⟩
      l.error? = none ∧
      l.requests.map (·.name) = [['r'], "x/p".toList, ['q'], "x/o".toList] ∧
      ∃ before d after tags, l.requests = before ++ ⟨['q'], partialPath d ['q']⟩ :: after ∧
        s.load.seeks before ['q'] (some ⟨['v']⟩) = some d ∧
        s.load.tags? (partialPath d ['q']) = some tags ∧ l.template.find? ['q'] = some tags := by
  intro page s
  let t : Template := ⟨[.inclusion ['q'], .inclusion ['r']], [], [['q'], ['r']], {}⟩
  have hparse : Template.parse page = .ok t := by
    have hpage : Mustache.parse {} page = .ok (t.tags, ⟨{}, t.names⟩) := by decide +kernel
    rw [Template.parse, hpage]
    rfl
  have hok : (t.loadPartials s ⟨['v']⟩).error? = none := by decide +kernel
  obtain ⟨before, d, after, tags, hrequests, hseeks, hread, hfind, -⟩ :=
    partial_of_last_reference (.parse hparse) (t.loadsFrom_loadPartials s ⟨['v']⟩) hok
      (.head _ : ['q'] ∈ Tag.inclusionsList t.tags) rfl
  exact ⟨t, hparse, hok, by decide +kernel, before, d, after, tags, hrequests, hseeks, hread, hfind⟩

/-- **A partial of the template need not come from its directory.** A file in another directory that
is asked for earlier and refers to the same name takes it from there. -/
theorem not_partial_of_directory :
    ¬ ∀ (t : Template) (load : Loader) (dir : Path) (l : Loading), t.Reached →
      t.LoadsFrom load dir l → l.error? = none → ∀ name ∈ Tag.inclusionsList t.tags,
        t.find? name = none → ∃ src tags state, load (partialPath dir name) = .ok src ∧
          parse {} src = .ok (tags, state) ∧ l.template.find? name = some tags := by
  intro h
  let s := (Memory.mk [(⟨"q.mustache".toList⟩, "right".toList),
    (⟨"x/p.mustache".toList⟩, "{{>q}}".toList), (⟨"x/q.mustache".toList⟩, "wrong".toList)]).source
  let t : Template := ⟨[.inclusion ['q'], .inclusion "x/p".toList], [], [['q'], "x/p".toList], {}⟩
  have hparse : Template.parse "{{>q}}{{>x/p}}".toList = .ok t := by
    have hpage : Mustache.parse {} "{{>q}}{{>x/p}}".toList = .ok (t.tags, ⟨{}, t.names⟩) := by
      decide +kernel
    rw [Template.parse, hpage]
    rfl
  have hok : (t.loadPartials s ⟨[]⟩).error? = none := by decide +kernel
  obtain ⟨src, tags, state, hload, hright, hfind⟩ :=
    h t s.load ⟨[]⟩ _ (.parse hparse) (t.loadsFrom_loadPartials s ⟨[]⟩) hok ['q'] (.head _) rfl
  have hsrc : s.load (partialPath ⟨[]⟩ ['q']) = .ok "right".toList := by decide +kernel
  have htags : parse {} "right".toList = .ok ([.literal "right".toList], {}) := by decide +kernel
  have hwrong : (t.loadPartials s ⟨[]⟩).template.find? ['q'] =
      some [.literal "wrong".toList] := by decide +kernel
  rw [hsrc] at hload
  cases hload
  rw [htags] at hright
  cases hright
  rw [hwrong] at hfind
  revert hfind
  decide +kernel

end Mustache
