import Mustache.Parse

/-!
# The names that a parse leaves

A parse records the names of the partials that its tags refer to. It adds those that are not there
yet to the names that it begins with, each once, in the order of first reference (`addNames_eq`).
-/

namespace Mustache

/-- Names that are added one after another are those that are new, each once, in order. -/
theorem addNames_eq (names new : List Text) : addNames names new =
    names ++ (new.filter fun name => !names.contains name).eraseDups := by
  induction new generalizing names with
  | nil => simp [addNames]
  | cons name new ih =>
    have hstep : addNames names (name :: new) =
        addNames (if names.contains name then names else names ++ [name]) new := rfl
    rw [hstep, ih]
    by_cases hname : names.contains name = true
    · simp only [hname, if_true, List.filter_cons, Bool.not_true, Bool.false_eq_true, if_false]
    · have hnew : (name :: new).filter (fun n => !names.contains n) =
          name :: new.filter (fun n => !names.contains n) := by
        rw [List.filter_cons_of_pos (by simpa using hname)]
      rw [if_neg hname, hnew, List.eraseDups_cons, List.filter_filter, List.append_assoc,
        List.singleton_append]
      congr 3
      refine List.filter_congr fun n _ => ?_
      have hsingle : [name].contains n = (n == name) := by
        rw [List.contains_cons, List.contains_nil, Bool.or_false]
      rw [List.contains_append, Bool.not_or, Bool.and_comm, hsingle]

variable {state final : ParseState} {src name : Text} {tags : List Tag} {names new more : List Text}

/-- Names that are added are there beside those that were there before, and no others. -/
theorem mem_addNames : name ∈ addNames names new ↔ name ∈ names ∨ name ∈ new := by
  rw [addNames_eq, List.mem_append, List.mem_eraseDups, List.mem_filter]
  by_cases h : name ∈ names <;> simp [h]

/-- Names that are added to none are left without their repetitions. -/
theorem addNames_nil (new : List Text) : addNames [] new = new.eraseDups := by
  have hall : new.filter (fun name => !([] : List Text).contains name) = new :=
    List.filter_eq_self.2 fun _ _ => rfl
  rw [addNames_eq, hall, List.nil_append]

/-- Names are added behind those that are there. -/
theorem prefix_addNames (names new : List Text) : names <+: addNames names new := by
  rw [addNames_eq]
  exact List.prefix_append ..

/-- Names that were added are added to. -/
theorem addNames_append : addNames names (new ++ more) = addNames (addNames names new) more :=
  List.foldl_append

/-- A name that is there already is not added. -/
theorem addNames_of_mem (h : name ∈ names) : addNames names [name] = names := by
  simp [addNames, h]

/-- A name that is not there is added at the end. -/
theorem addNames_of_not_mem (h : name ∉ names) : addNames names [name] = names ++ [name] := by
  simp [addNames, h]

/-- Names without repetitions stay so. -/
theorem nodup_addNames (h : names.Nodup) : (addNames names new).Nodup := by
  induction new generalizing names with
  | nil => exact h
  | cons name new ih =>
    have hone : (addNames names [name]).Nodup := by
      by_cases hname : name ∈ names
      · rwa [addNames_of_mem hname]
      · rw [addNames_of_not_mem hname, List.nodup_append]
        refine ⟨h, List.pairwise_singleton .., fun a ha b hb hab => hname ?_⟩
        rwa [← List.mem_singleton.1 hb, ← hab]
    exact ih hone

/-- Names can be gathered, each once, before they are added. -/
theorem addNames_addNames :
    addNames names (addNames more new) = addNames (addNames names more) new := by
  induction new generalizing more with
  | nil => rfl
  | cons name new ih =>
    have hone : addNames names (addNames more [name]) = addNames (addNames names more) [name] := by
      by_cases hname : name ∈ more
      · rw [addNames_of_mem hname, addNames_of_mem (mem_addNames.2 (.inr hname))]
      · rw [addNames_of_not_mem hname, addNames_append]
    calc addNames names (addNames more (name :: new))
      _ = addNames names (addNames (addNames more [name]) new) := rfl
      _ = addNames (addNames names (addNames more [name])) new := ih
      _ = addNames (addNames (addNames names more) [name]) new := by rw [hone]
      _ = addNames (addNames names more) (name :: new) := rfl

/-- A parse yields the tags of the text, and the names that they refer to. -/
theorem parse_eq_ok_iff : parse state src = .ok (tags, final) ↔
    parseTags state.delimiters src = .ok tags ∧
      final = ⟨{}, addNames state.names (Tag.inclusionsList tags)⟩ := by
  unfold parse
  constructor
  · intro h
    cases htags : parseTags state.delimiters src with
    | error => rw [htags] at h; cases h
    | ok ts => rw [htags] at h; cases h; exact ⟨rfl, rfl⟩
  · rintro ⟨htags, rfl⟩
    rw [htags]
    rfl

/-- A parse that begins without names leaves those of the partials among its tags. -/
theorem mem_names_of_parse (h : parse {} src = .ok (tags, final)) :
    name ∈ final.names ↔ name ∈ Tag.inclusionsList tags := by
  obtain ⟨-, rfl⟩ := parse_eq_ok_iff.1 h
  rw [mem_addNames]
  exact or_iff_right List.not_mem_nil

end Mustache
