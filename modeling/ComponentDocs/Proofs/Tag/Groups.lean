import ComponentDocs.Proofs.Dict
import ComponentDocs.Tag.Groups
import Mathlib.Data.List.Induction
import Mathlib.Data.List.Perm.Basic
import Mathlib.Data.List.Perm.Subperm

/-!
# Tags in their groups

The groups of some tags stand in the order in which their titles come up, each with the tags of its
title in order: `TagGroups.entries_ofTags`. When some titles are selected and the other groups are
kept, no tag is lost and none is there twice: `TagGroups.perm_select_append_without`.
-/

namespace ComponentDocs

/-- The tags of a title, in order. -/
def tagsTitled (tags : List Tag) (title : String) : List Tag :=
  tags.filter fun tag => tag.title = title

namespace TagGroups

theorem tagged_add (groups : TagGroups) (tag : Tag) (title : String) :
    (groups.add tag).tagged title = groups.tagged title ++ tagsTitled [tag] title := by
  unfold add tagged
  rw [Dict.get?_insert]
  by_cases htitle : title = tag.title
  · simp [htitle, tagsTitled]
  · simp [htitle, Ne.symm htitle, tagsTitled]

theorem tagged_foldl_add (tags : List Tag) (groups : TagGroups) (title : String) :
    TagGroups.tagged (tags.foldl add groups) title =
      groups.tagged title ++ tagsTitled tags title := by
  induction tags generalizing groups with
  | nil => exact (List.append_nil _).symm
  | cons tag rest ih =>
    rw [List.foldl_cons, ih, tagged_add, List.append_assoc]
    exact congrArg _ (List.filter_append [tag] rest).symm

/-- The tags of a title are found under it. -/
theorem tagged_ofTags (tags : List Tag) (title : String) :
    (ofTags tags).tagged title = tagsTitled tags title :=
  tagged_foldl_add tags Dict.empty title

theorem select_append (groups : TagGroups) (titles others : List String) :
    groups.select (titles ++ others) = groups.select titles ++ groups.select others :=
  List.flatMap_append

theorem select_ofTags (tags : List Tag) (titles : List String) :
    (ofTags tags).select titles = titles.flatMap (tagsTitled tags) :=
  congrArg titles.flatMap (funext (tagged_ofTags tags))

theorem ofTags_concat (tags : List Tag) (tag : Tag) :
    ofTags (tags ++ [tag]) = (ofTags tags).add tag := by
  rw [ofTags, List.foldl_append]
  rfl

theorem eraseDups_concat (titles : List String) (title : String) :
    (titles ++ [title]).eraseDups =
      if title ∈ titles.eraseDups then titles.eraseDups else titles.eraseDups ++ [title] := by
  rw [List.eraseDups_append]
  by_cases h : title ∈ titles.eraseDups
  · rw [if_pos h]
    rw [List.mem_eraseDups] at h
    simp [List.removeAll, h]
  · rw [if_neg h]
    rw [List.mem_eraseDups] at h
    simp [List.removeAll, h, List.eraseDups_cons]

/-- The titles are the keys, in the order in which they first come up. -/
theorem keys_ofTags (tags : List Tag) : (ofTags tags).keys = (tags.map Tag.title).eraseDups := by
  induction tags using List.reverseRecOn with
  | nil => rfl
  | append_singleton tags tag ih =>
    rw [ofTags_concat, add, Dict.keys_insert, ih, List.map_append]
    exact (eraseDups_concat (tags.map Tag.title) tag.title).symm

theorem entries_ofTags (tags : List Tag) :
    (ofTags tags).entries =
      (tags.map Tag.title).eraseDups.map fun title => (title, tagsTitled tags title) := by
  rw [← keys_ofTags]
  refine Dict.entries_eq_map fun title htitle => ?_
  obtain ⟨found, hfound⟩ := Option.isSome_iff_exists.1 (Dict.get?_isSome_iff.2 htitle)
  have htagged := tagged_ofTags tags title
  rw [tagged, hfound, Option.getD_some] at htagged
  rw [hfound, htagged]

theorem without_add (groups : TagGroups) (tag : Tag) (titles : List String) :
    Dict.without (groups.add tag) titles =
      if tag.title ∈ titles then groups.without titles
      else TagGroups.add (groups.without titles) tag := by
  rw [add, Dict.without_insert]
  by_cases htitle : tag.title ∈ titles
  · rw [if_pos htitle, if_pos htitle]
  · rw [if_neg htitle, if_neg htitle, add, tagged, tagged, Dict.get?_without, if_neg htitle]

/-- Leaving out groups is leaving out their tags. -/
theorem without_ofTags (tags : List Tag) (titles : List String) :
    (ofTags tags).without titles = ofTags (tags.filter fun tag => tag.title ∉ titles) := by
  induction tags using List.reverseRecOn with
  | nil => rfl
  | append_singleton tags tag ih =>
    rw [ofTags_concat, without_add, ih, List.filter_append]
    by_cases htitle : tag.title ∈ titles
    · simp [htitle]
    · simp [htitle, ofTags_concat]

/-- The groups that are left: the titles of the tags that are left, as they first come up, each with
all its tags. -/
theorem entries_without_ofTags (tags : List Tag) (titles : List String) :
    ((ofTags tags).without titles).entries =
      ((tags.filter fun tag => tag.title ∉ titles).map Tag.title).eraseDups.map
        fun title => (title, tagsTitled tags title) := by
  rw [without_ofTags, entries_ofTags]
  refine List.map_congr_left fun title htitle => congrArg (title, ·) ?_
  obtain ⟨tag, htag, rfl⟩ := List.mem_map.1 (List.mem_eraseDups.1 htitle)
  have hleft : tag.title ∉ titles := of_decide_eq_true (List.mem_filter.1 htag).2
  rw [tagsTitled, tagsTitled, List.filter_filter]
  refine List.filter_congr fun other _ => ?_
  by_cases hother : other.title = tag.title
  · simp [hother, hleft]
  · simp [hother]

-- The titles are distinct, so what one of them selects is out of the reach of the others.
theorem perm_flatMap_tagsTitled {titles : List String} (h : titles.Nodup) (tags : List Tag) :
    (titles.flatMap (tagsTitled tags)).Perm (tags.filter fun tag => tag.title ∈ titles) := by
  induction titles with
  | nil => simp
  | cons title rest ih =>
    obtain ⟨htitle, hrest⟩ := List.nodup_cons.1 h
    have hfirst : ((tags.filter fun tag => tag.title ∈ title :: rest).filter fun tag =>
        tag.title = title) = tagsTitled tags title := by
      rw [List.filter_filter]
      exact List.filter_congr fun tag _ => by by_cases htag : tag.title = title <;> simp [htag]
    have hothers : ((tags.filter fun tag => tag.title ∈ title :: rest).filter fun tag =>
        !decide (tag.title = title)) = tags.filter fun tag => tag.title ∈ rest := by
      rw [List.filter_filter]
      exact List.filter_congr fun tag _ => by
        by_cases htag : tag.title = title
        · simp [htag, htitle]
        · simp [htag]
    have hsplit := List.filter_append_perm (fun tag : Tag => decide (tag.title = title))
      (tags.filter fun tag => tag.title ∈ title :: rest)
    rw [hfirst, hothers] at hsplit
    rw [List.flatMap_cons]
    exact ((ih hrest).append_left _).trans hsplit

/-- Grouping neither loses a tag nor doubles one. -/
theorem perm_flatten_values_ofTags (tags : List Tag) : (ofTags tags).values.flatten.Perm tags := by
  have hnodup : (tags.map Tag.title).eraseDups.Nodup := keys_ofTags tags ▸ (ofTags tags).nodup
  have hvalues : (ofTags tags).values =
      (tags.map Tag.title).eraseDups.map (tagsTitled tags) := by
    rw [Dict.values, entries_ofTags, List.map_map]
    rfl
  have hall : (tags.filter fun tag => tag.title ∈ (tags.map Tag.title).eraseDups) = tags :=
    List.filter_eq_self.2 fun tag htag =>
      decide_eq_true (List.mem_eraseDups.2 (List.mem_map_of_mem htag))
  have hperm := perm_flatMap_tagsTitled hnodup tags
  rwa [hall, List.flatMap_def, ← hvalues] at hperm

theorem mem_flatten_values_without_ofTags {tags : List Tag} {titles : List String} {tag : Tag} :
    tag ∈ ((ofTags tags).without titles).values.flatten ↔ tag ∈ tags ∧ tag.title ∉ titles := by
  rw [without_ofTags, (perm_flatten_values_ofTags _).mem_iff, List.mem_filter, decide_eq_true_iff]

/-- What is selected and what is left make up the tags. -/
theorem perm_select_append_without {titles : List String} (h : titles.Nodup) (tags : List Tag) :
    ((ofTags tags).select titles ++ ((ofTags tags).without titles).values.flatten).Perm tags := by
  rw [select_ofTags, without_ofTags]
  have hleft := perm_flatten_values_ofTags (tags.filter fun tag => tag.title ∉ titles)
  have hsplit := List.filter_append_perm (fun tag : Tag => decide (tag.title ∈ titles)) tags
  simp only [← decide_not] at hsplit
  exact ((perm_flatMap_tagsTitled h tags).append hleft).trans hsplit

end TagGroups

end ComponentDocs
