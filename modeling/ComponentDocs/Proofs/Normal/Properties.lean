import ComponentDocs.Normal.Properties
import ComponentDocs.Proofs.Dict
import ComponentDocs.Proofs.Doclet.Names
import ComponentDocs.Proofs.Log

/-!
# Properties that are normal already

What is left of the description of a property has no tags, and no doclet that the whole of it had
not, so a property that was kept is kept as it is: `normalizeProperty_of_result`.
-/

namespace ComponentDocs

open Text

theorem DocletSection.value_isSet (s : DocletSection) : s.value.isSet := by
  unfold value
  cases trim (unlines (s.1.rest :: s.2.map MaskedLine.text)) with
  | nil => rfl
  | cons c rest => simp [DocletValue.isSet]

-- A doclet that is found in a text is set.
theorem isSet_of_mem_docletList {text : List Char} {name : String} {value : DocletValue}
    (h : (name, value) ∈ docletList text) : value.isSet := by
  obtain ⟨s, -, hs⟩ := List.mem_filterMap.1 h
  unfold DocletSection.doclet? at hs
  cases hform : s.1.form with
  | bare =>
    rw [hform] at hs
    rw [← (Prod.mk.inj (Option.some.inj hs)).2]
    rfl
  | valued =>
    rw [hform] at hs
    rw [← (Prod.mk.inj (Option.some.inj hs)).2]
    exact s.value_isSet
  | other =>
    rw [hform] at hs
    cases hs

theorem isSet_readDoclets_iff {text name : String} :
    (readDoclets text).isSet name ↔ name ∈ docletNames false (lines text.toList) := by
  rw [← map_fst_docletList, ← Dict.get?_ofList_isSome_iff, ← readDoclets, Doclets.isSet]
  cases hget : (readDoclets text).get? name with
  | none => simp
  | some value =>
    have hset : value.isSet := isSet_of_mem_docletList (Dict.mem_of_get?_ofList hget)
    simp [hset]

theorem anySet_readDoclets_of_subset {text text' : String}
    (hsub : docletNames false (lines text'.toList) ⊆ docletNames false (lines text.toList))
    {names : List String} (h : (readDoclets text').anySet names) :
    (readDoclets text).anySet names := by
  unfold Doclets.anySet at h ⊢
  rw [List.any_eq_true] at h ⊢
  obtain ⟨name, hname, hset⟩ := h
  exact ⟨name, hname, isSet_readDoclets_iff.2 (hsub (isSet_readDoclets_iff.1 hset))⟩

theorem docletNames_trim_unlines_subset {head : List (List Char)} (h : TagFree false head)
    (hline : ∀ line ∈ head, '\n' ∉ line) :
    docletNames false (lines (trim (unlines head))) ⊆ docletNames false head := by
  by_cases hnil : head = []
  · rw [hnil]
    exact fun name hname => absurd hname List.not_mem_nil
  · have hlines : lines (unlines head) = head := lines_unlines hnil hline
    rw [docletNames_trim_of_tagFree (by rwa [hlines]), hlines]
    exact List.Subset.refl _

-- The description of a comment has no doclets that the comment has not.
theorem docletNames_description_subset {sloppy : Bool} {text : String} {c : Comment}
    (h : Comment.read sloppy text = .ok c) :
    docletNames false (lines c.description.toList) ⊆ docletNames false (lines text.toList) := by
  obtain ⟨head, rest, hl, hfree, hline, hdescription⟩ := Comment.exists_lines_of_read h
  rw [hdescription, String.toList_ofList, hl, docletNames_append]
  exact List.Subset.trans (docletNames_trim_unlines_subset hfree hline)
    (List.subset_append_left _ _)

/-! ## One property -/

theorem normalizeProperty_eq_some_iff {ctx : Context} {name : String} {p p' : Property} :
    (normalizeProperty ctx name p).result = .ok (some p') ↔
      ∃ c, Comment.read false (p.description.getD "") = .ok c ∧
        p.isHidden ctx.settings = false ∧ p' = p.withComment c := by
  rw [normalizeProperty, Logged.bind_result_eq_ok_iff, Logged.ofExcept_result]
  simp only [Fault.ofTag_eq_ok_iff]
  cases p.isHidden ctx.settings with
  | true => simp
  | false => simp [eq_comm]

theorem isHidden_of_normalizeProperty {ctx : Context} {name : String} {p : Property}
    (h : (normalizeProperty ctx name p).result = .ok none) : p.isHidden ctx.settings = true := by
  by_contra hshown
  rw [Bool.not_eq_true] at hshown
  obtain ⟨c, -, h⟩ := Logged.bind_result_eq_ok_iff.1 h
  rw [if_neg (by rw [hshown]; decide)] at h
  cases Except.ok.inj h

/-- A property that was kept is normal. -/
theorem normalizeProperty_of_result {ctx : Context} {name : String} {p p' : Property}
    (h : (normalizeProperty ctx name p).result = .ok (some p')) :
    normalizeProperty ctx name p' = pure (some p') := by
  obtain ⟨c, hread, hhidden, hp'⟩ := normalizeProperty_eq_some_iff.1 h
  have hdescription : p'.description.getD "" = c.description := by rw [hp']; rfl
  have hagain : Comment.read false (p'.description.getD "") = .ok ⟨c.description, []⟩ := by
    rw [hdescription]
    exact Comment.read_description hread false
  have hkept : p'.isHidden ctx.settings = false := by
    -- what hides the property now stood in the whole comment, too
    by_contra hhidden'
    rw [Bool.not_eq_false, Property.isHidden, hdescription] at hhidden'
    have hset := anySet_readDoclets_of_subset (docletNames_description_subset hread) hhidden'
    rw [Property.isHidden, hset] at hhidden
    cases hhidden
  have hsame : p'.withComment ⟨c.description, []⟩ = p' := by rw [hp']; rfl
  rw [normalizeProperty, hagain, hkept, Fault.ofTag, Logged.ofExcept, Logged.bind_ok,
    if_neg (by decide), hsame]
  rfl

/-! ## All properties -/

theorem normalizeEntries_cons_eq_ok_iff {ctx : Context} {name : String} {p : Property}
    {rest found : List (String × Property)} :
    (normalizeEntries ctx ((name, p) :: rest)).result = .ok found ↔
      ∃ kept others, (normalizeProperty ctx name p).result = .ok kept ∧
        (normalizeEntries ctx rest).result = .ok others ∧
        found = (kept.map (name, ·)).toList ++ others := by
  rw [normalizeEntries, Logged.bind_result_eq_ok_iff]
  simp only [Logged.bind_result_eq_ok_iff]
  constructor
  · rintro ⟨kept, hkept, others, hothers, h⟩
    exact ⟨kept, others, hkept, hothers, (Except.ok.inj h).symm⟩
  · rintro ⟨kept, others, hkept, hothers, rfl⟩
    exact ⟨kept, hkept, others, hothers, rfl⟩

/-- A property and what is left of it when its comment has been taken apart. -/
def Property.TakenApart (p p' : Property) : Prop :=
  ∃ c, Comment.read false (p.description.getD "") = .ok c ∧ p' = p.withComment c

-- The properties that nothing hides are kept in their order, and no others.
theorem forall₂_of_normalizeEntries {ctx : Context} {entries found : List (String × Property)}
    (h : (normalizeEntries ctx entries).result = .ok found) :
    List.Forall₂ (fun e e' => e'.1 = e.1 ∧ e.2.TakenApart e'.2)
      (entries.filter fun e => !e.2.isHidden ctx.settings) found := by
  induction entries generalizing found with
  | nil =>
    rw [← Except.ok.inj h]
    exact List.Forall₂.nil
  | cons e rest ih =>
    obtain ⟨name, p⟩ := e
    obtain ⟨kept, others, hkept, hothers, rfl⟩ := normalizeEntries_cons_eq_ok_iff.1 h
    cases kept with
    | none =>
      rw [List.filter_cons_of_neg (by simp [isHidden_of_normalizeProperty hkept])]
      exact ih hothers
    | some p' =>
      obtain ⟨c, hread, hshown, rfl⟩ := normalizeProperty_eq_some_iff.1 hkept
      rw [List.filter_cons_of_pos (by simp [hshown])]
      exact List.Forall₂.cons ⟨rfl, c, hread, rfl⟩ (ih hothers)

-- A property that nothing hides stays, with its comment taken apart.
theorem mem_normalizeEntries {ctx : Context} {entries found : List (String × Property)}
    (h : (normalizeEntries ctx entries).result = .ok found) {name : String} {p : Property}
    (hp : (name, p) ∈ entries) (hkept : p.isHidden ctx.settings = false) :
    ∃ c, (name, p.withComment c) ∈ found := by
  have hshown : (name, p) ∈ entries.filter fun e => !e.2.isHidden ctx.settings :=
    List.mem_filter.2 ⟨hp, by simp [hkept]⟩
  obtain ⟨⟨name', p'⟩, hmem, hname, c, -, hp'⟩ :=
    exists_of_mem_right (List.Forall₂.flip (forall₂_of_normalizeEntries h)) hshown
  obtain rfl : name' = name := hname
  obtain rfl : p' = p.withComment c := hp'
  exact ⟨c, hmem⟩

-- The properties that were kept are normal, and they stand in the order in which they stood.
theorem normalizeEntries_of_result {ctx : Context} {entries found : List (String × Property)}
    (h : (normalizeEntries ctx entries).result = .ok found) :
    normalizeEntries ctx found = pure found ∧
      (found.map Prod.fst).Sublist (entries.map Prod.fst) := by
  induction entries generalizing found with
  | nil =>
    rw [← Except.ok.inj h]
    exact ⟨rfl, List.Sublist.slnil⟩
  | cons e rest ih =>
    obtain ⟨name, p⟩ := e
    obtain ⟨kept, others, hkept, hothers, rfl⟩ := normalizeEntries_cons_eq_ok_iff.1 h
    obtain ⟨hnormal, hsub⟩ := ih hothers
    cases kept with
    | none => exact ⟨hnormal, hsub.cons name⟩
    | some p' =>
      refine ⟨?_, hsub.cons_cons name⟩
      change normalizeEntries ctx ((name, p') :: others) = _
      rw [normalizeEntries, normalizeProperty_of_result hkept, Logged.pure_def, Logged.bind_ok,
        hnormal]
      rfl

-- The properties that were kept have distinct names, as those of the record have.
theorem normalizeProperties_eq_ok_iff {ctx : Context} {r r' : Record} :
    (normalizeProperties ctx r).result = .ok r' ↔
      r' = { r with props := r'.props } ∧
        Option.Rel (fun props props' =>
          (normalizeEntries ctx props.entries).result = .ok props'.entries) r.props r'.props := by
  rw [normalizeProperties]
  cases hprops : r.props with
  | none =>
    constructor
    · intro h
      obtain rfl := Except.ok.inj h
      refine ⟨rfl, ?_⟩
      rw [hprops]
      exact Option.Rel.none
    · rintro ⟨hr, hrel⟩
      cases hprops' : r'.props with
      | none =>
        rw [hprops', ← hprops] at hr
        exact congrArg _ hr.symm
      | some props' =>
        rw [hprops'] at hrel
        cases hrel
  | some props =>
    simp only [Logged.bind_result_eq_ok_iff]
    constructor
    · rintro ⟨found, hfound, h⟩
      obtain rfl := Except.ok.inj h
      have hentries : (Dict.ofList found).entries = found :=
        Dict.entries_insertMany (d := Dict.empty)
          (props.nodup.sublist (normalizeEntries_of_result hfound).2)
          fun k _ hk => absurd hk List.not_mem_nil
      refine ⟨rfl, Option.Rel.some ?_⟩
      rw [hentries]
      exact hfound
    · rintro ⟨hr, hrel⟩
      obtain ⟨props', hprops', hentries⟩ := exists_of_rel_some_left hrel
      rw [hprops', ← props'.ofList_entries] at hr
      exact ⟨props'.entries, hentries, congrArg _ hr.symm⟩

/-- Properties that are normal: the stage changes nothing. -/
def Record.NormalProperties (ctx : Context) (r : Record) : Prop :=
  ∀ props ∈ r.props, normalizeEntries ctx props.entries = pure props.entries

theorem normalProperties_of_result {ctx : Context} {r r' : Record}
    (h : (normalizeProperties ctx r).result = .ok r') : r'.NormalProperties ctx := by
  obtain ⟨-, hrel⟩ := normalizeProperties_eq_ok_iff.1 h
  intro props' hprops'
  rw [Option.mem_def.1 hprops'] at hrel
  obtain ⟨_, -, hentries⟩ := exists_of_rel_some_right hrel
  exact (normalizeEntries_of_result hentries).1

theorem normalizeProperties_of_normal {ctx : Context} {r : Record} (h : r.NormalProperties ctx) :
    normalizeProperties ctx r = pure r := by
  rw [normalizeProperties]
  cases hprops : r.props with
  | none => rfl
  | some props =>
    have hr : { r with props := some props } = r := by rw [← hprops]
    simp only [h props hprops, Logged.pure_def, Logged.bind_ok, Dict.ofList_entries, hr]
    rfl

end ComponentDocs
