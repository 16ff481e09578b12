import ComponentDocs.Proofs.Normal.Failure

/-!
# The order of the stages

Each stage reads and writes one part of a record, and only the stages of the description and of the
visible name have the same part. So stages may run in any order in which the description comes
before the visible name: `runStages_of_perm`.
-/

namespace ComponentDocs

/-! ## Parts of a record -/

/-- A part of a record that stages read and write. -/
inductive RecordPart where
  | methods
  /-- The description, what it says, and the visible name. -/
  | text
  | props
  | displayName
  deriving DecidableEq, Repr

namespace RecordPart

/-- The record `r` with a part of the record `s` in place of its own. -/
def copy : (part : RecordPart) → (s r : Record) → Record
  | .methods, s, r => { r with methods := s.methods }
  | .text, s, r =>
    { r with
      description := s.description
      doclets := s.doclets
      tags := s.tags
      examples := s.examples
      external := s.external
      visibleName := s.visibleName }
  | .props, s, r => { r with props := s.props }
  | .displayName, s, r => { r with displayName := s.displayName }

theorem copy_self (part : RecordPart) (r : Record) : part.copy r r = r := by
  cases part <;> rfl

theorem copy_comm {part other : RecordPart} (h : part ≠ other) (q s r : Record) :
    part.copy q (other.copy s r) = other.copy s (part.copy q r) := by
  cases part <;> cases other <;> first | rfl | exact absurd rfl h

end RecordPart

/-- The part of a record that a stage reads and writes. -/
def Stage.part : Stage → RecordPart
  | .methods => .methods
  | .description => .text
  | .props => .props
  | .displayName => .displayName
  | .visibleName => .text

/-! ## Stages on other records with the same part -/

theorem normalizeMethods_copy (ctx : Context) (s r : Record) :
    normalizeMethods ctx (RecordPart.methods.copy s r) =
      (RecordPart.methods.copy · r) <$> normalizeMethods ctx s := by
  have hmethods : (RecordPart.methods.copy s r).methods = s.methods := rfl
  rw [normalizeMethods, normalizeMethods, hmethods, ← Logged.ofExcept_map]
  refine congrArg Logged.ofExcept ?_
  cases (s.methods.filter Method.isPublic).mapM (Method.normalize ctx.settings) <;> rfl

theorem resolveExamples_copy (ctx : Context) (s r : Record) :
    resolveExamples ctx (RecordPart.text.copy s r) =
      (RecordPart.text.copy · r) <$> resolveExamples ctx s := by
  have hoffered : (RecordPart.text.copy s r).offered = s.offered := rfl
  rw [resolveExamples_eq_outcome, resolveExamples_eq_outcome, hoffered, Logged.map_eq,
    Record.outcome, Record.outcome]
  cases s.offered.findSome? fun body => (ctx.judge body).fault? <;> rfl

theorem normalizeDescription_copy (ctx : Context) (s r : Record) :
    normalizeDescription ctx (RecordPart.text.copy s r) =
      (RecordPart.text.copy · r) <$> normalizeDescription ctx s := by
  by_cases hempty : ∀ text ∈ s.description, text = ""
  · have hempty' : ∀ text ∈ (RecordPart.text.copy s r).description, text = "" := hempty
    rw [normalizeDescription_of_empty hempty, normalizeDescription_of_empty hempty', map_pure]
    rfl
  · push Not at hempty
    obtain ⟨text, htext, hne⟩ := hempty
    have htext' : (RecordPart.text.copy s r).description = some text := htext
    have hdescribe (tags : TagGroups) :
        (RecordPart.text.copy s r).describe ctx.lexers ctx.settings.highlightCssClass text tags =
          RecordPart.text.copy
            (s.describe ctx.lexers ctx.settings.highlightCssClass text tags) r := rfl
    simp only [normalizeDescription_of_text htext hne, normalizeDescription_of_text htext' hne,
      hdescribe, resolveExamples_copy, map_bind]

theorem normalizeProperties_copy (ctx : Context) (s r : Record) :
    normalizeProperties ctx (RecordPart.props.copy s r) =
      (RecordPart.props.copy · r) <$> normalizeProperties ctx s := by
  have hprops : (RecordPart.props.copy s r).props = s.props := rfl
  rw [normalizeProperties, normalizeProperties, hprops]
  cases s.props with
  | none => rw [map_pure]
  | some props =>
    rw [map_bind]
    rfl

theorem fillDisplayName_copy (ctx : Context) (s r : Record) :
    fillDisplayName ctx (RecordPart.displayName.copy s r) =
      (RecordPart.displayName.copy · r) <$> fillDisplayName ctx s := by
  have hname : (RecordPart.displayName.copy s r).displayName = s.displayName := rfl
  unfold fillDisplayName
  rw [hname]
  split
  · rfl
  · rfl
  · split <;> rfl

theorem promoteVisibleName_copy (ctx : Context) (s r : Record) :
    promoteVisibleName ctx (RecordPart.text.copy s r) =
      (RecordPart.text.copy · r) <$> promoteVisibleName ctx s := by
  have hdoclets : (RecordPart.text.copy s r).doclets = s.doclets := rfl
  unfold promoteVisibleName
  rw [hdoclets]
  cases s.doclets.get? ctx.settings.labelDoclet with
  | none => rfl
  | some label =>
    by_cases hset : label.isSet
    · simp only [if_pos hset]
      rfl
    · simp only [if_neg hset]
      rfl

namespace Stage

/-- What a stage does to a record with a part of another one is what it does to that part. -/
theorem run_copy (ctx : Context) (stage : Stage) (s r : Record) :
    stage.run ctx (stage.part.copy s r) = (stage.part.copy · r) <$> stage.run ctx s := by
  cases stage with
  | methods => exact normalizeMethods_copy ctx s r
  | description => exact normalizeDescription_copy ctx s r
  | props => exact normalizeProperties_copy ctx s r
  | displayName => exact fillDisplayName_copy ctx s r
  | visibleName => exact promoteVisibleName_copy ctx s r

variable {ctx : Context} {r r₁ r₂ : Record} {stage other : Stage}

-- A stage writes no part but its own.
theorem copy_of_run (h : (stage.run ctx r).result = .ok r₁) : stage.part.copy r₁ r = r₁ := by
  have hself := congrArg Logged.result (run_copy ctx stage r r)
  rw [RecordPart.copy_self, Logged.map_eq, h] at hself
  exact (Except.ok.inj hself).symm

-- After a stage another one with another part does what it would have done before it.
theorem run_of_run (hpart : stage.part ≠ other.part) (h : (stage.run ctx r).result = .ok r₁) :
    (other.run ctx r₁).result = (other.run ctx r).result.map (other.part.copy · r₁) := by
  have hsame : other.part.copy r r₁ = r₁ := by
    rw [← copy_of_run h, RecordPart.copy_comm hpart.symm, RecordPart.copy_self]
  have hcopy := congrArg Logged.result (run_copy ctx other r r₁)
  rwa [hsame, Logged.map_eq] at hcopy

theorem run_swap (hpart : stage.part ≠ other.part) {r' : Record}
    (h₁ : (stage.run ctx r).result = .ok r₁) (h : (other.run ctx r₁).result = .ok r') :
    ∃ r₂, (other.run ctx r).result = .ok r₂ ∧ (stage.run ctx r₂).result = .ok r' := by
  rw [run_of_run hpart h₁] at h
  cases hother : (other.run ctx r).result with
  | error fault =>
    rw [hother] at h
    cases h
  | ok r₂ =>
    refine ⟨r₂, rfl, ?_⟩
    rw [hother] at h
    obtain rfl := Except.ok.inj h
    -- both orders take the part of each stage from its own run on `r`
    have hswap : stage.part.copy r₁ r₂ = other.part.copy r₂ r₁ := by
      conv_lhs => rw [← copy_of_run hother]
      conv_rhs => rw [← copy_of_run h₁]
      exact RecordPart.copy_comm hpart r₁ r₂ r
    rw [run_of_run hpart.symm hother, h₁]
    exact congrArg Except.ok hswap

end Stage

/-! ## Results -/

-- A stage may run before those that have other parts.
theorem runStages_append_cons {ctx : Context} {r r' : Record} {before after : List Stage}
    {stage : Stage} (h : ∀ other ∈ before, other.part ≠ stage.part) :
    (runStages ctx r (before ++ stage :: after)).result = .ok r' ↔
      (runStages ctx r (stage :: (before ++ after))).result = .ok r' := by
  induction before generalizing r with
  | nil => rfl
  | cons other others ih =>
    rw [List.forall_mem_cons] at h
    simp only [List.cons_append, runStages_cons_eq_ok_iff, ih h.2]
    constructor
    · rintro ⟨r₁, h₁, r₂, h₂, hrest⟩
      obtain ⟨r₃, h₃, h₄⟩ := Stage.run_swap h.1 h₁ h₂
      exact ⟨r₃, h₃, r₂, h₄, hrest⟩
    · rintro ⟨r₁, h₁, r₂, h₂, hrest⟩
      obtain ⟨r₃, h₃, h₄⟩ := Stage.run_swap h.1.symm h₁ h₂
      exact ⟨r₃, h₃, r₂, h₄, hrest⟩

-- Stages may run in any order in which those with the same part keep theirs.
theorem runStages_eq_ok_iff_of_perm {ctx : Context} {r r' : Record} {order stages : List Stage}
    (hperm : order.Perm stages)
    (hkeep : ∀ s t : Stage, [s, t].Sublist stages → [t, s].Sublist order → s.part ≠ t.part) :
    (runStages ctx r order).result = .ok r' ↔ (runStages ctx r stages).result = .ok r' := by
  induction stages generalizing order r with
  | nil => rw [hperm.eq_nil]
  | cons stage rest ih =>
    obtain ⟨before, after, rfl⟩ := List.append_of_mem (hperm.mem_iff.2 List.mem_cons_self)
    have hperm' : (before ++ after).Perm rest :=
      (List.perm_middle.symm.trans hperm).cons_inv
    have hbefore : ∀ other ∈ before, other.part ≠ stage.part := by
      intro other hother
      refine (hkeep stage other ?_ ?_).symm
      · have hmem : other ∈ rest := hperm'.mem_iff.1 (List.mem_append_left after hother)
        exact (List.singleton_sublist.2 hmem).cons_cons stage
      · exact (List.singleton_sublist.2 hother).append
          (List.singleton_sublist.2 List.mem_cons_self)
    have hsub : (before ++ after).Sublist (before ++ stage :: after) :=
      (List.Sublist.refl before).append (List.sublist_cons_self stage after)
    have hkeep' : ∀ s t : Stage, [s, t].Sublist rest → [t, s].Sublist (before ++ after) →
        s.part ≠ t.part := fun s t hs ht => hkeep s t (hs.cons stage) (ht.trans hsub)
    rw [runStages_append_cons hbefore, runStages_cons_eq_ok_iff, runStages_cons_eq_ok_iff]
    simp only [ih hperm' hkeep']

/-! ## Faults -/

theorem errorOf?_promoteVisibleName (ctx : Context) (r : Record) :
    errorOf? (promoteVisibleName ctx r).result = none := by
  obtain ⟨_, _, hpure⟩ := promoteVisibleName_eq_pure ctx r
  rw [hpure]
  rfl

theorem Stage.errorOf?_run_of_run {ctx : Context} {r r₁ : Record} {stage other : Stage}
    (hpart : stage.part ≠ other.part ∨ other = .visibleName)
    (h : (stage.run ctx r).result = .ok r₁) :
    errorOf? (other.run ctx r₁).result = errorOf? (other.run ctx r).result := by
  rcases hpart with hpart | rfl
  · rw [run_of_run hpart h]
    cases (other.run ctx r).result <;> rfl
  · rw [run, errorOf?_promoteVisibleName, errorOf?_promoteVisibleName]

-- A run fails over the first of its stages that fails on the record itself. Among stages with the
-- same part only one that never fails may come after another one.
theorem errorOf?_runStages {ctx : Context} {r r₁ : Record} {order : List Stage}
    (hpart : order.Pairwise fun s t => s.part ≠ t.part ∨ t = .visibleName)
    (h : ∀ stage ∈ order,
      errorOf? (stage.run ctx r₁).result = errorOf? (stage.run ctx r).result) :
    errorOf? (runStages ctx r₁ order).result =
      order.findSome? fun stage => errorOf? (stage.run ctx r).result := by
  induction order generalizing r₁ with
  | nil => rfl
  | cons stage rest ih =>
    obtain ⟨hstage, hrest⟩ := List.pairwise_cons.1 hpart
    rw [List.forall_mem_cons] at h
    have hlater : ∀ r₂, (stage.run ctx r₁).result = .ok r₂ →
        errorOf? (runStages ctx r₂ rest).result =
          rest.findSome? fun other => errorOf? (other.run ctx r).result := by
      intro r₂ h₂
      refine ih hrest fun other hother => ?_
      rw [Stage.errorOf?_run_of_run (hstage other hother) h₂, h.2 other hother]
    rw [errorOf?_runStages_cons hlater, List.findSome?_cons, h.1]
    cases errorOf? (stage.run ctx r).result <;> rfl

-- With synonyms at hand and readable examples, only a tag can be wrong.
theorem Stage.exists_tag_of_errorOf? {ctx : Context} {r : Record} {fault : Fault} {stage : Stage}
    (hgroups : ctx.settings.HasGroups) (hexamples : r.exampleFault? ctx = none)
    (h : errorOf? (stage.run ctx r).result = some fault) : ∃ e, fault = .tag e := by
  have htag {comments : List CommentText}
      (h : comments.findSome? CommentText.fault? = some fault) : ∃ e, fault = .tag e := by
    rw [CommentText.findSome?_fault?] at h
    obtain ⟨e, -, rfl⟩ := Option.map_eq_some_iff.1 h
    exact ⟨e, rfl⟩
  cases stage with
  | methods =>
    rw [run, errorOf?_normalizeMethods hgroups] at h
    exact htag h
  | description =>
    rw [run, errorOf?_normalizeDescription, hexamples, Option.or_none] at h
    obtain ⟨e, -, rfl⟩ := Option.map_eq_some_iff.1 h
    exact ⟨e, rfl⟩
  | props =>
    rw [run, errorOf?_normalizeProperties] at h
    exact htag h
  | displayName =>
    obtain ⟨_, hpure⟩ := fillDisplayName_eq_pure ctx r
    rw [run, hpure] at h
    cases h
  | visibleName =>
    rw [run, errorOf?_promoteVisibleName] at h
    cases h

theorem runStages_eq_error_iff {ctx : Context} {r : Record} {order : List Stage} {fault : Fault}
    (hpart : order.Pairwise fun s t => s.part ≠ t.part ∨ t = .visibleName) :
    (runStages ctx r order).result = .error fault ↔
      order.findSome? (fun stage => errorOf? (stage.run ctx r).result) = some fault := by
  rw [← errorOf?_eq_some_iff, errorOf?_runStages hpart fun _ _ => rfl]

-- Then a run without a result is one that a tag ends.
theorem exists_tag_iff_not_ok {ctx : Context} {r : Record} {order : List Stage}
    (hpart : order.Pairwise fun s t => s.part ≠ t.part ∨ t = .visibleName)
    (hgroups : ctx.settings.HasGroups) (hexamples : r.exampleFault? ctx = none) :
    (∃ e, (runStages ctx r order).result = .error (.tag e)) ↔
      ¬ ∃ r', (runStages ctx r order).result = .ok r' := by
  cases hrun : (runStages ctx r order).result with
  | ok r' =>
    constructor
    · rintro ⟨e, he⟩
      cases he
    · exact fun h => absurd ⟨r', rfl⟩ h
  | error fault =>
    have hfirst := (runStages_eq_error_iff hpart).1 hrun
    obtain ⟨stage, -, hstage⟩ := List.exists_of_findSome?_eq_some hfirst
    obtain ⟨e, rfl⟩ := Stage.exists_tag_of_errorOf? hgroups hexamples hstage
    constructor
    · rintro - ⟨r', hr'⟩
      cases hr'
    · exact fun _ => ⟨e, rfl⟩

/-! ## Orders -/

theorem not_sublist_swap {α : Type} {a b : α} {l : List α} (hnodup : l.Nodup)
    (h : [a, b].Sublist l) : ¬ [b, a].Sublist l := by
  induction l with
  | nil => cases h
  | cons x rest ih =>
    obtain ⟨hx, hrest⟩ := List.nodup_cons.1 hnodup
    intro hswap
    cases h with
    | cons _ h =>
      cases hswap with
      | cons _ hswap => exact ih hrest h hswap
      | cons_cons _ _ => exact hx (h.subset (List.mem_cons_of_mem a List.mem_cons_self))
    | cons_cons _ _ =>
      cases hswap with
      | cons _ hswap => exact hx (hswap.subset (List.mem_cons_of_mem b List.mem_cons_self))
      | cons_cons _ h => exact hx (h.subset List.mem_cons_self)

-- Where the description comes before the visible name, no stage but that of the visible name comes
-- after one with its part.
theorem pairwise_part {order : List Stage} (hperm : order.Perm Stage.all)
    (hbefore : [Stage.description, .visibleName].Sublist order) :
    order.Pairwise fun s t => s.part ≠ t.part ∨ t = .visibleName := by
  have hnodup : order.Nodup := hperm.nodup_iff.2 (by decide)
  rw [List.pairwise_iff_forall_sublist]
  intro s t hst
  have hne : s ≠ t := by
    rintro rfl
    simpa using hnodup.sublist hst
  have hlast : ¬ (s = .visibleName ∧ t = .description) := by
    rintro ⟨rfl, rfl⟩
    exact not_sublist_swap hnodup hbefore hst
  cases s <;> cases t <;> first | exact .inr rfl | exact absurd rfl hne | exact .inl (by decide) |
    exact absurd ⟨rfl, rfl⟩ hlast

/-- Stages that run in any order in which the description comes before the visible name give the
record of the usual order, or fail when that fails. They fail over the first of them that fails on
the record itself. So a tag ends the run when a tag ends the usual one, if the settings have the
synonyms that methods are asked for and no example of the description has a header that is
refused. -/
theorem runStages_of_perm {ctx : Context} {order : List Stage} (hperm : order.Perm Stage.all)
    (hbefore : [Stage.description, .visibleName].Sublist order) (r : Record) :
    (∀ r', (runStages ctx r order).result = .ok r' ↔ (normalize ctx r).result = .ok r') ∧
      (∀ fault, (runStages ctx r order).result = .error fault ↔
        order.findSome? (fun stage => errorOf? (stage.run ctx r).result) = some fault) ∧
      (ctx.settings.HasGroups → r.exampleFault? ctx = none →
        ((∃ e, (runStages ctx r order).result = .error (.tag e)) ↔
          ∃ e, (normalize ctx r).result = .error (.tag e))) := by
  have hpart := pairwise_part hperm hbefore
  have hresult (r' : Record) :
      (runStages ctx r order).result = .ok r' ↔ (normalize ctx r).result = .ok r' := by
    refine runStages_eq_ok_iff_of_perm hperm fun s t hs ht hsame => ?_
    -- in the usual order nothing comes after the visible name
    rcases List.pairwise_iff_forall_sublist.1 hpart ht with hne | rfl
    · exact hne hsame.symm
    · have hlast : ¬ [Stage.visibleName, t].Sublist Stage.all := by cases t <;> decide
      exact hlast hs
  have hall : Stage.all.Pairwise fun s t => s.part ≠ t.part ∨ t = .visibleName := by decide
  refine ⟨hresult, fun fault => runStages_eq_error_iff hpart, fun hgroups hexamples => ?_⟩
  rw [exists_tag_iff_not_ok hpart hgroups hexamples, normalize,
    exists_tag_iff_not_ok hall hgroups hexamples]
  simp only [hresult, normalize]

/-- A record whose second stage and whose third one fail. -/
def twiceWrongRecord : Record :=
  { Record.ofDescription "@param" with
    props := some (Dict.ofList
      [("size", ⟨some "@returns \x7b", none, false, ⟨none, false⟩, Dict.empty, Dict.empty⟩)]) }

/-- With the properties first, it is their tag that ends the run. -/
theorem runStages_of_perm_twiceWrongRecord :
    [Stage.props, .displayName, .description, .visibleName, .methods].Perm Stage.all ∧
      [Stage.description, .visibleName].Sublist
        [.props, .displayName, .description, .visibleName, .methods] ∧
      Context.plain.settings.HasGroups ∧ twiceWrongRecord.exampleFault? .plain = none ∧
      (runStages .plain twiceWrongRecord
        [.props, .displayName, .description, .visibleName, .methods]).result =
          .error (.tag ⟨.unbalancedBraces, 1, "\x7b"⟩) ∧
      ∃ e, (normalize .plain twiceWrongRecord).result = .error (.tag e) := by
  have hperm : [Stage.props, .displayName, .description, .visibleName, .methods].Perm
      Stage.all := by decide
  have hbefore : [Stage.description, .visibleName].Sublist
      [.props, .displayName, .description, .visibleName, .methods] := by decide
  obtain ⟨-, hfault, htag⟩ := @runStages_of_perm .plain _ hperm hbefore twiceWrongRecord
  have hexamples : twiceWrongRecord.exampleFault? .plain = none := by decide +kernel
  have hfirst := (hfault (.tag ⟨.unbalancedBraces, 1, "\x7b"⟩)).2 (by decide +kernel)
  exact ⟨hperm, hbefore, Settings.hasGroups_default, hexamples, hfirst,
    (htag Settings.hasGroups_default hexamples).1 ⟨_, hfirst⟩⟩

/-- Settings without synonyms. -/
def Context.unsynonymous : Context :=
  { Context.plain with settings := { Settings.default with tagSynonyms := Dict.empty } }

/-- A record with a public method and a tag without a name in its description. -/
def publicMethodRecord : Record :=
  { Record.ofDescription "@param" with
    methods := [⟨"focus", some "@public", [], none, [], Dict.empty, none, Dict.empty⟩] }

/-- Without synonyms the public method ends the usual run, and the tag of the description one that
starts with the description. -/
theorem runStages_unsynonymous :
    [Stage.description, .methods, .props, .displayName, .visibleName].Perm Stage.all ∧
      [Stage.description, .visibleName].Sublist
        [.description, .methods, .props, .displayName, .visibleName] ∧
      (runStages .unsynonymous publicMethodRecord
        [.description, .methods, .props, .displayName, .visibleName]).result =
          .error (.tag ⟨.missingIdentifier "param", 1, ""⟩) ∧
      (normalize .unsynonymous publicMethodRecord).result = .error (.noSynonyms "params") := by
  refine ⟨by decide, by decide, ?_, ?_⟩
  · rw [← errorOf?_eq_some_iff]
    decide +kernel
  · rw [← errorOf?_eq_some_iff]
    decide +kernel

end ComponentDocs
