import ComponentDocs.Sections
import Mathlib.Data.List.Forall2

/-!
# Cutting lists into sections

How the sections of a list change when elements are put before it, where the list is cut for each of
them: `exists_of_sections_eq`, and that lists whose elements match, openings included, have matching
sections: `forall₂_sections`.
-/

namespace ComponentDocs

variable {α β γ δ : Type}

theorem sections_append_of_none {head? : α → Option β} {run : List α}
    (h : ∀ a ∈ run, head? a = none) (rest : List α) :
    sections head? (run ++ rest) = (run ++ (sections head? rest).1, (sections head? rest).2) := by
  induction run with
  | nil => rfl
  | cons a others ih =>
    rw [List.cons_append, sections_cons_none (h a List.mem_cons_self),
      ih fun b hb => h b (List.mem_cons_of_mem a hb)]
    rfl

theorem sections_of_none {head? : α → Option β} {run : List α} (h : ∀ a ∈ run, head? a = none) :
    sections head? run = (run, []) := by
  rw [← List.append_nil run, sections_append_of_none h, sections_nil, List.append_nil]

-- An opening element with a run that opens nothing is a section of its own, unless the run goes
-- on.
theorem sections_section_append {head? : α → Option β} {a : α} {b : β} {run rest : List α}
    (ha : head? a = some b) (hrun : ∀ x ∈ run, head? x = none) :
    sections head? (a :: run ++ rest) =
      ([], (b, run ++ (sections head? rest).1) :: (sections head? rest).2) := by
  rw [List.cons_append, sections_cons_some ha, sections_append_of_none hrun]

-- The run before the first section is a front part of the list.
theorem sections_fst_append (head? : α → Option β) (l : List α) :
    ∃ rest, l = (sections head? l).1 ++ rest ∧
      sections head? rest = ([], (sections head? l).2) := by
  induction l with
  | nil => exact ⟨[], rfl, rfl⟩
  | cons a others ih =>
    cases ha : head? a with
    | none =>
      obtain ⟨rest, hl, hrest⟩ := ih
      rw [sections_cons_none ha]
      exact ⟨rest, congrArg (a :: ·) hl, hrest⟩
    | some b =>
      refine ⟨a :: others, ?_, ?_⟩
      · rw [sections_cons_some ha]
        rfl
      · rw [sections_cons_some ha]

/-- Nothing is lost: a list is spelled by the run before its first section and the sections. -/
theorem map_fst_append_flatMap_sections {head? : α → Option β} {f : α → γ} {g : β → γ}
    (h : ∀ a b, head? a = some b → g b = f a) (l : List α) :
    (sections head? l).1.map f ++ (sections head? l).2.flatMap (fun s => g s.1 :: s.2.map f) =
      l.map f := by
  induction l with
  | nil => rfl
  | cons a others ih =>
    cases ha : head? a with
    | none => rw [sections_cons_none ha, List.map_cons, List.cons_append, ih, List.map_cons]
    | some b =>
      rw [sections_cons_some ha, List.map_nil, List.nil_append, List.flatMap_cons, h a b ha,
        List.cons_append, ih, List.map_cons]

-- The sections found are cut where an opening element stands, which tells where the list is cut.
theorem exists_of_sections_eq {head? : α → Option β} {l : List α} {before after : List (β × List α)}
    {s : β × List α} (h : (sections head? l).2 = before ++ s :: after) :
    ∃ front a back, l = front ++ a :: (s.2 ++ back) ∧ head? a = some s.1 ∧
      sections head? front = ((sections head? l).1, before) ∧
      sections head? back = ([], after) ∧ ∀ x ∈ s.2, head? x = none := by
  induction l generalizing before with
  | nil => cases before <;> cases h
  | cons x others ih =>
    cases hx : head? x with
    | none =>
      rw [sections_cons_none hx] at h ⊢
      obtain ⟨front, a, back, hl, ha, hfront, hback⟩ := ih h
      refine ⟨x :: front, a, back, congrArg (x :: ·) hl, ha, ?_, hback⟩
      rw [sections_cons_none hx, hfront]
    | some b =>
      rw [sections_cons_some hx] at h ⊢
      cases before with
      | nil =>
        obtain ⟨rfl, rfl⟩ := List.cons.inj h
        obtain ⟨back, hothers, hback⟩ := sections_fst_append head? others
        exact ⟨[], x, back, congrArg (x :: ·) hothers, hx, rfl, hback,
          fun y hy => head?_eq_none_of_mem_before hy⟩
      | cons p before =>
        obtain ⟨rfl, hothers⟩ := List.cons.inj h
        obtain ⟨front, a, back, hl, ha, hfront, hback⟩ := ih hothers
        refine ⟨x :: front, a, back, congrArg (x :: ·) hl, ha, ?_, hback⟩
        rw [sections_cons_some hx, hfront]

-- An opening element starts a section, above which the sections are those of what stands there.
theorem sections_append_some {head? : α → Option β} {a : α} {b : β} (ha : head? a = some b)
    (front back : List α) :
    sections head? (front ++ a :: back) = ((sections head? front).1,
      (sections head? front).2 ++ (b, (sections head? back).1) :: (sections head? back).2) := by
  induction front with
  | nil =>
    rw [List.nil_append, sections_cons_some ha]
    rfl
  | cons x others ih =>
    cases hx : head? x with
    | none => rw [List.cons_append, sections_cons_none hx, sections_cons_none hx, ih]
    | some c =>
      rw [List.cons_append, sections_cons_some hx, sections_cons_some hx, ih]
      rfl

-- Another list, or another way to recognize its elements, is cut in the same places.
theorem sections_map {head₁ : α → Option β} {head₂ : γ → Option δ} {f : α → γ} {g : β → δ}
    (h : ∀ a, head₂ (f a) = (head₁ a).map g) (l : List α) :
    sections head₂ (l.map f) =
      ((sections head₁ l).1.map f, (sections head₁ l).2.map fun s => (g s.1, s.2.map f)) := by
  induction l with
  | nil => rfl
  | cons a others ih =>
    cases ha : head₁ a with
    | none =>
      have hnone : head₂ (f a) = none := by rw [h, ha, Option.map_none]
      rw [List.map_cons, sections_cons_none hnone, sections_cons_none ha, ih, List.map_cons]
    | some b =>
      have hsome : head₂ (f a) = some (g b) := by rw [h, ha, Option.map_some]
      rw [List.map_cons, sections_cons_some hsome, sections_cons_some ha, ih, List.map_nil,
        List.map_cons]

-- A run behind a list that opens nothing belongs to the last section, or to the first run.
theorem forall₂_sections_append_of_none {head? : α → Option β} {run : List α}
    (h : ∀ a ∈ run, head? a = none) (l : List α) :
    ((sections head? (l ++ run)).1 = (sections head? l).1 ∨
        (sections head? (l ++ run)).1 = (sections head? l).1 ++ run) ∧
      List.Forall₂ (fun s t => t.1 = s.1 ∧ (t.2 = s.2 ∨ t.2 = s.2 ++ run))
        (sections head? l).2 (sections head? (l ++ run)).2 := by
  induction l with
  | nil =>
    rw [List.nil_append, sections_of_none h, sections_nil]
    exact ⟨.inr rfl, .nil⟩
  | cons a others ih =>
    cases ha : head? a with
    | none =>
      rw [List.cons_append, sections_cons_none ha, sections_cons_none ha]
      exact ⟨ih.1.imp (congrArg (a :: ·)) (congrArg (a :: ·)), ih.2⟩
    | some b =>
      rw [List.cons_append, sections_cons_some ha, sections_cons_some ha]
      exact ⟨.inl rfl, .cons ⟨rfl, ih.1⟩ ih.2⟩

/-- Lists whose elements match have matching sections. -/
theorem forall₂_sections {R : α → γ → Prop} {S : β → δ → Prop} {head₁ : α → Option β}
    {head₂ : γ → Option δ} (hhead : ∀ a c, R a c → Option.Rel S (head₁ a) (head₂ c))
    {l : List α} {m : List γ} (h : List.Forall₂ R l m) :
    List.Forall₂ R (sections head₁ l).1 (sections head₂ m).1 ∧
      List.Forall₂ (fun s t => S s.1 t.1 ∧ List.Forall₂ R s.2 t.2)
        (sections head₁ l).2 (sections head₂ m).2 := by
  induction h with
  | nil => exact ⟨.nil, .nil⟩
  | @cons a c _ _ hac _ ih =>
    have hrel := hhead a c hac
    cases ha : head₁ a with
    | none =>
      rw [ha] at hrel
      cases hc : head₂ c with
      | none =>
        rw [sections_cons_none ha, sections_cons_none hc]
        exact ⟨.cons hac ih.1, ih.2⟩
      | some d =>
        rw [hc] at hrel
        cases hrel
    | some b =>
      rw [ha] at hrel
      cases hc : head₂ c with
      | none =>
        rw [hc] at hrel
        cases hrel
      | some d =>
        rw [hc] at hrel
        cases hrel with
        | some hbd =>
          rw [sections_cons_some ha, sections_cons_some hc]
          exact ⟨.nil, .cons ⟨hbd, ih.1⟩ ih.2⟩

end ComponentDocs
