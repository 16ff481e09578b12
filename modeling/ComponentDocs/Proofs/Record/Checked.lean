import ComponentDocs.Record.Issue
import Mathlib.Data.List.Forall2

/-!
# Joined readings

When readings that are joined have a value, and how a function on what is read passes through the
joints: `apply_eq_valid_iff`, `map_apply`.
-/

namespace ComponentDocs.Checked

variable {α β γ : Type}

theorem map_eq (f : α → β) (c : Checked α) : f <$> c = map f c := rfl

theorem seq_eq (f : Checked (α → β)) (c : Checked α) : f <*> c = apply f c := rfl

/-! ## Values -/

theorem map_eq_valid_iff {f : α → β} {c : Checked α} {b : β} :
    map f c = .valid b ↔ ∃ a, c = .valid a ∧ f a = b := by
  cases c <;> simp [map]

theorem apply_eq_valid_iff {f : Checked (α → β)} {c : Checked α} {b : β} :
    apply f c = .valid b ↔ ∃ g a, f = .valid g ∧ c = .valid a ∧ g a = b := by
  cases f <;> cases c <;> simp [apply]

theorem under_eq_valid_iff {step : Step} {c : Checked α} {a : α} :
    c.under step = .valid a ↔ c = .valid a := by
  cases c <;> simp [under]

theorem toExcept_eq_ok_iff {c : Checked α} {a : α} : c.toExcept = .ok a ↔ c = .valid a := by
  cases c <;> simp [toExcept]

theorem collect_eq_valid_iff {l : List (Checked α)} {values : List α} :
    collect l = .valid values ↔ List.Forall₂ (fun c a => c = .valid a) l values := by
  induction l generalizing values with
  | nil => simp [collect, eq_comm]
  | cons c rest ih =>
    rw [collect, apply_eq_valid_iff, List.forall₂_cons_left_iff]
    simp only [map_eq_valid_iff, ih]
    constructor
    · rintro ⟨_, others, ⟨a, ha, rfl⟩, hothers, rfl⟩
      exact ⟨a, others, ha, hothers, rfl⟩
    · rintro ⟨a, others, ha, hothers, rfl⟩
      exact ⟨_, others, ⟨a, ha, rfl⟩, hothers, rfl⟩

/-! ## Functions on what is read -/

theorem map_map (f : β → γ) (g : α → β) (c : Checked α) :
    map f (map g c) = map (fun a => f (g a)) c := by
  cases c <;> rfl

-- A function on what is joined goes to the function that joins it.
theorem map_apply (f : β → γ) (g : Checked (α → β)) (c : Checked α) :
    map f (apply g c) = apply (map (fun h a => f (h a)) g) c := by
  cases g <;> cases c <;> rfl

theorem apply_map (f : Checked (β → γ)) (g : α → β) (c : Checked α) :
    apply f (map g c) = apply (map (fun h a => h (g a)) f) c := by
  cases f <;> cases c <;> rfl

theorem apply_valid_right (f : Checked (α → β)) (a : α) :
    apply f (.valid a) = map (fun g => g a) f := by
  cases f <;> rfl

theorem under_map (step : Step) (f : α → β) (c : Checked α) :
    (map f c).under step = map f (c.under step) := by
  cases c <;> rfl

theorem collect_map (f : α → β) (l : List (Checked α)) :
    collect (l.map (map f)) = map (List.map f) (collect l) := by
  induction l with
  | nil => rfl
  | cons c rest ih =>
    rw [List.map_cons, collect, collect, ih, map_map, apply_map, map_apply, map_map, map_map]
    rfl

end ComponentDocs.Checked
