import ComponentDocs.Log
import Mathlib.Data.List.Forall2

/-!
# Results of work done in turn

Work that is done in turn has a result when each part has one, and a list of results when each
element has one: `mapM_eq_ok_iff`.
-/

namespace ComponentDocs

variable {ε α β : Type}

theorem bind_eq_ok_iff {x : Except ε α} {f : α → Except ε β} {b : β} :
    x >>= f = .ok b ↔ ∃ a, x = .ok a ∧ f a = .ok b := by
  cases x with
  | error e =>
    constructor
    · intro h
      cases h
    · rintro ⟨a, h, -⟩
      cases h
  | ok a =>
    constructor
    · exact fun h => ⟨a, rfl, h⟩
    · rintro ⟨a', ha, h⟩
      rw [Except.ok.inj ha]
      exact h

theorem exists_ok_of_any {x : Except ε α} {p : α → Bool} (h : x.toOption.any p = true) :
    ∃ a, x = .ok a ∧ p a = true := by
  cases x with
  | error e => cases h
  | ok a => exact ⟨a, rfl, h⟩

theorem Fault.ofTag_eq_ok_iff {x : Except TagError α} {a : α} :
    Fault.ofTag x = .ok a ↔ x = .ok a := by
  cases x with
  | error e =>
    constructor
    · intro h
      cases h
    · intro h
      cases h
  | ok b =>
    constructor
    · exact fun h => congrArg _ (Except.ok.inj h)
    · exact fun h => congrArg _ (Except.ok.inj h)

/-- The error of work that has no result. -/
def errorOf? : Except ε α → Option ε
  | .error e => some e
  | .ok _ => none

theorem errorOf?_eq_some_iff {x : Except ε α} {e : ε} : errorOf? x = some e ↔ x = .error e := by
  cases x with
  | error e' =>
    constructor
    · exact fun h => congrArg _ (Option.some.inj h)
    · exact fun h => congrArg _ (Except.error.inj h)
  | ok a =>
    constructor
    · intro h
      cases h
    · intro h
      cases h

theorem errorOf?_eq_none_iff {x : Except ε α} : errorOf? x = none ↔ ∃ a, x = .ok a := by
  cases x with
  | error e => exact iff_of_false (by simp [errorOf?]) (by simp)
  | ok a => exact iff_of_true rfl ⟨a, rfl⟩

theorem errorOf?_ofTag (x : Except TagError α) :
    errorOf? (Fault.ofTag x) = (errorOf? x).map .tag := by
  cases x <;> rfl

-- Work in turn has the first error, if that of the second part is the same whatever the first part
-- comes to.
theorem errorOf?_bind {x : Except ε α} {f : α → Except ε β} {later : Option ε}
    (h : ∀ a, x = .ok a → errorOf? (f a) = later) :
    errorOf? (x >>= f) = (errorOf? x).or later := by
  cases x with
  | error e => rfl
  | ok a => exact h a rfl

theorem errorOf?_mapM (f : α → Except ε β) (l : List α) :
    errorOf? (l.mapM f) = l.findSome? fun a => errorOf? (f a) := by
  induction l with
  | nil => rfl
  | cons a rest ih =>
    have hrest (b : β) : errorOf? (rest.mapM f >>= fun others => pure (b :: others)) =
        errorOf? (rest.mapM f) := by
      cases rest.mapM f <;> rfl
    rw [List.mapM_cons, errorOf?_bind fun b _ => hrest b, ih, List.findSome?_cons]
    cases errorOf? (f a) <;> rfl

theorem mapM_eq_ok_iff {f : α → Except ε β} {l : List α} {found : List β} :
    l.mapM f = .ok found ↔ List.Forall₂ (fun a b => f a = .ok b) l found := by
  induction l generalizing found with
  | nil =>
    rw [List.mapM_nil, List.forall₂_nil_left_iff]
    constructor
    · exact fun h => (Except.ok.inj h).symm
    · exact fun h => congrArg _ h.symm
  | cons a rest ih =>
    rw [List.mapM_cons, bind_eq_ok_iff, List.forall₂_cons_left_iff]
    constructor
    · rintro ⟨b, hb, h⟩
      obtain ⟨others, hothers, h⟩ := bind_eq_ok_iff.1 h
      exact ⟨b, others, hb, ih.1 hothers, (Except.ok.inj h).symm⟩
    · rintro ⟨b, others, hb, hothers, rfl⟩
      exact ⟨b, hb, bind_eq_ok_iff.2 ⟨others, ih.2 hothers, rfl⟩⟩

theorem toOption_bind (x : Except ε α) (f : α → Except ε β) :
    (x >>= f).toOption = x.toOption.bind fun a => (f a).toOption := by
  cases x <;> rfl

-- Work in turn comes to the same when that on each element does.
theorem toOption_mapM_congr {γ : Type} {f : α → Except ε β} {g : γ → Except ε β} {l : List α}
    {m : List γ} (h : List.Forall₂ (fun a c => (f a).toOption = (g c).toOption) l m) :
    (l.mapM f).toOption = (m.mapM g).toOption := by
  induction h with
  | nil => rfl
  | cons hac _ ih =>
    simp only [List.mapM_cons, toOption_bind, hac, ih]

-- Each element of the second list has one in the first list to which it corresponds.
theorem exists_of_mem_right {R : α → β → Prop} {l : List α} {found : List β}
    (h : List.Forall₂ R l found) {b : β} (hb : b ∈ found) : ∃ a ∈ l, R a b := by
  induction h with
  | nil => exact absurd hb List.not_mem_nil
  | @cons a b' _ _ hab _ ih =>
    rcases List.mem_cons.1 hb with rfl | hmem
    · exact ⟨a, List.mem_cons_self, hab⟩
    · obtain ⟨a', ha', h'⟩ := ih hmem
      exact ⟨a', List.mem_cons_of_mem a ha', h'⟩

theorem exists_of_rel_some_left {R : α → β → Prop} {a : α} {o : Option β}
    (h : Option.Rel R (some a) o) : ∃ b, o = some b ∧ R a b := by
  cases h with
  | some hab => exact ⟨_, rfl, hab⟩

theorem exists_of_rel_some_right {R : α → β → Prop} {o : Option α} {b : β}
    (h : Option.Rel R o (some b)) : ∃ a, o = some a ∧ R a b := by
  cases h with
  | some hab => exact ⟨_, rfl, hab⟩

-- Filtering and then working on each element leaves a list on which both change nothing, if that
-- is so for each element.
theorem mapM_filter_of_fixed {p : α → Bool} {f : α → Except ε α}
    (hf : ∀ a b, p a → f a = .ok b → p b ∧ f b = .ok b) {l found : List α}
    (h : (l.filter p).mapM f = .ok found) : (found.filter p).mapM f = .ok found := by
  have hkept : ∀ a ∈ l.filter p, p a := fun a ha => (List.mem_filter.1 ha).2
  generalize l.filter p = kept at h hkept
  -- the elements of both lists correspond, which carries the property over one by one
  have hfound : ∀ b ∈ found, p b ∧ f b = .ok b := by
    have hall := mapM_eq_ok_iff.1 h
    clear h
    induction hall with
    | nil => exact fun b hb => absurd hb List.not_mem_nil
    | @cons a b rest others hab _ ih =>
      rw [List.forall_mem_cons] at hkept ⊢
      exact ⟨hf a b hkept.1 hab, ih hkept.2⟩
  rw [List.filter_eq_self.2 fun b hb => (hfound b hb).1, mapM_eq_ok_iff, List.forall₂_same]
  exact fun b hb => (hfound b hb).2

namespace Logged

theorem andThen_assoc {γ : Type} (x : Logged α) (f : α → Logged β) (g : β → Logged γ) :
    (x >>= f) >>= g = x >>= fun a => f a >>= g := by
  obtain ⟨log, result⟩ := x
  cases result with
  | error fault => rfl
  | ok a =>
    rw [bind_ok, bind_ok]
    obtain ⟨found, result⟩ := f a
    cases result with
    | error fault => rfl
    | ok b => exact congrArg (Logged.mk · _) (List.append_assoc log found _)

theorem andThen_pure (x : Logged α) : x >>= pure = x := by
  obtain ⟨log, result⟩ := x
  cases result with
  | error fault => rfl
  | ok a => exact congrArg (Logged.mk · _) (List.append_nil log)

instance : LawfulMonad Logged :=
  LawfulMonad.mk' (m := Logged) andThen_pure (fun _ _ => rfl) andThen_assoc

-- A function on the result leaves the log as it is.
theorem map_eq (f : α → β) (x : Logged α) : f <$> x = ⟨x.log, x.result.map f⟩ := by
  obtain ⟨log, result⟩ := x
  cases result with
  | error fault => rfl
  | ok a => exact congrArg (Logged.mk · _) (List.append_nil log)

theorem ofExcept_map (f : α → β) (x : Except Fault α) : ofExcept (x.map f) = f <$> ofExcept x :=
  (map_eq f (ofExcept x)).symm

theorem ofExcept_result (x : Except Fault α) : (ofExcept x).result = x := rfl

theorem bind_result_eq_ok_iff {x : Logged α} {f : α → Logged β} {b : β} :
    (x >>= f).result = .ok b ↔ ∃ a, x.result = .ok a ∧ (f a).result = .ok b := by
  obtain ⟨log, result⟩ := x
  cases result with
  | error fault =>
    rw [bind_error]
    constructor
    · intro h
      cases h
    · rintro ⟨a, h, -⟩
      cases h
  | ok a =>
    rw [bind_ok]
    constructor
    · exact fun h => ⟨a, rfl, h⟩
    · rintro ⟨a', ha, h⟩
      rw [Except.ok.inj ha]
      exact h

theorem bind_result_of_error {x : Logged α} {fault : Fault} (h : x.result = .error fault)
    (f : α → Logged β) : (x >>= f).result = .error fault := by
  obtain ⟨log, result⟩ := x
  obtain rfl : result = .error fault := h
  rfl

theorem errorOf?_bind {x : Logged α} {f : α → Logged β} {later : Option Fault}
    (h : ∀ a, x.result = .ok a → errorOf? (f a).result = later) :
    errorOf? (x >>= f).result = (errorOf? x.result).or later := by
  obtain ⟨log, result⟩ := x
  cases result with
  | error fault => rfl
  | ok a => exact h a rfl

-- Nothing can go wrong in the second part.
theorem errorOf?_bind_of_none {x : Logged α} {f : α → Logged β}
    (h : ∀ a, x.result = .ok a → errorOf? (f a).result = none) :
    errorOf? (x >>= f).result = errorOf? x.result := by
  rw [errorOf?_bind h, Option.or_none]

-- Only what comes after a result matters.
theorem bind_congr {x : Logged α} {f g : α → Logged β} (h : ∀ a, x.result = .ok a → f a = g a) :
    x >>= f = x >>= g := by
  obtain ⟨log, result⟩ := x
  cases result with
  | error fault => rfl
  | ok a => rw [bind_ok, bind_ok, h a rfl]

-- Work whose result the next work leaves as it is, without an event.
theorem bind_eq_self {x : Logged α} {f : α → Logged α}
    (h : ∀ a, x.result = .ok a → f a = pure a) : x >>= f = x := by
  obtain ⟨log, result⟩ := x
  cases result with
  | error fault => rfl
  | ok a =>
    rw [bind_ok, h a rfl, pure_def, List.append_nil]

end Logged

end ComponentDocs
