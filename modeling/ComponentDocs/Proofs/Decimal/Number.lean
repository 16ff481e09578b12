import ComponentDocs.Decimal.Number
import Mathlib.Data.List.DropRight
import Mathlib.Data.List.Infix

/-!
# The form of written numbers

Whatever a number is, its text has the form that documents ask for, a sign, a whole part without
zeros in front, a fraction and an exponent: `isNumber_toString` for integers and `text_json` for
floating-point numbers, of which the two infinities and the value that is no number are words.
-/

namespace ComponentDocs.Decimal

/-! ## The form of a number -/

/-- Digits, and at least one of them. -/
structure IsDigits (s : List Char) : Prop where
  nonempty : s ≠ []
  digits : ∀ c ∈ s, c.isDigit

/-- The digits before the point: no zero stands in front of others. -/
structure IsWhole (s : List Char) : Prop extends IsDigits s where
  front : s.head? = some '0' → s = ['0']

def IsFraction (s : List Char) : Prop :=
  s = [] ∨ ∃ digits, s = '.' :: digits ∧ IsDigits digits

def IsExponent (s : List Char) : Prop :=
  s = [] ∨ ∃ sign digits, s = 'e' :: sign :: digits ∧ (sign = '+' ∨ sign = '-') ∧ IsDigits digits

/-- A number without a sign. -/
inductive IsUnsigned : List Char → Prop
  | mk {whole fraction exponent : List Char} (hwhole : IsWhole whole)
    (hfraction : IsFraction fraction) (hexponent : IsExponent exponent) :
    IsUnsigned (whole ++ (fraction ++ exponent))

/-- A number, perhaps with a minus sign. -/
def IsNumber (s : List Char) : Prop :=
  IsUnsigned s ∨ ∃ r, s = '-' :: r ∧ IsUnsigned r

theorem IsWhole.isUnsigned {s : List Char} (h : IsWhole s) : IsUnsigned s := by
  have hs : IsUnsigned (s ++ ([] ++ [])) := .mk h (.inl rfl) (.inl rfl)
  rwa [List.append_nil, List.append_nil] at hs

theorem IsWhole.isUnsigned_fraction {s digits : List Char} (h : IsWhole s)
    (hdigits : IsDigits digits) : IsUnsigned (s ++ '.' :: digits) := by
  have hs : IsUnsigned (s ++ ('.' :: digits ++ [])) :=
    .mk h (.inr ⟨digits, rfl, hdigits⟩) (.inl rfl)
  rwa [List.append_nil] at hs

theorem IsWhole.append {s t : List Char} (h : IsWhole s) (hzero : s ≠ ['0'])
    (ht : ∀ c ∈ t, c.isDigit) : IsWhole (s ++ t) where
  nonempty := List.append_ne_nil_of_left_ne_nil h.nonempty t
  digits := fun c hc => (List.mem_append.1 hc).elim (h.digits c) (ht c)
  front := by
    rw [List.head?_append_of_ne_nil _ h.nonempty]
    exact fun hfront => absurd (h.front hfront) hzero

/-! ## Integers -/

theorem isDigits_toDigits (n : Nat) : IsDigits (Nat.toDigits 10 n) where
  nonempty := Nat.toDigits_ne_nil
  digits := fun _ hc => Nat.isDigit_of_mem_toDigits (by decide) (by decide) hc

theorem head?_toDigits {n : Nat} (h : 0 < n) : (Nat.toDigits 10 n).head? ≠ some '0' := by
  induction n using Nat.strong_induction_on with
  | h n ih =>
    rw [Nat.toDigits_eq_if (by decide)]
    by_cases hn : n < 10
    · rw [if_pos hn, List.head?_cons, ne_eq, Option.some.injEq, Nat.digitChar_eq_zero]
      omega
    · rw [if_neg hn, List.head?_append_of_ne_nil _ Nat.toDigits_ne_nil]
      exact ih (n / 10) (by omega) (by omega)

theorem isWhole_toDigits (n : Nat) : IsWhole (Nat.toDigits 10 n) where
  toIsDigits := isDigits_toDigits n
  front := by
    rcases Nat.eq_zero_or_pos n with rfl | hn
    · exact fun _ => Nat.toDigits_zero 10
    · exact fun hfront => absurd hfront (head?_toDigits hn)

theorem isNumber_toString (n : Int) : IsNumber (toString n).toList := by
  rw [Int.toString_eq_repr, Int.repr_eq_if]
  by_cases hn : 0 ≤ n
  · rw [if_pos hn, Nat.toList_repr]
    exact .inl (isWhole_toDigits _).isUnsigned
  · rw [if_neg hn, String.toList_append, Nat.toList_repr]
    exact .inr ⟨_, rfl, (isWhole_toDigits _).isUnsigned⟩

/-! ## Digits with a place -/

/-- Digits without a zero in front, unless they are a zero before the point. -/
structure Digits.Normal (d : Digits) : Prop extends IsDigits d.digits where
  front : d.digits.head? = some '0' → d = ⟨['0'], 0⟩

theorem Digits.Normal.isWhole {d : Digits} (h : d.Normal) : IsWhole d.digits where
  toIsDigits := h.toIsDigits
  front := fun hfront => congrArg Digits.digits (h.front hfront)

theorem Digits.Normal.isWhole_take {d : Digits} (h : d.Normal) {n : Nat} (hn : 0 < n)
    (hlong : n < d.digits.length) : IsWhole (d.digits.take n) where
  nonempty := by
    rw [ne_eq, List.take_eq_nil_iff, not_or]
    exact ⟨by omega, h.nonempty⟩
  digits := fun c hc => h.digits c (List.mem_of_mem_take hc)
  front := by
    intro hfront
    rw [List.head?_take, if_neg (by omega)] at hfront
    rw [h.front hfront, List.length_singleton] at hlong
    omega

theorem isExponent_exponentText (e : Int) : IsExponent ('e' :: exponentText e) := by
  unfold exponentText
  refine .inr ⟨_, _, rfl, ?_, ?_⟩
  · split
    · exact .inr rfl
    · exact .inl rfl
  · have hdigits := isDigits_toDigits e.natAbs
    split
    · exact ⟨List.cons_ne_nil _ _, List.forall_mem_cons.2 ⟨rfl, hdigits.digits⟩⟩
    · exact hdigits

theorem isWhole_singleton {c : Char} (h : c.isDigit) : IsWhole [c] where
  nonempty := List.cons_ne_nil c []
  digits := by simpa using h
  front := by simp

theorem Digits.Normal.isUnsigned_text {d : Digits} (h : d.Normal) : IsUnsigned d.text := by
  have hzeros (n : Nat) : ∀ c ∈ List.replicate n '0', c.isDigit := fun c hc => by
    rw [List.eq_of_mem_replicate hc]
    rfl
  unfold text
  split
  · split
    · exact absurd ‹d.digits = []› h.nonempty
    · rename_i c hdigits
      have hall := h.digits
      rw [hdigits] at hall
      exact .mk (isWhole_singleton (hall c List.mem_cons_self)) (.inl rfl)
        (isExponent_exponentText d.place)
    · rename_i c rest hrest hdigits
      have hall := h.digits
      rw [hdigits, List.forall_mem_cons] at hall
      have hfraction : IsDigits rest := ⟨fun hnil => hrest hnil, hall.2⟩
      exact .mk (isWhole_singleton hall.1) (.inr ⟨rest, rfl, hfraction⟩)
        (isExponent_exponentText d.place)
  · split
    · have hfraction : IsDigits (List.replicate (-d.place - 1).toNat '0' ++ d.digits) :=
        ⟨List.append_ne_nil_of_right_ne_nil _ h.nonempty, fun c hc =>
          (List.mem_append.1 hc).elim (hzeros _ c) (h.digits c)⟩
      exact (isWhole_singleton (c := '0') rfl).isUnsigned_fraction hfraction
    · -- all digits before the point, or some of them
      dsimp only
      split
      · have hwhole : IsWhole (d.digits ++
            List.replicate (d.place.toNat + 1 - d.digits.length) '0') := by
          by_cases hzero : d.digits = ['0']
          · have hd : d = ⟨['0'], 0⟩ := h.front (by rw [hzero]; rfl)
            rw [hd]
            exact isWhole_singleton rfl
          · exact h.isWhole.append hzero (hzeros _)
        exact hwhole.isUnsigned_fraction (isWhole_singleton rfl).toIsDigits
      · rename_i hlong
        have hfraction : IsDigits (d.digits.drop (d.place.toNat + 1)) := by
          refine ⟨?_, fun c hc => h.digits c (List.mem_of_mem_drop hc)⟩
          rw [ne_eq, List.drop_eq_nil_iff]
          exact hlong
        exact (h.isWhole_take (Nat.succ_pos _) (Nat.lt_of_not_le hlong)).isUnsigned_fraction
          hfraction

/-! ## Shortest digits -/

theorem Digits.normal_ofPoint {d : Nat} (h : 0 < d) (place : Int) : (ofPoint d place).Normal := by
  have hdigits : (ofPoint d place).digits = (Nat.toDigits 10 d).rdropWhile (· = '0') := rfl
  have hall := isDigits_toDigits d
  obtain ⟨c, rest, hcons⟩ := List.exists_cons_of_ne_nil hall.nonempty
  have hc : c ≠ '0' := by
    rintro rfl
    exact head?_toDigits h (by rw [hcons]; rfl)
  have hpart := List.rdropWhile_prefix (· = '0') (Nat.toDigits 10 d)
  have hne : (Nat.toDigits 10 d).rdropWhile (· = '0') ≠ [] := by
    intro hnil
    have hzero := List.rdropWhile_eq_nil_iff.1 hnil c (by rw [hcons]; exact List.mem_cons_self)
    exact hc (by simpa using hzero)
  refine ⟨⟨?_, ?_⟩, fun hfront => ?_⟩
  · rw [hdigits]
    exact hne
  · rw [hdigits]
    exact fun x hx => hall.digits x (hpart.subset hx)
  · rw [hdigits] at hfront
    -- what is left after the zeros at the end begins as all digits do
    obtain ⟨x, xs, hx⟩ := List.exists_cons_of_ne_nil hne
    obtain ⟨zeros, hsplit⟩ := hpart
    rw [hx, hcons, List.cons_append] at hsplit
    rw [hx, (List.cons.inj hsplit).1] at hfront
    exact absurd (Option.some.inj hfront) hc

theorem Binary.holds_zero {b : Binary} {g : Grid} (hb : 0 < b.mantissa) (hg : 0 < g.fine) :
    b.holds g 0 = false := by
  have hlower : 0 < b.lower := by
    unfold lower quarters
    split <;> omega
  have hlow : 0 < b.lower * g.fine := Nat.mul_pos hlower hg
  unfold holds
  dsimp only
  split
  · rw [Nat.zero_mul, decide_eq_false (Nat.not_le.2 hlow), Bool.false_and]
  · rw [Nat.zero_mul, decide_eq_false (Nat.not_lt_zero _), Bool.false_and]

theorem Binary.pos_of_point? {b : Binary} {g : Grid} {d : Nat} (hb : 0 < b.mantissa)
    (hg : 0 < g.fine) (h : b.point? g = some d) : 0 < d := by
  have hbelow : b.holds g (b.quarters * g.fine / g.coarse) = true →
      0 < b.quarters * g.fine / g.coarse := by
    intro hholds
    rw [Nat.pos_iff_ne_zero]
    intro hzero
    rw [hzero, holds_zero hb hg] at hholds
    cases hholds
  unfold point? at h
  dsimp only at h
  split at h
  · cases h
  · rename_i hholds _
    rw [← Option.some.inj h]
    exact hbelow hholds
  · rw [← Option.some.inj h]
    exact Nat.succ_pos _
  · rename_i hholds _
    split at h
    · rw [← Option.some.inj h]
      exact hbelow hholds
    · rw [← Option.some.inj h]
      exact Nat.succ_pos _

theorem Binary.fine_grid_pos (b : Binary) (place : Int) : 0 < (b.grid place).fine := by
  have hpower (base : Nat) (hbase : 0 < base) (e : Int) : 0 < power base e := Nat.pow_pos hbase
  exact Nat.mul_pos (hpower 2 (by decide) _) (hpower 10 (by decide) _)

theorem Binary.normal_shortest {b : Binary} (hb : 0 < b.mantissa) : b.shortest.Normal := by
  unfold shortest
  dsimp only
  split
  · rename_i d place hfound
    obtain ⟨n, -, hn⟩ := List.exists_of_findSome?_eq_some hfound
    obtain ⟨d', hd, heq⟩ := Option.map_eq_some_iff.1 hn
    cases heq
    exact Digits.normal_ofPoint (pos_of_point? hb (b.fine_grid_pos _) hd) _
  · exact ⟨(isWhole_singleton rfl).toIsDigits, fun _ => rfl⟩

theorem isNumber_sign {sign s : String} (hsign : sign = "" ∨ sign = "-")
    (h : IsUnsigned s.toList) : IsNumber (sign ++ s).toList := by
  rcases hsign with rfl | rfl
  · rw [String.empty_append]
    exact .inl h
  · rw [String.toList_append]
    exact .inr ⟨_, rfl, h⟩

/-- The text of a floating-point number in a document is a number or one of three words. -/
theorem text_json (x : Float) :
    IsNumber (text .json x).toList ∨
      text .json x = "NaN" ∨ text .json x = "Infinity" ∨ text .json x = "-Infinity" := by
  unfold text
  dsimp only
  have hsign : ∀ p : Prop, [Decidable p] → (if p then "" else "-") = "" ∨
      (if p then "" else "-") = "-" := by
    intro p _
    split
    · exact .inl rfl
    · exact .inr rfl
  split
  · right
    split
    · rcases hsign (x.toBits.toNat < Nat.pow 2 63) with hs | hs
      · rw [hs]
        exact .inr (.inl rfl)
      · rw [hs]
        exact .inr (.inr rfl)
    · exact .inl rfl
  · left
    split
    · have hzero : IsWhole ['0'] := isWhole_singleton rfl
      exact isNumber_sign (hsign _) (hzero.isUnsigned_fraction hzero.toIsDigits)
    · rename_i hmantissa
      refine isNumber_sign (hsign _) ?_
      rw [String.toList_ofList]
      exact (Binary.normal_shortest (Nat.pos_of_ne_zero hmantissa)).isUnsigned_text

end ComponentDocs.Decimal
