/-!
# The case of letters

Only ASCII letters have a case, and changing it makes another letter: `toLower_toUpper`,
`isAlphanum_toLower`.
-/

namespace ComponentDocs.Text

theorem isUpper_iff {c : Char} : c.isUpper ↔ 'A'.val ≤ c.val ∧ c.val ≤ 'Z'.val :=
  decide_eq_true_iff

theorem isLower_iff {c : Char} : c.isLower ↔ 'a'.val ≤ c.val ∧ c.val ≤ 'z'.val :=
  Bool.and_eq_true_iff.trans (and_congr decide_eq_true_iff decide_eq_true_iff)

theorem isAlpha_iff {c : Char} : c.isAlpha ↔ c.isUpper ∨ c.isLower :=
  Bool.or_eq_true_iff

theorem isAlphanum_iff {c : Char} : c.isAlphanum ↔ (c.isUpper ∨ c.isLower) ∨ c.isDigit :=
  Bool.or_eq_true_iff.trans (or_congr_left isAlpha_iff)

theorem isUpper_iff_toNat {c : Char} : c.isUpper ↔ 65 ≤ c.toNat ∧ c.toNat ≤ 90 := by
  rw [isUpper_iff, UInt32.le_iff_toNat_le, UInt32.le_iff_toNat_le]
  rfl

theorem isLower_iff_toNat {c : Char} : c.isLower ↔ 97 ≤ c.toNat ∧ c.toNat ≤ 122 := by
  rw [isLower_iff, UInt32.le_iff_toNat_le, UInt32.le_iff_toNat_le]
  rfl

theorem not_isUpper_of_isLower {c : Char} (h : c.isLower) : ¬ c.isUpper := by
  rw [isUpper_iff_toNat]
  have hrange := isLower_iff_toNat.1 h
  omega

theorem not_isAlpha_of_isDigit {c : Char} (h : c.isDigit) : ¬ c.isAlpha := by
  have hrange : 48 ≤ c.toNat ∧ c.toNat ≤ 57 := Char.isDigit_iff_toNat.1 h
  rw [isAlpha_iff, isUpper_iff_toNat, isLower_iff_toNat]
  omega

theorem toNat_toLower {c : Char} (h : c.isUpper) : c.toLower.toNat = c.toNat + 32 := by
  have hrange := isUpper_iff_toNat.1 h
  have hval : c.toLower.val = c.val + ('a'.val - 'A'.val) := by
    delta Char.toLower
    rw [dif_pos (isUpper_iff.1 h)]
  have hoffset : ('a'.val - 'A'.val).toNat = 32 := by decide
  rw [← Char.toNat_val, hval, UInt32.toNat_add, hoffset, Char.toNat_val]
  omega

theorem toNat_toUpper {c : Char} (h : c.isLower) : c.toUpper.toNat = c.toNat - 32 := by
  have hrange := isLower_iff_toNat.1 h
  have hval : c.toUpper.val = c.val + ('A'.val - 'a'.val) := by
    delta Char.toUpper
    rw [dif_pos (isLower_iff.1 h)]
  have hoffset : ('A'.val - 'a'.val).toNat = 2 ^ 32 - 32 := by decide
  rw [← Char.toNat_val, hval, UInt32.toNat_add, hoffset, Char.toNat_val]
  omega

theorem toLower_of_not_isUpper {c : Char} (h : ¬ c.isUpper) : c.toLower = c :=
  dif_neg (mt isUpper_iff.2 h)

theorem toUpper_of_not_isLower {c : Char} (h : ¬ c.isLower) : c.toUpper = c :=
  dif_neg (mt isLower_iff.2 h)

theorem isLower_toUpper (c : Char) : c.toUpper.isLower = false := by
  rw [← Bool.not_eq_true]
  by_cases h : c.isLower
  · have hrange := isLower_iff_toNat.1 h
    rw [isLower_iff_toNat, toNat_toUpper h]
    omega
  · rwa [toUpper_of_not_isLower h]

theorem toLower_toUpper (c : Char) : c.toUpper.toLower = c.toLower := by
  by_cases h : c.isLower
  · have hrange := isLower_iff_toNat.1 h
    have hupper : c.toUpper.isUpper := by
      rw [isUpper_iff_toNat, toNat_toUpper h]
      omega
    have hself : c.toLower = c := toLower_of_not_isUpper (by rw [isUpper_iff_toNat]; omega)
    rw [hself, ← Char.toNat_inj, toNat_toLower hupper, toNat_toUpper h]
    omega
  · rw [toUpper_of_not_isLower h]

theorem isLower_toLower {c : Char} (h : c.isUpper) : c.toLower.isLower := by
  have hrange := isUpper_iff_toNat.1 h
  rw [isLower_iff_toNat, toNat_toLower h]
  omega

theorem toLower_toLower (c : Char) : c.toLower.toLower = c.toLower := by
  by_cases h : c.isUpper
  · apply toLower_of_not_isUpper
    have hrange := isUpper_iff_toNat.1 h
    rw [isUpper_iff_toNat, toNat_toLower h]
    omega
  · rw [toLower_of_not_isUpper h, toLower_of_not_isUpper h]

theorem isAlphanum_toLower (c : Char) : c.toLower.isAlphanum = c.isAlphanum := by
  by_cases h : c.isUpper
  · have hlower : c.toLower.isAlphanum := isAlphanum_iff.2 (.inl (.inr (isLower_toLower h)))
    rw [hlower, isAlphanum_iff.2 (.inl (.inl h))]
  · rw [toLower_of_not_isUpper h]

theorem toList_toLower (s : String) : s.toLower.toList = s.toList.map Char.toLower :=
  String.toList_map

end ComponentDocs.Text
