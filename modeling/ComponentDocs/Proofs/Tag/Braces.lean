import ComponentDocs.Tag.TypeExpression
import Mathlib.Data.List.Infix

/-!
# The closing brace

The brace that closes an expression is the first one in front of which no brace of the expression is
open: `splitClosing_append`, `staysOpen_of_splitClosing`. There is none when the braces stay open in
the whole text: `splitClosing_eq_none_iff`.
-/

namespace ComponentDocs

/-- No front part of a text closes more braces than are open, `depth` of them before the text. -/
def StaysOpen (depth : Nat) (text : List Char) : Prop :=
  ∀ front, front <+: text → front.count '\x7d' ≤ depth + front.count '\x7b'

theorem staysOpen_nil (depth : Nat) : StaysOpen depth [] := by
  intro front h
  rw [List.prefix_nil.1 h]
  exact Nat.zero_le _

theorem staysOpen_cons {depth : Nat} {c : Char} {rest : List Char} :
    StaysOpen depth (c :: rest) ↔
      ∀ front, front <+: rest → (c :: front).count '\x7d' ≤ depth + (c :: front).count '\x7b' := by
  constructor
  · exact fun h front hfront => h _ (List.prefix_cons_iff.2 (.inr ⟨front, rfl, hfront⟩))
  · intro h front hfront
    rcases List.prefix_cons_iff.1 hfront with rfl | ⟨tail, rfl, htail⟩
    · exact Nat.zero_le _
    · exact h tail htail

theorem not_staysOpen_zero (rest : List Char) : ¬ StaysOpen 0 ('\x7d' :: rest) := by
  intro h
  have hclose := staysOpen_cons.1 h [] List.nil_prefix
  exact absurd hclose (by decide)

theorem staysOpen_close {depth : Nat} {rest : List Char} :
    StaysOpen (depth + 1) ('\x7d' :: rest) ↔ StaysOpen depth rest := by
  rw [staysOpen_cons]
  refine forall₂_congr fun front _ => ?_
  rw [List.count_cons_self, List.count_cons_of_ne (by decide)]
  omega

theorem staysOpen_open {depth : Nat} {rest : List Char} :
    StaysOpen depth ('\x7b' :: rest) ↔ StaysOpen (depth + 1) rest := by
  rw [staysOpen_cons]
  refine forall₂_congr fun front _ => ?_
  rw [List.count_cons_self, List.count_cons_of_ne (by decide)]
  omega

theorem staysOpen_other {depth : Nat} {c : Char} (hclose : c ≠ '\x7d') (hopen : c ≠ '\x7b')
    {rest : List Char} : StaysOpen depth (c :: rest) ↔ StaysOpen depth rest := by
  rw [staysOpen_cons]
  refine forall₂_congr fun front _ => ?_
  rw [List.count_cons_of_ne hclose, List.count_cons_of_ne hopen]

/-- No brace closes the expression when the braces stay open in the whole text, and only then. -/
theorem splitClosing_eq_none_iff {depth : Nat} {text : List Char} :
    splitClosing depth text = none ↔ StaysOpen depth text := by
  fun_induction splitClosing depth text with
  | case1 depth => exact iff_of_true rfl (staysOpen_nil depth)
  | case2 rest => exact iff_of_false (by simp) (not_staysOpen_zero rest)
  | case3 rest depth ih => rw [Option.map_eq_none_iff, ih, staysOpen_close]
  | case4 depth rest _ ih => rw [Option.map_eq_none_iff, ih, staysOpen_open]
  | case5 depth c rest hclose hopen ih =>
    rw [Option.map_eq_none_iff, ih, staysOpen_other hclose hopen]

/-- What stands before the closing brace leaves open what was open before it. -/
theorem staysOpen_of_splitClosing {depth : Nat} {text raw after : List Char}
    (h : splitClosing depth text = some (raw, after)) :
    StaysOpen depth raw ∧ raw.count '\x7d' = depth + raw.count '\x7b' := by
  fun_induction splitClosing depth text generalizing raw with
  | case1 depth => cases h
  | case2 rest =>
    obtain ⟨rfl, -⟩ := Prod.mk.inj (Option.some.inj h)
    exact ⟨staysOpen_nil 0, rfl⟩
  | case3 rest depth ih =>
    obtain ⟨⟨raw', after'⟩, hsplit, hraw⟩ := Option.map_eq_some_iff.1 h
    obtain ⟨rfl, rfl⟩ := Prod.mk.inj hraw
    obtain ⟨hopen, hcount⟩ := ih hsplit
    refine ⟨staysOpen_close.2 hopen, ?_⟩
    rw [List.count_cons_self, List.count_cons_of_ne (by decide)]
    omega
  | case4 depth rest _ ih =>
    obtain ⟨⟨raw', after'⟩, hsplit, hraw⟩ := Option.map_eq_some_iff.1 h
    obtain ⟨rfl, rfl⟩ := Prod.mk.inj hraw
    obtain ⟨hopen, hcount⟩ := ih hsplit
    refine ⟨staysOpen_open.2 hopen, ?_⟩
    rw [List.count_cons_self, List.count_cons_of_ne (by decide)]
    omega
  | case5 depth c rest hclose hopen ih =>
    obtain ⟨⟨raw', after'⟩, hsplit, hraw⟩ := Option.map_eq_some_iff.1 h
    obtain ⟨rfl, rfl⟩ := Prod.mk.inj hraw
    obtain ⟨hstays, hcount⟩ := ih hsplit
    refine ⟨(staysOpen_other hclose hopen).2 hstays, ?_⟩
    rw [List.count_cons_of_ne hclose, List.count_cons_of_ne hopen, hcount]

/-- Up to a brace in front of which none is open the text is cut off, whatever follows. -/
theorem splitClosing_append {depth : Nat} {raw : List Char} (hopen : StaysOpen depth raw)
    (hcount : raw.count '\x7d' = depth + raw.count '\x7b') (after : List Char) :
    splitClosing depth (raw ++ '\x7d' :: after) = some (raw, after) := by
  induction raw generalizing depth with
  | nil =>
    obtain rfl : depth = 0 := by simpa using hcount.symm
    rfl
  | cons c rest ih =>
    rw [List.cons_append]
    unfold splitClosing
    by_cases hclose : c = '\x7d'
    · obtain rfl := hclose
      cases depth with
      | zero => exact absurd hopen (not_staysOpen_zero rest)
      | succ depth =>
        rw [List.count_cons_self, List.count_cons_of_ne (by decide)] at hcount
        have hrest := ih (staysOpen_close.1 hopen) (by omega)
        simp only [if_true, hrest, Option.map_some]
    · rw [if_neg hclose]
      by_cases hbrace : c = '\x7b'
      · obtain rfl := hbrace
        rw [List.count_cons_self, List.count_cons_of_ne (by decide)] at hcount
        rw [if_pos rfl, ih (staysOpen_open.1 hopen) (by omega), Option.map_some]
      · rw [List.count_cons_of_ne hclose, List.count_cons_of_ne hbrace] at hcount
        rw [if_neg hbrace, ih ((staysOpen_other hclose hbrace).1 hopen) hcount, Option.map_some]

end ComponentDocs
