import ComponentDocs.Proofs.Tag.Parts

/-!
# Where types end

A type expression ends with the first brace at which as many braces have been closed as opened:
`takeType_shortest`, and for a text with a type or without one `followsType_of_takeType`. A text
that opens a brace which is never closed has no type that can be read: `exists_takeType_iff`.
-/

namespace ComponentDocs

open Text

/-! ## Types -/

/-- A text from an opening brace to the brace that closes it, the first at which as many braces have
been closed as opened. -/
structure TypeExpression (expr : List Char) : Prop where
  opens : expr.head? = some '\x7b'
  closes : expr.count '\x7d' = expr.count '\x7b'
  first : ∀ front, front <+: expr → front ≠ [] → front ≠ expr →
    front.count '\x7d' < front.count '\x7b'

/-- What follows the type of a text: a type expression at its front, or none. -/
def FollowsType (text rest : List Char) : Prop :=
  (trimLeft text = rest ∧ rest.head? ≠ some '\x7b') ∨
    ∃ expr, TypeExpression expr ∧ trimLeft text = expr ++ rest

/-- When a text begins with an opening brace, a front part of it closes all braces that it opens. -/
def TypeCloses (text : List Char) : Prop :=
  (trimLeft text).head? = some '\x7b' →
    ∃ front, front <+: trimLeft text ∧ front ≠ [] ∧ front.count '\x7d' = front.count '\x7b'

theorem typeExpression_iff {raw : List Char} :
    TypeExpression ('\x7b' :: raw ++ ['\x7d']) ↔
      StaysOpen 0 raw ∧ raw.count '\x7d' = raw.count '\x7b' := by
  constructor
  · intro h
    refine ⟨fun front hfront => ?_, by simpa using h.closes⟩
    -- a front part of what the braces hold is one of the expression behind the opening brace
    have hlt : ('\x7b' :: front).count '\x7d' < ('\x7b' :: front).count '\x7b' := by
      apply h.first
      · exact (List.prefix_cons_inj _).2 (hfront.trans (List.prefix_append _ _))
      · exact List.cons_ne_nil _ _
      · intro heq
        have hlength := hfront.length_le
        rw [List.cons_append, List.cons_inj_right] at heq
        rw [heq, List.length_append, List.length_singleton] at hlength
        omega
    rw [List.count_cons_self, List.count_cons_of_ne (by decide)] at hlt
    omega
  · rintro ⟨hopen, hcount⟩
    refine ⟨rfl, by simp [hcount], fun front hfront hne hproper => ?_⟩
    rcases List.prefix_concat_iff.1 hfront with rfl | hfront
    · exact absurd rfl hproper
    · rcases List.prefix_cons_iff.1 hfront with rfl | ⟨tail, rfl, htail⟩
      · exact absurd rfl hne
      · have hstays := hopen tail htail
        rw [List.count_cons_self, List.count_cons_of_ne (by decide)]
        omega

/-- The expression ends where it is the shortest front part with as many braces closed as opened. -/
theorem splitClosing_zero_eq_some_iff {body raw after : List Char} :
    splitClosing 0 body = some (raw, after) ↔
      body = raw ++ '\x7d' :: after ∧ TypeExpression ('\x7b' :: raw ++ ['\x7d']) := by
  rw [typeExpression_iff]
  constructor
  · intro h
    obtain ⟨hopen, hcount⟩ := staysOpen_of_splitClosing h
    exact ⟨eq_of_splitClosing h, hopen, by rw [hcount, Nat.zero_add]⟩
  · rintro ⟨rfl, hopen, hcount⟩
    exact splitClosing_append hopen (by rw [hcount, Nat.zero_add]) after

-- Of two type expressions at the front of a text neither is longer.
theorem TypeExpression.eq_of_prefix {expr other : List Char} (h : TypeExpression expr)
    (hother : TypeExpression other) (hfront : expr <+: other) : expr = other := by
  by_contra hne
  have hnil : expr ≠ [] := by
    rintro rfl
    cases h.opens
  have hlt := hother.first expr hfront hnil hne
  rw [h.closes] at hlt
  exact Nat.lt_irrefl _ hlt

theorem TypeExpression.head?_append {expr : List Char} (h : TypeExpression expr)
    (rest : List Char) : (expr ++ rest).head? = some '\x7b' := by
  rw [List.head?_append, h.opens]
  rfl

theorem FollowsType.unique {text rest other : List Char} (h : FollowsType text rest)
    (hother : FollowsType text other) : rest = other := by
  rcases h with ⟨rfl, hnone⟩ | ⟨expr, hexpr, htext⟩
  · rcases hother with ⟨rfl, -⟩ | ⟨expr, hexpr, htext⟩
    · rfl
    · exact absurd (htext ▸ hexpr.head?_append other) hnone
  · rcases hother with ⟨rfl, hnone⟩ | ⟨expr', hexpr', htext'⟩
    · exact absurd (htext ▸ hexpr.head?_append rest) hnone
    · have hsame := htext.symm.trans htext'
      have heq : expr = expr' := by
        rcases List.append_eq_append_iff.1 hsame with ⟨t, ht, -⟩ | ⟨t, ht, -⟩
        · exact hexpr.eq_of_prefix hexpr' ⟨t, ht.symm⟩
        · exact (hexpr'.eq_of_prefix hexpr ⟨t, ht.symm⟩).symm
      rw [heq] at hsame
      exact List.append_cancel_left hsame

/-! ## Reading types -/

theorem takeType_of_opens {text body : List Char} (hbody : trimLeft text = '\x7b' :: body) :
    takeType text =
      match splitClosing 0 body with
      | some (raw, after) => .ok (some (trim raw), after)
      | none => .error ⟨.unbalancedBraces, trimLeft text⟩ := by
  rw [takeType, hbody]
  rfl

theorem takeType_eq_ok_iff {text rest : List Char} {type : Option (List Char)}
    (hopens : (trimLeft text).head? = some '\x7b') :
    takeType text = .ok (type, rest) ↔
      ∃ raw, trimLeft text = '\x7b' :: raw ++ '\x7d' :: rest ∧
        TypeExpression ('\x7b' :: raw ++ ['\x7d']) ∧ type = some (trim raw) := by
  obtain ⟨body, hbody⟩ := List.head?_eq_some_iff.1 hopens
  rw [takeType_of_opens hbody]
  constructor
  · intro h
    cases hsplit : splitClosing 0 body with
    | none => rw [hsplit] at h; cases h
    | some found =>
      obtain ⟨raw, after⟩ := found
      rw [hsplit] at h
      obtain ⟨rfl, rfl⟩ := Prod.mk.inj (Except.ok.inj h)
      obtain ⟨htext, hexpr⟩ := splitClosing_zero_eq_some_iff.1 hsplit
      exact ⟨raw, by rw [hbody, htext, List.cons_append], hexpr, rfl⟩
  · rintro ⟨raw, htext, hexpr, rfl⟩
    rw [hbody, List.cons_append, List.cons_inj_right] at htext
    rw [splitClosing_zero_eq_some_iff.2 ⟨htext, hexpr⟩]

theorem followsType_of_takeType {text rest : List Char} {type : Option (List Char)}
    (h : takeType text = .ok (type, rest)) : FollowsType text rest := by
  by_cases hopens : (trimLeft text).head? = some '\x7b'
  · obtain ⟨raw, htext, hexpr, -⟩ := (takeType_eq_ok_iff hopens).1 h
    exact .inr ⟨_, hexpr, by rw [htext, List.append_assoc]; rfl⟩
  · rw [takeType_of_head? fun c hc hbrace => hopens (hbrace ▸ hc)] at h
    obtain ⟨-, rfl⟩ := Prod.mk.inj (Except.ok.inj h)
    exact .inl ⟨rfl, hopens⟩

/-- A text has a type that can be read, or none, when the braces at its front close. -/
theorem exists_takeType_iff {text : List Char} :
    (∃ found, takeType text = .ok found) ↔ TypeCloses text := by
  constructor
  · rintro ⟨⟨type, rest⟩, h⟩ hhead
    rcases followsType_of_takeType h with ⟨rfl, hnone⟩ | ⟨expr, hexpr, htext⟩
    · exact absurd hhead hnone
    · refine ⟨expr, ⟨rest, htext.symm⟩, ?_, hexpr.closes⟩
      rintro rfl
      cases hexpr.opens
  · intro h
    unfold takeType
    split
    · rename_i body hbody
      cases hsplit : splitClosing 0 body with
      | some found => exact ⟨_, rfl⟩
      | none =>
        -- the front part that closes would close the expression
        obtain ⟨front, hfront, hne, hcount⟩ := h (by rw [hbody]; rfl)
        rw [hbody] at hfront
        rcases List.prefix_cons_iff.1 hfront with rfl | ⟨tail, rfl, htail⟩
        · exact absurd rfl hne
        · have hstays := splitClosing_eq_none_iff.1 hsplit tail htail
          rw [List.count_cons_self, List.count_cons_of_ne (by decide)] at hcount
          omega
    · exact ⟨_, rfl⟩

/-- The only problem with a type is a brace that is never closed. -/
theorem eq_of_takeType_eq_error {text : List Char} {flaw : TagFlaw}
    (h : takeType text = .error flaw) : flaw = ⟨.unbalancedBraces, trimLeft text⟩ := by
  by_cases hopens : (trimLeft text).head? = some '\x7b'
  · obtain ⟨body, hbody⟩ := List.head?_eq_some_iff.1 hopens
    rw [takeType_of_opens hbody] at h
    cases hsplit : splitClosing 0 body with
    | none => rw [hsplit] at h; exact (Except.error.inj h).symm
    | some found => rw [hsplit] at h; cases h
  · rw [takeType_of_head? fun c hc hbrace => hopens (hbrace ▸ hc)] at h
    cases h

/-- A text that begins with an opening brace has a type if a front part of it closes all braces that
it opens, and only then. The shortest such part is the type expression; the type is what its outer
braces hold, trimmed, and the text after it is left as it is. Without such a part the problem is
reported with the whole text. -/
theorem takeType_shortest {text : List Char} (hopens : (trimLeft text).head? = some '\x7b') :
    ((∃ found, takeType text = .ok found) ↔
        ∃ front, front <+: trimLeft text ∧ front ≠ [] ∧
          front.count '\x7d' = front.count '\x7b') ∧
      (∀ type rest, takeType text = .ok (type, rest) →
        ∃ raw, trimLeft text = '\x7b' :: raw ++ '\x7d' :: rest ∧
          TypeExpression ('\x7b' :: raw ++ ['\x7d']) ∧ type = some (trim raw)) ∧
      ∀ flaw, takeType text = .error flaw → flaw = ⟨.unbalancedBraces, trimLeft text⟩ := by
  refine ⟨?_, fun type rest h => (takeType_eq_ok_iff hopens).1 h,
    fun flaw h => eq_of_takeType_eq_error h⟩
  rw [exists_takeType_iff, TypeCloses, forall_prop_of_true hopens]

/-- The braces of a type may nest, on several lines too; one behind the type belongs to the rest. -/
theorem takeType_shortest_nested :
    (trimLeft " \x7b \x7ba\x7d,\nb\x7d c \x7d".toList).head? = some '\x7b' ∧
      takeType " \x7b \x7ba\x7d,\nb\x7d c \x7d".toList =
        .ok (some "\x7ba\x7d,\nb".toList, " c \x7d".toList) ∧
      TypeExpression "\x7b \x7ba\x7d,\nb\x7d".toList := by
  have hopens : (trimLeft " \x7b \x7ba\x7d,\nb\x7d c \x7d".toList).head? = some '\x7b' := by
    decide +kernel
  have hread : takeType " \x7b \x7ba\x7d,\nb\x7d c \x7d".toList =
      .ok (some "\x7ba\x7d,\nb".toList, " c \x7d".toList) := by
    decide +kernel
  obtain ⟨-, hshortest, -⟩ := takeType_shortest hopens
  obtain ⟨raw, htext, hexpr, -⟩ := hshortest _ _ hread
  -- the rest is known, and with it what stands before it
  have hexpr_eq : '\x7b' :: raw ++ ['\x7d'] = "\x7b \x7ba\x7d,\nb\x7d".toList := by
    apply List.append_cancel_right
    rw [List.append_assoc]
    exact htext.symm.trans (by decide +kernel)
  exact ⟨hopens, hread, hexpr_eq ▸ hexpr⟩

end ComponentDocs
