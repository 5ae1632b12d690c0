import ColumnFilter.Proofs.RoundTrip.Rendering

/-!
# The gaps of canonical text

Conditions and connectors are paired by their places: behind condition `j` stands connector
`j`, if there is one and another condition follows.  So canonical text falls into three pieces
at every gap: the canonical text of what stands before the gap, the connector with its spaces,
and the conditions behind it as they are joined (`Filter.chars_eq_append`).
-/

namespace ColumnFilter

/-! ### Trimming what ends bare -/

namespace EndsBare

variable {cs ds : List Char}

theorem dropWhile (h : EndsBare cs) : EndsBare (cs.dropWhile Text.isWhiteSpace) := by
  obtain ⟨hne, hstop⟩ := h
  rcases List.eq_nil_or_concat cs with rfl | ⟨before, c, rfl⟩
  · exact absurd rfl hne
  · have hc : Text.isWhiteSpace c = false := by
      rw [List.concat_eq_append, List.reverse_append] at hstop
      exact Stops.cons_iff.1 hstop
    rw [List.concat_eq_append, List.dropWhile_append]
    split
    · rw [List.dropWhile_cons_of_neg (by simp [hc])]
      exact .concat [] hc
    · exact .concat _ hc

/-- Only the beginning is trimmed. -/
theorem trimChars_eq (h : EndsBare cs) : Text.trimChars cs = cs.dropWhile Text.isWhiteSpace := by
  rw [Text.trimChars, h.dropWhile.2.dropWhile_eq_self, List.reverse_reverse]

/-- The beginning is trimmed before the rest is put behind it. -/
theorem trimChars_append (h : EndsBare cs) (h' : EndsBare ds) :
    Text.trimChars (cs ++ ds) = Text.trimChars cs ++ ds := by
  have hkeeps : (cs.dropWhile Text.isWhiteSpace).isEmpty = false :=
    List.isEmpty_eq_false_iff.2 h.dropWhile.1
  rw [(h'.append cs).trimChars_eq, h.trimChars_eq, List.dropWhile_append, hkeeps]
  rfl

end EndsBare

namespace Filter

/-! ### Gaps -/

/-- What stands in a gap: a connector and its spaces, or nothing. -/
def inGap : Option Connector → List Char
  | some k => k.spaced
  | none => []

/-- The conditions before the gap behind condition `j`, and the connectors between them. -/
def upTo (f : Filter) (j : Nat) : Filter :=
  ⟨f.conditions.take (j + 1), f.connectors.take j⟩

/-- The conditions behind the gap behind condition `j`, and the connectors between them. -/
def behind (f : Filter) (j : Nat) : Filter :=
  ⟨f.conditions.drop (j + 1), f.connectors.drop (j + 1)⟩

theorem joined_cons {c : Condition} {cs : List Condition} (hne : cs ≠ []) (ks : List Connector) :
    joined (c :: cs) ks = c.chars ++ (inGap ks.head? ++ joined cs ks.tail) := by
  cases cs with
  | nil => exact absurd rfl hne
  | cons d ds =>
    cases ks with
    | nil => rfl
    | cons k ks => exact List.append_assoc ..

/-- Joined conditions fall into three pieces at every gap. -/
theorem joined_eq_append {cs : List Condition} {ks : List Connector} {j : Nat}
    (h : j + 1 < cs.length) :
    joined cs ks = joined (cs.take (j + 1)) (ks.take j) ++
      (inGap ks[j]? ++ joined (cs.drop (j + 1)) (ks.drop (j + 1))) := by
  -- by induction on the gap; each step takes one condition and one connector off both rows
  induction j generalizing cs ks with
  | zero =>
    cases cs with
    | nil => simp at h
    | cons c cs =>
      have hne : cs ≠ [] := by
        rintro rfl
        simp at h
      rw [joined_cons hne, List.head?_eq_getElem?, ← List.drop_one]
      rfl
  | succ j ih =>
    cases cs with
    | nil => simp at h
    | cons c cs =>
      have hlength : j + 1 < cs.length := by
        rw [List.length_cons] at h
        omega
      have hne : cs ≠ [] := List.ne_nil_of_length_pos (by omega)
      have htake : cs.take (j + 1) ≠ [] := by
        rw [Ne, List.take_eq_nil_iff]
        simp [hne]
      rw [joined_cons hne, ih hlength, List.take_succ_cons, joined_cons htake, List.drop_succ_cons]
      cases ks with
      | nil => simp only [List.take_nil, List.drop_nil, List.tail_nil, List.head?_nil,
          List.getElem?_nil, List.append_assoc]
      | cons k ks => simp only [List.take_succ_cons, List.drop_succ_cons, List.tail_cons,
          List.head?_cons, List.getElem?_cons_succ, List.append_assoc]

/-- **Canonical text falls into three pieces at every gap.** -/
theorem chars_eq_append {f : Filter} {j : Nat} (h : j + 1 < f.conditions.length) :
    f.chars = (f.upTo j).chars ++ (inGap f.connectors[j]? ++
      joined (f.behind j).conditions (f.behind j).connectors) := by
  have hbefore : EndsBare (joined (f.upTo j).conditions (f.upTo j).connectors) := by
    refine endsBare_joined ?_ _
    rw [upTo, Ne, List.take_eq_nil_iff]
    have hne : f.conditions ≠ [] := List.ne_nil_of_length_pos (by omega)
    simp [hne]
  have hbehind : EndsBare (joined (f.behind j).conditions (f.behind j).connectors) := by
    refine endsBare_joined ?_ _
    rw [behind, Ne, List.drop_eq_nil_iff]
    omega
  rw [chars, joined_eq_append h]
  exact hbefore.trimChars_append (hbehind.append _)

end Filter

end ColumnFilter
