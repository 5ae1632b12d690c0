import ColumnFilter.Proofs.RoundTrip.Gaps
import Mathlib.Data.List.Induction

/-!
# Filters that grow

A filter that is built by `push` has one connector in every gap, and its canonical text grows
with it: behind what is already there come the connector with its spaces and the text of the new
condition (`Filter.text_push_grown`).  Nothing that stands there is trimmed again, because no
condition ends with white space; only the first one may begin with it.
-/

namespace ColumnFilter

namespace Filter

/-- The filter of a first condition, or of none, and others that are pushed behind it. -/
def grown (first : Option Condition) (additions : List (Connector × Condition)) : Filter :=
  additions.foldl (fun f a => f.push a.1 a.2) (first.elim empty single)

variable {first : Option Condition} {additions : List (Connector × Condition)}

theorem grown_concat (first : Option Condition) (additions : List (Connector × Condition))
    (a : Connector × Condition) :
    grown first (additions ++ [a]) = (grown first additions).push a.1 a.2 := by
  rw [grown, List.foldl_concat]
  rfl

/-! ### One step -/

section Push

variable {f : Filter} {k : Connector} {c : Condition}

theorem length_conditions_push : (f.push k c).conditions.length = f.conditions.length + 1 := by
  rw [push, List.length_append, List.length_singleton]

theorem connectors_push_of_nil (h : f.conditions = []) :
    (f.push k c).connectors = f.connectors :=
  if_pos (List.isEmpty_iff.2 h)

theorem connectors_push_of_ne_nil (hne : f.conditions ≠ []) :
    (f.push k c).connectors = f.connectors ++ [k] :=
  if_neg (by simpa using hne)

/-- A push fills the gap that it opens. -/
theorem length_connectors_push (h : f.connectors.length = f.conditions.length - 1) :
    (f.push k c).connectors.length = (f.push k c).conditions.length - 1 := by
  rw [length_conditions_push, Nat.add_sub_cancel]
  by_cases hne : f.conditions = []
  · rw [connectors_push_of_nil hne, h, hne]
    rfl
  · have hpos := List.length_pos_iff.2 hne
    rw [connectors_push_of_ne_nil hne, List.length_append, List.length_singleton, h]
    omega

/-- **The text grows at its end**, if every gap had its connector. -/
theorem chars_push (hne : f.conditions ≠ [])
    (h : f.connectors.length = f.conditions.length - 1) :
    (f.push k c).chars = f.chars ++ (k.spaced ++ c.chars) := by
  have hpos := List.length_pos_iff.2 hne
  have hconnectors := connectors_push_of_ne_nil (k := k) (c := c) hne
  have hgap : f.connectors.length + 1 < (f.push k c).conditions.length := by
    rw [length_conditions_push]
    omega
  have hbefore : (f.push k c).upTo f.connectors.length = f := by
    rw [upTo, hconnectors, List.take_left]
    show Filter.mk ((f.conditions ++ [c]).take _) _ = f
    rw [List.take_left' (by omega)]
  have hbehind : (f.push k c).behind f.connectors.length = single c := by
    rw [behind, hconnectors]
    show Filter.mk ((f.conditions ++ [c]).drop _) _ = _
    rw [List.drop_left' (by omega), List.drop_of_length_le (by simp)]
    rfl
  rw [chars_eq_append hgap, hbefore, hbehind, hconnectors, List.getElem?_concat_length]
  rfl

theorem text_push (hne : f.conditions ≠ [])
    (h : f.connectors.length = f.conditions.length - 1) :
    (f.push k c).text = f.text ++ " " ++ k.keyword ++ " " ++ c.text := by
  refine String.toList_inj.1 ?_
  rw [text, String.toList_ofList, chars_push hne h]
  simp [text, Condition.text, Connector.spaced]

end Push

/-! ### Any number of steps -/

theorem length_connectors_grown (first : Option Condition)
    (additions : List (Connector × Condition)) :
    (grown first additions).connectors.length = (grown first additions).conditions.length - 1 := by
  induction additions using List.reverseRecOn with
  | nil => cases first <;> rfl
  | append_singleton additions a ih =>
    rw [grown_concat]
    exact length_connectors_push ih

/-- What is pushed stays in its place. -/
theorem prefix_grown_append (first : Option Condition)
    (before after : List (Connector × Condition)) :
    (grown first before).conditions <+: (grown first (before ++ after)).conditions ∧
      (grown first before).connectors <+: (grown first (before ++ after)).connectors := by
  induction after using List.reverseRecOn with
  | nil =>
    rw [List.append_nil]
    exact ⟨List.prefix_refl _, List.prefix_refl _⟩
  | append_singleton after a ih =>
    rw [← List.append_assoc, grown_concat]
    refine ⟨ih.1.trans (List.prefix_append _ _), ih.2.trans ?_⟩
    by_cases h : (grown first (before ++ after)).conditions = []
    · have hsame := connectors_push_of_nil (k := a.1) (c := a.2) h
      exact hsame ▸ List.prefix_refl _
    · rw [connectors_push_of_ne_nil h]
      exact List.prefix_append _ _

/-- **A condition stands behind those that were there before it, and its connector in the gap in
front of it**, whatever is pushed later. -/
theorem getElem?_grown (first : Option Condition) (before after : List (Connector × Condition))
    (k : Connector) (c : Condition) :
    (grown first (before ++ (k, c) :: after)).conditions[(grown first before).conditions.length]? =
        some c ∧
      ∀ j, j + 1 = (grown first before).conditions.length →
        (grown first (before ++ (k, c) :: after)).connectors[j]? = some k := by
  obtain ⟨⟨laterConditions, hconditions⟩, laterConnectors, hconnectors⟩ :=
    prefix_grown_append first (before ++ [(k, c)]) after
  rw [List.append_assoc, List.singleton_append, grown_concat] at hconditions hconnectors
  have hlength := length_connectors_grown first before
  constructor
  · rw [← hconditions, push, List.append_assoc, List.getElem?_append_right (Nat.le_refl _),
      Nat.sub_self]
    rfl
  · intro j hj
    have hne : (grown first before).conditions ≠ [] := List.ne_nil_of_length_pos (by omega)
    obtain rfl : j = (grown first before).connectors.length := by omega
    rw [← hconnectors, connectors_push_of_ne_nil hne, List.append_assoc,
      List.getElem?_append_right (Nat.le_refl _), Nat.sub_self]
    rfl

/-- **Filters that are built by pushing keep one connector in every gap, and their text grows at
its end.**  The connector of each push stands in the gap before its condition, if there is
one. -/
theorem text_push_grown (first : Option Condition) (additions : List (Connector × Condition)) :
    (grown first additions).connectors.length = (grown first additions).conditions.length - 1 ∧
    (∀ before k c after, additions = before ++ (k, c) :: after →
      (grown first additions).conditions[(grown first before).conditions.length]? = some c ∧
      ∀ j, j + 1 = (grown first before).conditions.length →
        (grown first additions).connectors[j]? = some k) ∧
    ∀ k c, (grown first additions).conditions ≠ [] →
      ((grown first additions).push k c).text =
        (grown first additions).text ++ " " ++ k.keyword ++ " " ++ c.text := by
  have hlength := length_connectors_grown first additions
  refine ⟨hlength, ?_, fun k c hne => text_push hne hlength⟩
  rintro before k c after rfl
  exact getElem?_grown first before after k c

/-- Conditions without a column, pushed one after the other: the first connector is dropped, and
white space is trimmed in front of the first condition only. -/
theorem text_push_grown_blank : ∃ additions : List (Connector × Condition),
    additions = [(.or, ⟨"", .equal, .single .null⟩)] ++ (.and, ⟨" ", .oneOf, .list []⟩) :: [] ∧
      (grown none additions).conditions ≠ [] ∧
      0 + 1 = (grown none [(.or, ⟨"", .equal, .single .null⟩)]).conditions.length ∧
      (grown none additions).connectors[0]? = some .and ∧
      ((grown none additions).push .or ⟨"", .less, .single (.boolean true)⟩).text =
        "= null and   in () or  < true" := by
  refine ⟨_, rfl, by decide, rfl, ?_, ?_⟩
  · exact ((text_push_grown none _).2.1 _ _ _ _ rfl).2 0 rfl
  · exact ((text_push_grown none _).2.2 _ _ (by decide)).trans (by decide)

end Filter

end ColumnFilter
