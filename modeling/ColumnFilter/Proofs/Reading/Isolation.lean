import ColumnFilter.Proofs.Reading.Joining
import ColumnFilter.Proofs.Reading.SingleValue
import ColumnFilter.Proofs.Tiling

/-!
# Pieces on their own

A piece of a filter text means the same when it is taken out of the text.  A
condition is read again as it was, only that it now begins at byte zero, and
each of its parts is the fragment that it was in the whole (`StandsAlone`).

The pieces were matched with something behind them, and are matched again with
nothing behind them.  That is no difference: in both places a token ends because
what follows cannot prolong it.
-/

namespace ColumnFilter

open Spelling

/-! ### Literals and their classes -/

namespace Spelling

namespace Item

variable (i : Item)

/-- The literals of texts are those between quotes, and `null`. -/
theorem kind_eq_string_iff : i.kind = .string ↔ IsQuotedText i.chars ∨ i.chars = "null".toList := by
  cases i with
  | quoted quote inside isQuote apart =>
    exact ⟨fun _ => .inl ⟨quote, inside, isQuote, apart, rfl⟩, fun _ => rfl⟩
  | bare word nonempty isBare unquoted =>
    rw [kind, kindOfWord, chars, or_iff_right (not_isQuotedText_of_head unquoted)]
    by_cases hnull : word = "null".toList
    · simp [hnull]
    · rw [if_neg hnull]
      refine ⟨fun h => ?_, fun h => absurd h hnull⟩
      split at h <;> cases h

/-- The literals of truth values are the words for them, and `null` in another case. -/
theorem kind_eq_boolean_iff : i.kind = .boolean ↔
    ¬IsQuotedText i.chars ∧ i.chars ≠ "null".toList ∧
      Text.asciiLower i.chars ∈ ["true".toList, "false".toList, "null".toList] := by
  cases i with
  | quoted quote inside isQuote apart =>
    have hquoted : IsQuotedText (quote :: (inside ++ [quote])) :=
      ⟨quote, inside, isQuote, apart, rfl⟩
    exact iff_of_false (by rintro ⟨⟩) fun h => h.1 hquoted
  | bare word nonempty isBare unquoted =>
    rw [kind, kindOfWord, chars, and_iff_right (not_isQuotedText_of_head unquoted)]
    by_cases hnull : word = "null".toList
    · simp [hnull]
    · rw [if_neg hnull, and_iff_right hnull]
      split
      next hmem => exact iff_of_true rfl hmem
      next hmem => exact iff_of_false (by rintro ⟨⟩) hmem

/-- All other words are literals of numbers. -/
theorem kind_eq_number_iff : i.kind = .number ↔ ¬IsQuotedText i.chars ∧
    Text.asciiLower i.chars ∉ ["true".toList, "false".toList, "null".toList] := by
  have hother : i.kind = .number ↔ ¬i.kind = .string ∧ ¬i.kind = .boolean := by
    cases i.kind <;> decide
  rw [hother, kind_eq_string_iff, kind_eq_boolean_iff]
  constructor
  · rintro ⟨hstring, hboolean⟩
    have hquoted : ¬IsQuotedText i.chars := fun h => hstring (.inl h)
    have hnull : i.chars ≠ "null".toList := fun h => hstring (.inr h)
    exact ⟨hquoted, fun hmem => hboolean ⟨hquoted, hnull, hmem⟩⟩
  · rintro ⟨hquoted, hmem⟩
    refine ⟨?_, fun h => hmem h.2.2⟩
    rintro (h | hnull)
    · exact hquoted h
    · rw [hnull] at hmem
      exact hmem (by decide)

theorem accepts_itemString_iff :
    Fragment.itemString.accepts (String.ofList i.chars) = true ↔ i.kind = .string := by
  have h : ColumnType.string.accepts (i.written 0) = true ↔ _ := ColumnType.accepts_string_iff
  rw [kind_eq_string_iff]
  exact h

theorem accepts_itemBoolean_iff : Fragment.itemBoolean.accepts (String.ofList i.chars) = true ↔
    i.kind = .boolean ∨ i.chars = "null".toList := by
  have h : ColumnType.boolean.accepts (i.written 0) = true ↔ _ := ColumnType.accepts_boolean_iff
  refine h.trans ?_
  rw [kind_eq_boolean_iff]
  constructor
  · intro hmem
    by_cases hnull : i.chars = "null".toList
    · exact .inr hnull
    · exact .inl ⟨fun hquoted => hquoted.asciiLower_notMem hmem, hnull, hmem⟩
  · rintro (⟨-, -, hmem⟩ | hnull)
    · exact hmem
    · rw [hnull]
      decide

end Item

end Spelling

/-! ### Conditions on their own -/

namespace Written

/-- What the pieces of a condition are when they are taken out of its text. -/
structure Condition.StandsAlone (c : Condition) : Prop where
  /-- The condition is read again as it was, at the first byte of its text. -/
  condition : ∃ d, readCondition c.whole.text = .ok d ∧ d.shift c.whole.start = c
  column : Fragment.column.accepts c.column.text = true
  single : ∀ i, c.value = .single i → Fragment.comparatorSingle.accepts c.comparator.text = true
  list : ∀ whole items, c.value = .list whole items →
    Fragment.comparatorMultiple.accepts c.comparator.text = true ∧
      Fragment.itemList.accepts whole.text = true
  item : ∀ i ∈ c.value.items, Fragment.item.accepts i.lexeme.text = true ∧
    (Fragment.itemString.accepts i.lexeme.text = true ↔ i.kind = .string) ∧
    (Fragment.itemBoolean.accepts i.lexeme.text = true ↔
      i.kind = .boolean ∨ i.lexeme.text = "null")

end Written

namespace Spelling

theorem Comparison.exists_of_mem_items (c : Comparison) {start : Nat} {i : Written.Item}
    (h : i ∈ (c.value start).items) : ∃ (j : Item) (place : Nat), i = j.written place := by
  cases c with
  | single op gap item takesOne whole =>
    obtain rfl := List.mem_singleton.1 h
    exact ⟨item, start, rfl⟩
  | list keyword gap l =>
    rcases List.mem_cons.1 h with rfl | h
    · exact ⟨l.first, _, rfl⟩
    · obtain ⟨n, -, place, rfl⟩ := exists_of_mem_layOut h
      exact ⟨n.item, _, rfl⟩

theorem Condition.standsAlone (c : Condition) (start : Nat) : (c.written start).StandsAlone where
  condition := ⟨c.written 0, Written.readCondition_text c, (c.written_add start 0).symm⟩
  column := c.accepts_column
  single := by
    intro i h
    simp only [Condition.written] at h ⊢
    cases hc : c.comparison with
    | single op gap item takesOne whole =>
      rw [Comparison.comparator, String.ofList_toList]
      exact accepts_comparatorSingle takesOne
    | list keyword gap l =>
      rw [hc] at h
      cases h
  list := by
    intro whole items h
    simp only [Condition.written] at h ⊢
    cases hc : c.comparison with
    | single op gap item takesOne whole =>
      rw [hc] at h
      cases h
    | list keyword gap l =>
      rw [hc] at h
      obtain ⟨rfl, -⟩ := Written.Value.list.inj h
      exact ⟨keyword.accepts_comparatorMultiple, l.accepts_itemList⟩
  item := by
    intro i h
    obtain ⟨j, place, rfl⟩ := c.comparison.exists_of_mem_items h
    have hnull : String.ofList j.chars = "null" ↔ j.chars = "null".toList := by
      rw [← String.toList_inj, String.toList_ofList]
    refine ⟨j.accepts_item, j.accepts_itemString_iff, ?_⟩
    exact j.accepts_itemBoolean_iff.trans (or_congr_right hnull.symm)

section Read

variable {text : String} {w : Written.Filter} {c : Written.Condition}

/-- The conditions of a text that is read are spelled as conditions. -/
theorem exists_condition_of_readFilter (h : Written.readFilter text = .ok w)
    (hc : c ∈ w.conditions) : ∃ (v : Condition) (start : Nat), c = v.written start := by
  obtain ⟨f, -, rfl⟩ := readFilter_eq_ok.1 h
  exact f.exists_of_mem hc

/-- The literals of a text that is read are spelled as literals. -/
theorem exists_item_of_readFilter (h : Written.readFilter text = .ok w) (hc : c ∈ w.conditions)
    {i : Written.Item} (hi : i ∈ c.value.items) :
    ∃ (j : Item) (place : Nat), i = j.written place := by
  obtain ⟨v, start, rfl⟩ := exists_condition_of_readFilter h hc
  exact v.comparison.exists_of_mem_items hi

end Read

/-- A condition without anything around it. -/
def Condition.alone (c : Condition) : Filter :=
  ⟨.none, c, [], .none⟩

theorem Condition.text_alone (c : Condition) : c.alone.text = String.ofList c.chars := by
  simp [Filter.text, Filter.chars, alone, Gap.none]

/-- A filter of one condition that covers the text has nothing around it. -/
theorem Filter.chars_eq_of_span {f : Filter} {c : Written.Condition}
    (hc : f.written.conditions = [c]) (hspan : c.whole.span = ⟨0, Text.size f.text⟩) :
    f.chars = f.first.chars ∧ c = f.first.written 0 := by
  obtain ⟨opening, first, others, closing⟩ := f
  obtain ⟨rfl, hothers⟩ := List.cons.inj hc
  cases others with
  | cons n others => cases hothers
  | nil =>
    simp only [Filter.text, Filter.chars, Filter.written, Condition.written, Text.size, Lexeme.span,
      Span.mk.injEq, String.toList_ofList, Text.byteLength_append, List.flatMap_nil,
      List.nil_append] at hspan ⊢
    have hopening : opening.chars = [] := Text.byteLength_eq_zero.1 hspan.1
    have hclosing : closing.chars = [] := Text.byteLength_eq_zero.1 (by omega)
    rw [hopening, hclosing]
    exact ⟨List.append_nil _, rfl⟩

end Spelling

namespace Written

/-- **A text is read as a condition if it is read as a filter that is one condition from
its first byte to its last.** -/
theorem readCondition_eq_ok_iff_readFilter {text : String} {c : Condition} :
    readCondition text = .ok c ↔ ∃ w, readFilter text = .ok w ∧ w.conditions = [c] ∧
      c.whole.span = ⟨0, Text.size text⟩ := by
  constructor
  · intro h
    obtain ⟨v, rfl, rfl⟩ := readCondition_eq_ok.1 h
    refine ⟨v.alone.written, ?_, rfl, ?_⟩
    · rw [← v.text_alone]
      exact readFilter_text v.alone
    · simp [Spelling.Condition.written, Lexeme.span]
  · rintro ⟨w, hw, hconditions, hspan⟩
    obtain ⟨f, rfl, rfl⟩ := readFilter_eq_ok.1 hw
    obtain ⟨hchars, rfl⟩ := f.chars_eq_of_span hconditions hspan
    rw [Spelling.Filter.text, hchars]
    exact readCondition_text f.first

end Written

/-- **Every piece of a filter that is read means the same on its own**, and to be read as a
condition is to be read as a filter of one condition that covers the text. -/
theorem standsAlone_of_readFilter :
    (∀ {text : String} {w : Written.Filter}, Written.readFilter text = .ok w →
      ∀ c ∈ w.conditions, c.whole.StandsIn text.toList ∧ c.StandsAlone) ∧
    ∀ (text : String) (c : Written.Condition), Written.readCondition text = .ok c ↔
      ∃ w, Written.readFilter text = .ok w ∧ w.conditions = [c] ∧
        c.whole.span = ⟨0, Text.size text⟩ := by
  refine ⟨?_, fun text c => Written.readCondition_eq_ok_iff_readFilter⟩
  intro text w h c hc
  obtain ⟨f, rfl, rfl⟩ := readFilter_eq_ok.1 h
  have hplace : c.whole.StandsIn f.text.toList :=
    f.lossless.standsIn c hc c.whole (List.mem_cons_self ..)
  obtain ⟨v, start, rfl⟩ := f.exists_of_mem hc
  exact ⟨hplace, v.standsAlone start⟩

/-- A list with both kinds of `null`, behind a condition and before the end of the text. -/
theorem standsAlone_of_readFilter_secondCondition :
    ∃ w, Written.readFilter "a=1 or name Not  IN (\"x\", null,NULL) " = .ok w ∧
      (∀ c ∈ w.conditions, c.whole.StandsIn
        "a=1 or name Not  IN (\"x\", null,NULL) ".toList ∧ c.StandsAlone) ∧
      w.conditions.map (·.whole) = [⟨"a=1", 0⟩, ⟨"name Not  IN (\"x\", null,NULL)", 7⟩] := by
  obtain ⟨w, hw, hwhole⟩ : ∃ w,
      Written.readFilter "a=1 or name Not  IN (\"x\", null,NULL) " = .ok w ∧
      w.conditions.map (·.whole) = [⟨"a=1", 0⟩, ⟨"name Not  IN (\"x\", null,NULL)", 7⟩] := by
    refine ⟨⟨⟨⟨"a=1", 0⟩, ⟨"a", 0⟩, ⟨"=", 1⟩, .single ⟨.number, ⟨"1", 2⟩⟩⟩,
      [(.or, ⟨⟨"name Not  IN (\"x\", null,NULL)", 7⟩, ⟨"name", 7⟩, ⟨"Not  IN", 12⟩,
        .list ⟨"(\"x\", null,NULL)", 20⟩ [⟨.string, ⟨"\"x\"", 21⟩⟩, ⟨.string, ⟨"null", 26⟩⟩,
          ⟨.boolean, ⟨"NULL", 31⟩⟩]⟩)]⟩, ?_, rfl⟩
    decide +kernel
  exact ⟨w, hw, standsAlone_of_readFilter.1 hw, hwhole⟩

end ColumnFilter
