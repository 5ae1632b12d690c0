import ColumnFilter.Proofs.Reading.Pointing
import ColumnFilter.Proofs.Reading.Requirement
import ColumnFilter.Proofs.Tiling

/-!
# What a fault blames

A condition that is refused is refused for its column, its comparator or its value, and
the fault keeps the place of that part in the trimmed text.  `Span.CutsOut` says what such a
place is good for: cut out of the text it gives a piece that is not empty and lies in the
condition.  Every part of a condition has such a place (`Spelling.Filter.cutsOut`), so each
place that a fault shows cuts out the very piece that the fault names, or the column in the
spelling of the text where the fault names it as it was declared (`blames_of_parse`).
-/

namespace ColumnFilter

open Text

/-! ### Pieces of a condition -/

/-- The span cuts a piece out of the source that is not empty and lies in a condition. -/
structure Span.CutsOut (span : Span) (source : String) (c : Written.Condition) (piece : String) :
    Prop where
  cut?_eq : span.cut? source = some piece
  ne_empty : piece ≠ ""
  start_le : c.whole.span.start ≤ span.start
  stop_le : span.stop ≤ c.whole.span.stop

theorem Span.CutsOut.start_lt_stop {span : Span} {source : String} {c : Written.Condition}
    {piece : String} (h : span.CutsOut source c piece) : span.start < span.stop := by
  obtain ⟨before, after, -, -, hstop⟩ := cut?_eq_some_iff.1 h.cut?_eq
  have hsize : size piece ≠ 0 := by
    intro hzero
    exact h.ne_empty (String.toList_eq_nil_iff.1 (byteLength_eq_zero.1 hzero))
  omega

theorem Lexeme.StandsIn.cut?_eq {l : Lexeme} {source : String} (h : l.StandsIn source.toList) :
    l.span.cut? source = some l.text := by
  obtain ⟨before, after, hsource, hstart⟩ := h
  exact Span.cut?_eq_some_iff.2 ⟨before, after, hsource, hstart, rfl⟩

/-- No piece of a row begins before the row or ends behind it. -/
theorem Tiles.within {last : List Char → Prop} {whole : Lexeme}
    {pieces : List ((List Char → Prop) × Lexeme)}
    (h : Tiles last whole.start whole.chars pieces) :
    ∀ p ∈ pieces, whole.span.start ≤ p.2.span.start ∧ p.2.span.stop ≤ whole.span.stop := by
  intro p hp
  obtain ⟨before, after, hchars, hstart⟩ := h.exists_append p hp
  have hlength : byteLength whole.chars =
      byteLength before + (byteLength p.2.chars + byteLength after) := by
    rw [hchars, byteLength_append, byteLength_append]
  rw [p.2.stop_span, whole.stop_span]
  refine ⟨?_, by omega⟩
  show whole.start ≤ p.2.start
  omega

namespace Spelling

theorem Comparison.comparator_ne_nil (c : Comparison) : c.comparator ≠ [] := by
  cases c with
  | single op gap item takesOne whole =>
    show op.symbol.toList ≠ []
    cases op <;> decide
  | list keyword gap l =>
    show keyword.chars ≠ []
    cases keyword with
    | oneOf word isIn => exact Grammar.ne_nil_of_asciiLower (by decide) isIn
    | noneOf negation gap word isNot apart isIn =>
      exact List.append_ne_nil_of_left_ne_nil (Grammar.ne_nil_of_asciiLower (by decide) isNot) _

theorem Comparison.valueChars_ne_nil (c : Comparison) : c.valueChars ≠ [] := by
  cases c with
  | single op gap item takesOne whole => exact item.chars_ne_nil
  | list keyword gap l => exact List.cons_ne_nil _ _

/-- No part of a condition is empty. -/
theorem Condition.text_ne_empty (v : Condition) (start : Nat) :
    ∀ p ∈ (v.written start).parts, p.2.text ≠ "" := by
  intro p hp
  have hne : p.2.chars ≠ [] := by
    rw [Written.Condition.parts, Condition.written, Comparison.lexeme_value] at hp
    simp only [List.mem_cons, List.not_mem_nil, or_false] at hp
    rcases hp with rfl | rfl | rfl
    · rw [Lexeme.chars_ofList]
      exact v.column_ne_nil
    · rw [Lexeme.chars_ofList]
      exact v.comparison.comparator_ne_nil
    · rw [Lexeme.chars_ofList]
      exact v.comparison.valueChars_ne_nil
  intro hempty
  apply hne
  rw [Lexeme.chars, hempty]
  rfl

/-- **The places of the parts of a condition cut them out of the text.** -/
theorem Filter.cutsOut {f : Filter} {c : Written.Condition} (hc : c ∈ f.written.conditions) :
    ∀ p ∈ c.parts, p.2.span.CutsOut f.text c p.2.text := by
  intro p hp
  have hwhole : c.whole.StandsIn f.text.toList :=
    f.lossless.standsIn c hc c.whole (List.mem_cons_self ..)
  have htiles := (f.lossless.conditions c hc).tiles
  obtain ⟨hstart, hstop⟩ := htiles.within p hp
  refine ⟨(htiles.standsIn hwhole p hp).cut?_eq, ?_, hstart, hstop⟩
  obtain ⟨v, start, rfl⟩ := exists_of_mem hc
  exact v.text_ne_empty start p hp

end Spelling

/-! ### Causes -/

namespace Cause

/-- Does the cause speak of what a condition means, and not of the form of the text? -/
def isSemantic : Cause → Bool
  | unknownColumn .. | untypedColumn .. | incompatibleOperator .. | invalidValue .. => true
  | malformed .. | internal _ => false

/-- Each place of the cause cuts out what the cause names there.  A column that was found is named
as it was declared, and cut out as it is written. -/
def Blames (source : String) (c : Written.Condition) : Cause → Prop
  | unknownColumn column _ => column.span.CutsOut source c column.text
  | untypedColumn name column => ∃ spelling, column.span.CutsOut source c spelling ∧
      sameIgnoringCase name spelling = true
  | incompatibleOperator name _ operator column =>
    operator.span.CutsOut source c operator.text ∧
      ∃ spelling, column.span.CutsOut source c spelling ∧ sameIgnoringCase name spelling = true
  | invalidValue _ found => found.span.CutsOut source c found.text
  | malformed .. | internal _ => False

/-- Nothing else is shown. -/
theorem Blames.labels {source : String} {c : Written.Condition} {cause : Cause}
    (h : cause.Blames source c) :
    ∀ label ∈ cause.labels, ∃ piece, label.2.CutsOut source c piece := by
  intro label hlabel
  cases cause with
  | malformed | internal => exact h.elim
  | unknownColumn column similar =>
    obtain rfl := List.mem_singleton.1 hlabel
    exact ⟨column.text, h⟩
  | untypedColumn name column =>
    obtain rfl := List.mem_singleton.1 hlabel
    obtain ⟨spelling, hcut, -⟩ := h
    exact ⟨spelling, hcut⟩
  | incompatibleOperator name type operator column =>
    obtain ⟨hoperator, spelling, hcut, -⟩ := h
    simp only [Cause.labels, List.mem_cons, List.not_mem_nil, or_false] at hlabel
    rcases hlabel with rfl | rfl
    · exact ⟨operator.text, hoperator⟩
    · exact ⟨spelling, hcut⟩
  | invalidValue expected found =>
    obtain rfl := List.mem_singleton.1 hlabel
    exact ⟨found.text, h⟩

end Cause

/-- What a condition is refused for is found in the condition. -/
theorem Refusal.blames {s : Schema} {f : Spelling.Filter} {c : Written.Condition}
    {r : Requirement} {cause : Cause} (h : Refusal s c r cause)
    (hc : c ∈ f.written.conditions) : cause.Blames f.text c := by
  have hparts := Spelling.Filter.cutsOut hc
  have hcolumn : c.column.span.CutsOut f.text c c.column.text :=
    hparts (IsNothing, c.column) (by simp [Written.Condition.parts])
  have hcomparator : c.comparator.span.CutsOut f.text c c.comparator.text :=
    hparts (IsBlank, c.comparator) (by simp [Written.Condition.parts])
  have hvalue : c.value.lexeme.span.CutsOut f.text c c.value.lexeme.text :=
    hparts (IsBlank, c.value.lexeme) (by simp [Written.Condition.parts])
  cases h with
  | undeclared => exact hcolumn
  | untyped hresolve =>
    exact ⟨c.column.text, hcolumn, Schema.sameIgnoringCase_of_resolve hresolve⟩
  | disallowed hresolve _ _ =>
    exact ⟨hcomparator, c.column.text, hcolumn, Schema.sameIgnoringCase_of_resolve hresolve⟩
  | unfitting _ hitem _ =>
    rw [hitem] at hvalue
    exact hvalue

/-- What is wrong with a condition is that it does not meet some requirement. -/
theorem Requirement.exists_refusal_of_readCondition {s : Schema} {v : Spelling.Condition}
    {start : Nat} {cause : Cause} (h : s.readCondition (v.written start) = .error cause) :
    ∃ r, Refusal s (v.written start) r cause := by
  have hnot : ¬∀ r : Requirement, r.Met s (v.written start) := by
    intro hmet
    obtain ⟨c, hc⟩ := exists_readCondition hmet
    rw [h] at hc
    cases hc
  simp only [not_forall] at hnot
  obtain ⟨r, hr⟩ := hnot
  obtain ⟨q, hq, hmet⟩ := exists_first_unmet hr
  obtain ⟨found, hrefusal, hfound⟩ := exists_refusal hq hmet
  rw [h] at hfound
  obtain rfl := Except.error.inj hfound
  exact ⟨q, hrefusal⟩

/-! ### Texts -/

theorem Written.not_isSemantic_of_readFilter {text : String} {fault : Fault}
    (h : readFilter text = .error fault) : fault.cause.isSemantic = false := by
  obtain ⟨-, rfl⟩ := readFilter_eq_error.1 h
  rfl

/-- A fault speaks of the trimmed text. -/
theorem Schema.source_of_parse_eq_error {s : Schema} {text : String} {fault : Fault}
    (h : s.parse text = .error fault) : fault.source = trim text := by
  cases hread : Written.readFilter (trim text) with
  | error found =>
    rcases parse_of_readFilter_error hread with hempty | hparse
    · rw [hempty] at h
      cases h
    · rw [hparse] at h
      rw [← Except.error.inj h]
      rfl
  | ok w =>
    rw [parse_of_readFilter hread] at h
    split at h
    · rw [← Except.error.inj h]
    · cases h

/-- **A fault in the meaning of a text shows what it blames.**  It speaks of the trimmed text, and
each of its places cuts out of that text the piece that it names; the places are not empty, end
in the text and lie in one condition. -/
theorem blames_of_parse {s : Schema} {text : String} {fault : Fault}
    (h : s.parse text = .error fault) (hcause : fault.cause.isSemantic = true) :
    fault.source = trim text ∧ ∃ w, Written.readFilter (trim text) = .ok w ∧
      ∃ c ∈ w.conditions, fault.cause.Blames fault.source c ∧
        ∀ label ∈ fault.cause.labels, label.2.start < label.2.stop ∧
          label.2.stop ≤ size fault.source ∧ ∃ piece, label.2.CutsOut fault.source c piece := by
  have hsource := Schema.source_of_parse_eq_error h
  refine ⟨hsource, ?_⟩
  rcases Schema.exists_of_parse_eq_error h with ⟨found, hfound, heq⟩ | ⟨w, hw, c, hc, hread⟩
  · rw [heq, Written.not_isSemantic_of_readFilter hfound] at hcause
    cases hcause
  · obtain ⟨f, hf, rfl⟩ := readFilter_eq_ok.1 hw
    have hrefusal : ∃ r, Refusal s c r fault.cause := by
      obtain ⟨v, start, rfl⟩ := Spelling.Filter.exists_of_mem hc
      exact Requirement.exists_refusal_of_readCondition hread
    obtain ⟨r, hr⟩ := hrefusal
    have hblames : fault.cause.Blames fault.source c := by
      rw [hsource, ← hf]
      exact hr.blames hc
    refine ⟨f.written, hw, c, hc, hblames, ?_⟩
    intro label hlabel
    obtain ⟨piece, hpiece⟩ := hblames.labels label hlabel
    exact ⟨hpiece.start_lt_stop, Span.stop_le_of_cut? hpiece.cut?_eq, piece, hpiece⟩

/-- An operator that does not fit, behind a letter of two bytes and in a text with blanks around. -/
theorem blames_of_parse_incompatible :
    ∃ fault, (Schema.ofColumns [⟨"name", .string⟩, ⟨"age", .number⟩]).parse
        "\t name = \"é\" or Age ? 1 " = .error fault ∧ fault.cause.isSemantic = true ∧
      fault.cause = .incompatibleOperator "age" .number ⟨"?", 19⟩ ⟨"Age", 15⟩ ∧
      fault.source = trim "\t name = \"é\" or Age ? 1 " ∧
      ∃ c, fault.cause.Blames fault.source c := by
  have h : (Schema.ofColumns [⟨"name", .string⟩, ⟨"age", .number⟩]).parse
      "\t name = \"é\" or Age ? 1 " = .error
        ⟨.incompatibleOperator "age" .number ⟨"?", 19⟩ ⟨"Age", 15⟩,
          "name = \"é\" or Age ? 1"⟩ := by
    decide +kernel
  obtain ⟨hsource, w, -, c, -, hblames, -⟩ := blames_of_parse h rfl
  exact ⟨_, h, rfl, rfl, hsource, c, hblames⟩

end ColumnFilter
