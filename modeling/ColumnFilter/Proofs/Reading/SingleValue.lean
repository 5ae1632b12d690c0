import ColumnFilter.Proofs.Number.Shape
import ColumnFilter.Proofs.RoundTrip.Typing
import ColumnFilter.Proofs.Spelling.Fragment

/-!
# Literals that are single values

`HasLiteral` says which literals a column of a type takes as its one value, and
`accepts_and_scalar?_iff` that the column takes these and no others.  A number
has to have the shape of a literal with the digits of any script and a value as
well; only literals with ASCII digits have both.
-/

namespace ColumnFilter

open Spelling

/-- A text between two quotes of a kind that does not occur in it. -/
def IsQuotedText (cs : List Char) : Prop :=
  ∃ quote inside, isQuote quote = true ∧ quote ∉ inside ∧ cs = quote :: (inside ++ [quote])

/-- What does not begin with a quote is no text between quotes. -/
theorem not_isQuotedText_of_head {cs : List Char}
    (h : ∀ c, cs.head? = some c → isQuote c = false) : ¬IsQuotedText cs := by
  rintro ⟨quote, inside, hquote, -, rfl⟩
  rw [h quote rfl] at hquote
  cases hquote

/-- The literals that may stand for a single value of a type. -/
def ColumnType.HasLiteral : ColumnType → List Char → Prop
  | string, cs => IsQuotedText cs ∨ cs = "null".toList
  | number, cs => cs = "null".toList ∨ Literal.HasShape Char.isDigit cs
  | boolean, cs => Text.asciiLower cs ∈ ["true".toList, "false".toList, "null".toList]

/-! ### What the parts of a literal are asked -/

namespace Written.Item

variable {i : Spelling.Item} {start : Nat}

theorem isQuoted_written_iff : (i.written start).isQuoted = true ↔ IsQuotedText i.chars := by
  have hchars := i.chars_written start
  cases i with
  | quoted quote inside isQuote apart =>
    refine ⟨fun _ => ⟨quote, inside, isQuote, apart, rfl⟩, fun _ => ?_⟩
    rw [isQuoted, hchars]
    exact isQuote
  | bare word nonempty isBare unquoted =>
    rw [isQuoted_of_bare hchars unquoted]
    exact iff_of_false Bool.false_ne_true (not_isQuotedText_of_head unquoted)

theorem isPlainNull_written_iff :
    (i.written start).isPlainNull = true ↔ i.chars = "null".toList := by
  have hchars : (i.written start).lexeme.text.toList = i.chars := i.chars_written start
  rw [isPlainNull, beq_iff_eq, ← String.toList_inj, hchars]

theorem isNull_written_iff : (i.written start).isNull = true ↔
    ¬IsQuotedText i.chars ∧ Text.asciiLower i.chars = "null".toList := by
  rw [isNull, Bool.and_eq_true, Bool.not_eq_true', Bool.eq_false_iff, Ne, isQuoted_written_iff,
    i.chars_written, Text.sameIgnoringAsciiCase, beq_iff_eq]
  exact Iff.rfl

theorem isSome_boolean?_written_iff : (i.written start).boolean?.isSome = true ↔
    Text.asciiLower i.chars = "true".toList ∨ Text.asciiLower i.chars = "false".toList := by
  have htrue : Text.asciiLower "true".toList = "true".toList := rfl
  have hfalse : Text.asciiLower "false".toList = "false".toList := rfl
  simp only [boolean?, i.chars_written, Text.sameIgnoringAsciiCase, htrue, hfalse, beq_iff_eq]
  split
  next h => exact ⟨fun _ => .inl h, fun _ => rfl⟩
  next h =>
    rw [or_iff_right h]
    split
    next h' => exact ⟨fun _ => h', fun _ => rfl⟩
    next h' => exact ⟨fun hnone => (by cases hnone), fun hfalse => (h' hfalse).elim⟩

end Written.Item

/-- A text between quotes is no word in any case. -/
theorem IsQuotedText.asciiLower_notMem {cs : List Char} (h : IsQuotedText cs) :
    Text.asciiLower cs ∉ ["true".toList, "false".toList, "null".toList] := by
  obtain ⟨quote, inside, hquote, -, rfl⟩ := h
  rw [isQuote_iff] at hquote
  rcases hquote with rfl | rfl <;> simp [Text.asciiLower]

namespace Literal

theorem digitsApart_isDigit : DigitsApart Char.isDigit := by
  intro c hc
  simp only [List.mem_cons, List.not_mem_nil, or_false] at hc
  rcases hc with rfl | rfl | rfl | rfl | rfl <;> decide

theorem digitsApart_isDecimalDigit : DigitsApart Text.isDecimalDigit := by
  intro c hc
  simp only [List.mem_cons, List.not_mem_nil, or_false] at hc
  rcases hc with rfl | rfl | rfl | rfl | rfl <;> decide

/-- **What has the shape of a number and is one** is a literal with ASCII digits. -/
theorem isNumeric_and_number?_iff {cs : List Char} :
    (read? Text.isDecimalDigit cs).isSome = true ∧ (Number.read? cs).isSome = true ↔
      HasShape Char.isDigit cs := by
  rw [← isSome_read?_iff digitsApart_isDigit]
  constructor
  · rintro ⟨hshape, hnumber⟩
    obtain ⟨x, hx⟩ := Option.isSome_iff_exists.1 hnumber
    obtain ⟨l, hl, -⟩ := exists_read?_of_number? hshape hx
    exact Option.isSome_iff_exists.2 ⟨l, hl⟩
  · intro h
    constructor
    · rw [isSome_read?_iff digitsApart_isDecimalDigit]
      rw [isSome_read?_iff digitsApart_isDigit] at h
      exact h.mono fun c _ hc => Text.isDecimalDigit_of_isDigit hc
    · obtain ⟨l, hl⟩ := Option.isSome_iff_exists.1 h
      rw [Number.read?, hl]
      rfl

end Literal

/-! ### Fragments -/

namespace ColumnType

variable {i : Spelling.Item} {start : Nat}

theorem accepts_string_iff : string.accepts (i.written start) = true ↔
    IsQuotedText i.chars ∨ i.chars = "null".toList := by
  have hchars : (i.written start).lexeme.text.toList = i.chars := i.chars_written start
  rw [accepts, Fragment.accepts, Fragment.run, hchars]
  show (Pattern.run (Grammar.only .itemStringOnly Grammar.itemString) 0 i.chars).isSome = true ↔ _
  cases i with
  | quoted quote inside isQuote apart =>
    have hrun := Grammar.run_itemString_of_quoted isQuote apart 0 []
    exact ⟨fun _ => .inl ⟨quote, inside, isQuote, apart, rfl⟩,
      fun _ => Grammar.isSome_run_only hrun rfl⟩
  | bare word nonempty isBare unquoted =>
    have hrun : Pattern.run Grammar.itemString 0 (word ++ []) = _ :=
      Grammar.run_itemString_of_unquoted isBare Stops.nil
        (Stops.append_of_ne_nil nonempty unquoted)
    rw [List.append_nil] at hrun
    rw [Item.chars, or_iff_right (not_isQuotedText_of_head unquoted)]
    by_cases hnull : word = "null".toList
    · rw [if_pos hnull] at hrun
      exact ⟨fun _ => hnull, fun _ => Grammar.isSome_run_only hrun rfl⟩
    · rw [if_neg hnull] at hrun
      rw [Grammar.isSome_run_only_of_none hrun]
      exact ⟨fun h => (Bool.false_ne_true h).elim, fun h => (hnull h).elim⟩

theorem accepts_boolean_iff : boolean.accepts (i.written start) = true ↔
    Text.asciiLower i.chars ∈ ["true".toList, "false".toList, "null".toList] := by
  have hchars : (i.written start).lexeme.text.toList = i.chars := i.chars_written start
  rw [accepts, Fragment.accepts, Fragment.run, hchars]
  show (Pattern.run (Grammar.only .itemBooleanOnly Grammar.itemBoolean) 0 i.chars).isSome = true ↔ _
  cases i with
  | quoted quote inside isQuote apart =>
    rw [Item.chars, Grammar.isSome_run_only_of_none (Grammar.run_itemBoolean_of_isQuote isQuote)]
    exact ⟨fun h => (Bool.false_ne_true h).elim,
      fun h => absurd h (IsQuotedText.asciiLower_notMem ⟨quote, inside, isQuote, apart, rfl⟩)⟩
  | bare word nonempty isBare unquoted =>
    have hrun : Pattern.run Grammar.itemBoolean 0 (word ++ []) = _ :=
      Grammar.run_itemBoolean_of_bare isBare Stops.nil
    rw [List.append_nil] at hrun
    rw [Item.chars]
    by_cases hword : Text.asciiLower word ∈ ["true".toList, "false".toList, "null".toList]
    · rw [if_pos hword] at hrun
      exact ⟨fun _ => hword, fun _ => Grammar.isSome_run_only hrun rfl⟩
    · rw [if_neg hword] at hrun
      rw [Grammar.isSome_run_only_of_none hrun]
      exact ⟨fun h => (Bool.false_ne_true h).elim, fun h => (hword h).elim⟩

/-! ### Single values -/

/-- **A column takes exactly the literals of its type.** -/
theorem accepts_and_scalar?_iff (type : ColumnType) (i : Spelling.Item) (start : Nat) :
    type.accepts (i.written start) = true ∧ (type.scalar? (i.written start)).isSome = true ↔
      type.HasLiteral i.chars := by
  cases type with
  | string =>
    rw [HasLiteral, accepts_string_iff, scalar?]
    refine and_iff_left_of_imp fun h => ?_
    rcases h with hquoted | hnull
    · rw [if_pos (Written.Item.isQuoted_written_iff.2 hquoted)]
      rfl
    · split
      · rfl
      · rw [if_pos (Written.Item.isPlainNull_written_iff.2 hnull)]
        rfl
  | number =>
    rw [HasLiteral, accepts, scalar?, ← Literal.isNumeric_and_number?_iff,
      ← @Written.Item.isPlainNull_written_iff i start, Written.Item.isNumeric,
      Written.Item.number?, i.chars_written]
    cases (i.written start).isPlainNull with
    | true => simp
    | false => simp
  | boolean =>
    rw [HasLiteral, scalar?]
    constructor
    · rintro ⟨-, hscalar⟩
      split at hscalar
      next hnull => simp [(Written.Item.isNull_written_iff.1 hnull).2]
      next =>
        rw [Option.isSome_map] at hscalar
        rcases Written.Item.isSome_boolean?_written_iff.1 hscalar with h | h <;> simp [h]
    · intro h
      refine ⟨accepts_boolean_iff.2 h, ?_⟩
      have hquoted : ¬IsQuotedText i.chars := fun hquoted => hquoted.asciiLower_notMem h
      split
      next => rfl
      next hnull =>
        have hnotnull : Text.asciiLower i.chars ≠ "null".toList := fun he =>
          hnull (Written.Item.isNull_written_iff.2 ⟨hquoted, he⟩)
        simp only [List.mem_cons, List.not_mem_nil, or_false] at h
        rw [Option.isSome_map, Written.Item.isSome_boolean?_written_iff]
        rcases h with h | h | h
        · exact .inl h
        · exact .inr h
        · exact absurd h hnotnull

end ColumnType

end ColumnFilter
