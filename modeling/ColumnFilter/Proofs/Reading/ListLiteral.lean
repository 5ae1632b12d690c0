import ColumnFilter.Proofs.Reading.Conditions
import ColumnFilter.Proofs.Reading.Isolation

/-!
# Literals of lists

There is one table for the literals of lists on all columns: a text between quotes
stands for that text, `null`, `true` and `false` for themselves in any case, a number on
a column of numbers for that number, and any other word for the text it is.
`ListLiteral` is this table; it gives a literal at most one value (`ListLiteral.unique`).

Each column type has tests of its own, in an order of its own.  They follow the table
with one exception, which `listLiteral_listItem_iff` makes precise: columns of text keep
truth values as texts.
-/

namespace ColumnFilter

open Text Spelling

/-- Is the text a truth value in any case? -/
def IsTruthWord (cs : List Char) : Prop :=
  ∃ b, asciiLower cs = (Scalar.boolean b).chars

/-- The value of a literal of a list, each line of the table for what is in none above it. -/
inductive ColumnType.ListLiteral (type : ColumnType) : List Char → Scalar → Prop
  | quoted {quote : Char} {inside : List Char} : isQuote quote = true → quote ∉ inside →
      ListLiteral type (quote :: (inside ++ [quote])) (.text (String.ofList inside))
  | null {cs : List Char} : ¬IsQuotedText cs → asciiLower cs = "null".toList →
      ListLiteral type cs .null
  | boolean {cs : List Char} {b : Bool} : ¬IsQuotedText cs → asciiLower cs ≠ "null".toList →
      asciiLower cs = (Scalar.boolean b).chars → ListLiteral type cs (.boolean b)
  | number {cs : List Char} {l : Literal} : ¬IsQuotedText cs → asciiLower cs ≠ "null".toList →
      ¬IsTruthWord cs → type = .number → Literal.read? Char.isDigit cs = some l →
      ListLiteral type cs (.number l.value)
  | word {cs : List Char} : ¬IsQuotedText cs → asciiLower cs ≠ "null".toList →
      ¬IsTruthWord cs → (type = .number → Literal.read? Char.isDigit cs = none) →
      ListLiteral type cs (.text (String.ofList cs))

namespace ColumnType

variable {type : ColumnType} {cs : List Char}

theorem not_isQuotedText_of_boolean {b : Bool} (h : asciiLower cs = (Scalar.boolean b).chars) :
    ¬IsQuotedText cs := by
  intro hquoted
  refine hquoted.asciiLower_notMem ?_
  rw [h]
  cases b <;> decide

theorem ne_null_of_boolean {b : Bool} (h : asciiLower cs = (Scalar.boolean b).chars) :
    asciiLower cs ≠ "null".toList := by
  rw [h]
  cases b <;> decide

/-- **The table gives a literal one value.** -/
theorem ListLiteral.unique {x y : Scalar} (hx : type.ListLiteral cs x)
    (hy : type.ListLiteral cs y) : x = y := by
  cases hx with
  | @quoted quote inside hquote happart =>
    have hquoted : IsQuotedText (quote :: (inside ++ [quote])) :=
      ⟨quote, inside, hquote, happart, rfl⟩
    generalize hcs : quote :: (inside ++ [quote]) = cs at hy hquoted
    cases hy with
    | @quoted quote' inside' =>
      obtain ⟨rfl, htail⟩ := List.cons.inj hcs
      rw [List.append_cancel_right htail]
    | null h => exact absurd hquoted h
    | boolean h => exact absurd hquoted h
    | number h => exact absurd hquoted h
    | word h => exact absurd hquoted h
  | null hquoted hnull =>
    cases hy with
    | quoted hquote happart => exact absurd ⟨_, _, hquote, happart, rfl⟩ hquoted
    | null => rfl
    | boolean _ h => exact absurd hnull h
    | number _ h => exact absurd hnull h
    | word _ h => exact absurd hnull h
  | @boolean _ b hquoted hnull htruth =>
    cases hy with
    | quoted hquote happart => exact absurd ⟨_, _, hquote, happart, rfl⟩ hquoted
    | null _ h => exact absurd h hnull
    | @boolean _ b' _ _ htruth' =>
      rw [htruth] at htruth'
      cases b <;> cases b' <;> first | rfl | exact absurd htruth' (by decide)
    | number _ _ h => exact absurd ⟨b, htruth⟩ h
    | word _ _ h => exact absurd ⟨b, htruth⟩ h
  | number hquoted hnull htruth htype hl =>
    cases hy with
    | quoted hquote happart => exact absurd ⟨_, _, hquote, happart, rfl⟩ hquoted
    | null _ h => exact absurd h hnull
    | boolean _ _ h => exact absurd ⟨_, h⟩ htruth
    | number _ _ _ _ hl' => rw [Option.some.inj (hl.symm.trans hl')]
    | word _ _ _ h =>
      rw [h htype] at hl
      cases hl
  | word hquoted hnull htruth hnumber =>
    cases hy with
    | quoted hquote happart => exact absurd ⟨_, _, hquote, happart, rfl⟩ hquoted
    | null _ h => exact absurd h hnull
    | boolean _ _ h => exact absurd ⟨_, h⟩ htruth
    | number _ _ _ htype hl =>
      rw [hnumber htype] at hl
      cases hl
    | word => rfl

/-! ### What the columns make of a literal -/

variable {i : Item} {start : Nat}

theorem isTruthWord_iff (start : Nat) :
    IsTruthWord i.chars ↔ (i.written start).boolean?.isSome = true := by
  rw [Written.Item.isSome_boolean?_written_iff]
  constructor
  · rintro ⟨b, hb⟩
    cases b with
    | true => exact .inl hb
    | false => exact .inr hb
  · rintro (h | h)
    · exact ⟨true, h⟩
    · exact ⟨false, h⟩

theorem listLiteral_of_isQuotedText (h : IsQuotedText i.chars) :
    type.ListLiteral i.chars (.text (i.written start).unquoted) := by
  obtain ⟨quote, inside, hquote, happart, hchars⟩ := h
  rw [Written.Item.unquoted_of_quote ((i.chars_written start).trans hchars) hquote, hchars]
  exact .quoted hquote happart

theorem unquoted_of_not_isQuotedText (h : ¬IsQuotedText i.chars) :
    (i.written start).unquoted = String.ofList i.chars := by
  have hchars := i.chars_written start
  cases i with
  | quoted quote inside isQuote apart => exact absurd ⟨quote, inside, isQuote, apart, rfl⟩ h
  | bare word nonempty isBare unquoted => exact Written.Item.unquoted_of_bare hchars unquoted

theorem asciiLower_ne_null (hquoted : ¬IsQuotedText i.chars)
    (hnull : ¬(i.written start).isNull = true) : asciiLower i.chars ≠ "null".toList :=
  fun h => hnull (Written.Item.isNull_written_iff.2 ⟨hquoted, h⟩)

/-- What is neither `null` nor a truth value is kept as a text, unless it is a number. -/
theorem listLiteral_unquoted (hnull : ¬(i.written start).isNull = true)
    (htruth : ¬IsTruthWord i.chars)
    (hnumber : type = .number → Literal.read? Char.isDigit i.chars = none) :
    type.ListLiteral i.chars (.text (i.written start).unquoted) := by
  by_cases hquoted : IsQuotedText i.chars
  · exact listLiteral_of_isQuotedText hquoted
  · rw [unquoted_of_not_isQuotedText hquoted]
    exact .word hquoted (asciiLower_ne_null hquoted hnull) htruth hnumber

theorem listLiteral_of_boolean? {b : Bool} (hb : (i.written start).boolean? = some b) :
    type.ListLiteral i.chars (.boolean b) := by
  have hlower := asciiLower_of_boolean? hb
  exact .boolean (not_isQuotedText_of_boolean hlower) (ne_null_of_boolean hlower) hlower

theorem listLiteral_of_isNull (hnull : (i.written start).isNull = true) :
    type.ListLiteral i.chars .null :=
  .null (Written.Item.isNull_written_iff.1 hnull).1 (Written.Item.isNull_written_iff.1 hnull).2

/-- Columns of numbers read the numbers of their lists as the table says. -/
theorem listLiteral_numberListItem (i : Item) (start : Nat) :
    number.ListLiteral i.chars (numberListItem (i.written start)) := by
  rw [numberListItem]
  split
  next hquoted => exact listLiteral_of_isQuotedText (Written.Item.isQuoted_written_iff.1 hquoted)
  next hquoted =>
    rw [Written.Item.isQuoted_written_iff] at hquoted
    split
    next hnull => exact listLiteral_of_isNull hnull
    next hnull =>
      cases hb : (i.written start).boolean? with
      | some b => exact listLiteral_of_boolean? hb
      | none =>
        have htruth : ¬IsTruthWord i.chars := by
          rw [isTruthWord_iff start, hb]
          rintro ⟨⟩
        have hword := asciiLower_ne_null hquoted hnull
        dsimp only
        split
        next x hx =>
          rw [Option.ite_none_right_eq_some, Written.Item.isNumeric, Written.Item.number?,
            i.chars_written] at hx
          obtain ⟨l, hl, hvalue⟩ := Literal.exists_read?_of_number? hx.1 hx.2
          rw [hvalue]
          exact .number hquoted hword htruth rfl hl
        next hnone =>
          refine .word hquoted hword htruth fun _ => ?_
          by_contra hread
          have hsome : (Literal.read? Char.isDigit i.chars).isSome = true :=
            Option.isSome_iff_ne_none.2 hread
          rw [Literal.isSome_read?_iff Literal.digitsApart_isDigit,
            ← Literal.isNumeric_and_number?_iff] at hsome
          rw [Written.Item.isNumeric, Written.Item.number?, i.chars_written, if_pos hsome.1]
            at hnone
          rw [hnone] at hsome
          exact Bool.false_ne_true hsome.2

theorem listItem_string_of_isTruthWord (h : IsTruthWord i.chars) :
    string.listItem (i.written start) = .text (i.written start).lexeme.text := by
  obtain ⟨b, hb⟩ := h
  have hnull : ¬(i.written start).isNull = true := fun hnull =>
    ne_null_of_boolean hb (Written.Item.isNull_written_iff.1 hnull).2
  rw [listItem, if_neg hnull, unquoted_of_not_isQuotedText (not_isQuotedText_of_boolean hb)]
  rfl

/-- **All columns follow the table, but for truth values on columns of text.** -/
theorem listLiteral_listItem_iff (type : ColumnType) (i : Item) (start : Nat) :
    type.ListLiteral i.chars (type.listItem (i.written start)) ↔
      ¬(type = .string ∧ IsTruthWord i.chars) := by
  constructor
  · rintro h ⟨rfl, b, hb⟩
    -- the table has the truth value, and it has no other value
    have hvalue :=
      h.unique (.boolean (not_isQuotedText_of_boolean hb) (ne_null_of_boolean hb) hb)
    rw [listItem_string_of_isTruthWord ⟨b, hb⟩] at hvalue
    cases hvalue
  · intro h
    cases type with
    | number => exact listLiteral_numberListItem i start
    | string =>
      rw [listItem]
      split
      next hnull => exact listLiteral_of_isNull hnull
      next hnull =>
        exact listLiteral_unquoted hnull (fun htruth => h ⟨rfl, htruth⟩) (by rintro ⟨⟩)
    | boolean =>
      rw [listItem, scalar?]
      split
      next hnull => exact listLiteral_of_isNull hnull
      next hnull =>
        cases hb : (i.written start).boolean? with
        | some b => exact listLiteral_of_boolean? hb
        | none =>
          refine listLiteral_unquoted hnull ?_ (by rintro ⟨⟩)
          rw [isTruthWord_iff start, hb]
          rintro ⟨⟩

end ColumnType

/-! ### Lists of parsed filters -/

theorem Schema.exists_list_of_readCondition {s : Schema} {c : Condition} {v : Spelling.Condition}
    {start : Nat} (h : s.readCondition (v.written start) = .ok c)
    (hlist : c.operator.takesList = true) :
    ∃ type, s.typeOf (v.written start).column.text = some type ∧
      c.value = .list ((v.written start).value.items.map type.listItem) := by
  obtain ⟨-, hoperator, type, htype, hvalue⟩ := readCondition_eq_ok.1 h
  rw [hoperator] at hlist
  rcases v.value_written_cases start with ⟨i, place, -, hsingle⟩ | ⟨l, place, hitems, -⟩
  · rw [hsingle] at hlist
    cases hlist
  · rw [hitems]
    exact ⟨type, htype, ((readValue_itemList_eq_ok hitems).1 hvalue).2⟩

/-- **Every list of a parsed filter has one element for each literal, in their order**, which
is the value of the literal in the table unless it is a truth value on a column of text. -/
theorem forall₂_listLiteral_of_parse {s : Schema} {text : String} {w : Written.Filter} {f : Filter}
    (hread : Written.readFilter (trim text) = .ok w) (h : s.parse text = .ok f) :
    List.Forall₂ (fun c d => d.operator.takesList = true →
      ∃ type values, s.typeOf c.column.text = some type ∧ d.value = .list values ∧
        List.Forall₂ (fun item v =>
          (type.ListLiteral item.chars v ↔ ¬(type = .string ∧ IsTruthWord item.chars)) ∧
          (type = .string ∧ IsTruthWord item.chars → v = .text item.lexeme.text))
          c.value.items values) w.conditions f.conditions := by
  have hall := (List.forall₂_and_left (p := (· ∈ w.conditions)) _ _).2
    ⟨fun _ hc => hc, Schema.forall₂_readCondition_of_parse hread h⟩
  refine hall.imp fun c d hcd hlist => ?_
  obtain ⟨hc, hcondition⟩ := hcd
  have hitems := fun i => exists_item_of_readFilter hread hc (i := i)
  obtain ⟨v, start, rfl⟩ := exists_condition_of_readFilter hread hc
  obtain ⟨type, htype, hvalue⟩ := Schema.exists_list_of_readCondition hcondition hlist
  refine ⟨type, _, htype, hvalue, ?_⟩
  rw [List.forall₂_map_right_iff, List.forall₂_same]
  intro item hitem
  obtain ⟨i, place, rfl⟩ := hitems item hitem
  rw [i.chars_written]
  refine ⟨type.listLiteral_listItem_iff i place, ?_⟩
  rintro ⟨rfl, htruth⟩
  exact ColumnType.listItem_string_of_isTruthWord htruth

/-- All lines of the table, and a truth value on a column of text. -/
theorem forall₂_listLiteral_of_parse_twoColumns :
    ∃ w f, Written.readFilter (trim "Name not  in ('a', NULL, True) and age in (0e1, x, FALSE)") =
        .ok w ∧
      (Schema.ofColumns [⟨"name", .string⟩, ⟨"age", .number⟩]).parse
        "Name not  in ('a', NULL, True) and age in (0e1, x, FALSE)" = .ok f ∧
      f.conditions.map (·.value) = [.list [.text "a", .null, .text "True"],
        .list [.number (.finite false 0 isDouble_zero), .text "x", .boolean false]] ∧
      List.Forall₂ (fun c d => d.operator.takesList = true →
        ∃ type values, (Schema.ofColumns [⟨"name", .string⟩, ⟨"age", .number⟩]).typeOf
            c.column.text = some type ∧ d.value = .list values ∧
          List.Forall₂ (fun item v =>
            (type.ListLiteral item.chars v ↔ ¬(type = .string ∧ IsTruthWord item.chars)) ∧
            (type = .string ∧ IsTruthWord item.chars → v = .text item.lexeme.text))
            c.value.items values) w.conditions f.conditions := by
  have hread : Written.readFilter
      (trim "Name not  in ('a', NULL, True) and age in (0e1, x, FALSE)") =
        .ok ⟨⟨⟨"Name not  in ('a', NULL, True)", 0⟩, ⟨"Name", 0⟩, ⟨"not  in", 5⟩,
          .list ⟨"('a', NULL, True)", 13⟩ [⟨.string, ⟨"'a'", 14⟩⟩, ⟨.boolean, ⟨"NULL", 19⟩⟩,
            ⟨.boolean, ⟨"True", 25⟩⟩]⟩,
        [(.and, ⟨⟨"age in (0e1, x, FALSE)", 35⟩, ⟨"age", 35⟩, ⟨"in", 39⟩,
          .list ⟨"(0e1, x, FALSE)", 42⟩ [⟨.number, ⟨"0e1", 43⟩⟩, ⟨.number, ⟨"x", 48⟩⟩,
            ⟨.boolean, ⟨"FALSE", 51⟩⟩]⟩)]⟩ := by
    decide +kernel
  have hparse : (Schema.ofColumns [⟨"name", .string⟩, ⟨"age", .number⟩]).parse
      "Name not  in ('a', NULL, True) and age in (0e1, x, FALSE)" =
        .ok ⟨[⟨"name", .noneOf, .list [.text "a", .null, .text "True"]⟩,
          ⟨"age", .oneOf, .list [.number (.finite false 0 isDouble_zero), .text "x",
            .boolean false]⟩], [.and]⟩ := by
    decide +kernel
  exact ⟨_, _, hread, hparse, rfl, forall₂_listLiteral_of_parse hread hparse⟩

/-- The table has `true` for the literal `true`, and a column of text does not. -/
theorem parse_list_truthWord_on_text :
    (Schema.ofColumns [⟨"name", .string⟩]).parse "name in (true)" =
        .ok ⟨[⟨"name", .oneOf, .list [.text "true"]⟩], []⟩ ∧
      ColumnType.string.ListLiteral "true".toList (.boolean true) ∧
      ¬ColumnType.string.ListLiteral "true".toList (.text "true") := by
  have htable : ColumnType.string.ListLiteral "true".toList (.boolean true) :=
    .boolean (ColumnType.not_isQuotedText_of_boolean (b := true) rfl) (by decide) rfl
  refine ⟨by decide +kernel, htable, fun htext => ?_⟩
  cases htable.unique htext

end ColumnFilter
