import ColumnFilter.Filter.Text
import ColumnFilter.Proofs.Number.Printing
import ColumnFilter.Proofs.RoundTrip.Consistent
import ColumnFilter.Proofs.Spelling.Literal
import Mathlib.Data.List.Forall2

/-!
# What columns make of literals

A column looks at nothing but the characters of a literal.  What is written for
a plain value is a literal again (`exists_item_chars`), and the columns that may
hold the value take the literal for it (`scalar?_of_chars`, `listItem_of_chars`).
-/

namespace ColumnFilter

/-! ### Literals for plain values -/

theorem isQuote_quoteFor (cs : List Char) : Spelling.isQuote (quoteFor cs) = true := by
  rw [quoteFor]
  split <;> rfl

/-- The quote around a plain text does not occur in it. -/
theorem quoteFor_notMem {cs : List Char} (h : ¬('"' ∈ cs ∧ '\'' ∈ cs)) : quoteFor cs ∉ cs := by
  rw [quoteFor]
  split
  next hcs => simpa using (Bool.and_eq_true_iff.1 hcs).2
  next hcs =>
    intro hmem
    have hsingle : '\'' ∉ cs := fun hmem' => h ⟨hmem, hmem'⟩
    exact hcs (by simp [hmem, hsingle])

theorem isPlain_text_iff {s : String} :
    (Scalar.text s).isPlain = true ↔ ¬('"' ∈ s.toList ∧ '\'' ∈ s.toList) := by
  simp [Scalar.isPlain, Decidable.imp_iff_not_or]

namespace Number

/-- The characters of a finite number belong to words and are no quotes. -/
theorem isBare_of_mem_plainChars {x : Number} (h : x.isFinite = true) {c : Char}
    (hc : c ∈ x.plainChars) : Grammar.isBare c = true ∧ Spelling.isQuote c = false := by
  rcases mem_plainChars h hc with hdigit | rfl | rfl
  · have hword : Text.isWordChar c = true := by simp [Text.isWordChar, Char.isAlphanum, hdigit]
    exact ⟨isBare_of_isWordChar hword, isQuote_eq_false_of_isWordChar hword⟩
  · decide
  · decide

/-- A finite number is written without letters, so it is no keyword. -/
theorem asciiLower_plainChars_ne {x : Number} (h : x.isFinite = true) {word : List Char}
    (hword : ∃ c ∈ word, c.isLower = true) : Text.asciiLower x.plainChars ≠ word := by
  rintro rfl
  obtain ⟨_, hc, hlower⟩ := hword
  obtain ⟨d, hd, rfl⟩ := List.mem_map.1 hc
  rcases mem_plainChars h hd with hdigit | rfl | rfl
  · have hrange := isDigit_iff.1 hdigit
    rw [isLower_iff, toNat_toLower, if_neg (by omega)] at hlower
    omega
  · exact absurd hlower (by decide)
  · exact absurd hlower (by decide)

theorem plainChars_ne_nil (x : Number) : x.plainChars ≠ [] := by
  cases x with
  | finite negative m hm =>
    refine List.append_ne_nil_of_right_ne_nil _ ?_
    rw [← Decimal.plainChars_plainLiteral _ negative]
    exact List.append_ne_nil_of_left_ne_nil (Decimal.whole_ne_nil _ negative) _
  | infinite negative => exact List.append_ne_nil_of_right_ne_nil _ (List.cons_ne_nil _ _)
  | notANumber => exact List.cons_ne_nil _ _

end Number

/-- **What is written for a plain value is a literal.** -/
theorem exists_item_chars {x : Scalar} (h : x.isPlain = true) :
    ∃ i : Spelling.Item, i.chars = x.chars := by
  have hword : ∀ s : String, s.toList ≠ [] →
      (s.toList.all fun c => Grammar.isBare c && !Spelling.isQuote c) = true →
      ∃ i : Spelling.Item, i.chars = s.toList := by
    intro s hne hall
    have hchars : ∀ c ∈ s.toList, Grammar.isBare c = true ∧ Spelling.isQuote c = false := by
      simpa using hall
    exact ⟨.bare s.toList hne (fun c hc => (hchars c hc).1)
      (fun c hc => (hchars c (List.mem_of_mem_head? hc)).2), rfl⟩
  cases x with
  | null => exact hword "null" (by decide) (by decide)
  | boolean b =>
    cases b with
    | true => exact hword "true" (by decide) (by decide)
    | false => exact hword "false" (by decide) (by decide)
  | number x =>
    exact ⟨.bare x.plainChars x.plainChars_ne_nil
      (fun c hc => (Number.isBare_of_mem_plainChars h hc).1)
      (fun c hc => (Number.isBare_of_mem_plainChars h (List.mem_of_mem_head? hc)).2), rfl⟩
  | text s =>
    exact ⟨.quoted (quoteFor s.toList) s.toList (isQuote_quoteFor _)
      (quoteFor_notMem (isPlain_text_iff.1 h)), rfl⟩

/-! ### Plain values read back -/

theorem Spelling.Item.chars_written (i : Item) (start : Nat) : (i.written start).chars = i.chars :=
  String.toList_ofList

namespace Written.Item

variable {i : Item} {cs : List Char}

theorem text_eq (h : i.chars = cs) : i.lexeme.text = String.ofList cs := by
  rw [← h, chars, String.ofList_toList]

theorem isQuoted_of_quote {quote last : Char} {inside : List Char}
    (h : i.chars = quote :: (inside ++ [last])) (hquote : Spelling.isQuote quote = true) :
    i.isQuoted = true := by
  rw [isQuoted, h]
  exact hquote

theorem unquoted_of_quote {quote last : Char} {inside : List Char}
    (h : i.chars = quote :: (inside ++ [last])) (hquote : Spelling.isQuote quote = true) :
    i.unquoted = String.ofList inside := by
  rw [unquoted, unquotedChars, isQuoted_of_quote h hquote, h]
  simp

theorem isQuoted_of_quoted (h : i.chars = quoted cs) : i.isQuoted = true :=
  isQuoted_of_quote h (isQuote_quoteFor cs)

theorem unquoted_of_quoted (h : i.chars = quoted cs) : i.unquoted = String.ofList cs :=
  unquoted_of_quote h (isQuote_quoteFor cs)

theorem isQuoted_of_bare (h : i.chars = cs)
    (hcs : ∀ c, cs.head? = some c → Spelling.isQuote c = false) : i.isQuoted = false := by
  rw [isQuoted, h]
  cases cs with
  | nil => rfl
  | cons c cs => exact hcs c rfl

theorem unquoted_of_bare (h : i.chars = cs)
    (hcs : ∀ c, cs.head? = some c → Spelling.isQuote c = false) :
    i.unquoted = String.ofList cs := by
  rw [unquoted, unquotedChars, isQuoted_of_bare h hcs, Bool.false_and, h]
  rfl

section Finite

variable {x : Number}

theorem isQuoted_of_plainChars (hi : i.chars = x.plainChars) (h : x.isFinite = true) :
    i.isQuoted = false :=
  isQuoted_of_bare hi fun _ hc => (Number.isBare_of_mem_plainChars h (List.mem_of_mem_head? hc)).2

theorem isNumeric_of_plainChars (hi : i.chars = x.plainChars) (h : x.isFinite = true) :
    i.isNumeric = true := by
  rw [isNumeric, hi]
  exact x.isSome_read?_plainChars h

theorem number?_of_plainChars (hi : i.chars = x.plainChars) (h : x.isFinite = true) :
    i.number? = some x := by
  rw [number?, hi]
  exact x.read?_plainChars h

/-- A finite number is no word in any case. -/
theorem sameIgnoringAsciiCase_plainChars (hi : i.chars = x.plainChars) (h : x.isFinite = true)
    (word : List Char) (hlower : Text.asciiLower word = word)
    (hletter : ∃ c ∈ word, c.isLower = true) :
    Text.sameIgnoringAsciiCase i.chars word = false := by
  rw [Text.sameIgnoringAsciiCase, beq_eq_false_iff_ne, hlower, hi]
  exact x.asciiLower_plainChars_ne h hletter

theorem isNull_of_plainChars (hi : i.chars = x.plainChars) (h : x.isFinite = true) :
    i.isNull = false := by
  have hword := sameIgnoringAsciiCase_plainChars hi h "null".toList (by decide)
    ⟨'n', by decide, by decide⟩
  rw [isNull, hword, Bool.and_false]

theorem isPlainNull_of_plainChars (hi : i.chars = x.plainChars) (h : x.isFinite = true) :
    i.isPlainNull = false := by
  rw [isPlainNull, beq_eq_false_iff_ne]
  intro he
  have hchars : x.plainChars = "null".toList := by rw [← he]; exact hi.symm
  have hletter : ∃ c ∈ "null".toList, c.isLower = true := ⟨'n', by decide, by decide⟩
  exact x.asciiLower_plainChars_ne h hletter (congrArg Text.asciiLower hchars)

theorem boolean?_of_plainChars (hi : i.chars = x.plainChars) (h : x.isFinite = true) :
    i.boolean? = none := by
  have htrue := sameIgnoringAsciiCase_plainChars hi h "true".toList (by decide)
    ⟨'t', by decide, by decide⟩
  have hfalse := sameIgnoringAsciiCase_plainChars hi h "false".toList (by decide)
    ⟨'f', by decide, by decide⟩
  rw [boolean?, htrue, hfalse]
  rfl

end Finite

end Written.Item

namespace ColumnType

/-! A column looks at nothing but the text of a literal. -/

theorem accepts_congr (type : ColumnType) {i j : Written.Item}
    (h : i.lexeme.text = j.lexeme.text) : type.accepts i = type.accepts j := by
  obtain ⟨_, text, _⟩ := i
  obtain rfl : text = j.lexeme.text := h
  cases type <;> rfl

theorem scalar?_congr (type : ColumnType) {i j : Written.Item}
    (h : i.lexeme.text = j.lexeme.text) : type.scalar? i = type.scalar? j := by
  obtain ⟨_, text, _⟩ := i
  obtain rfl : text = j.lexeme.text := h
  cases type <;> rfl

theorem listItem_congr (type : ColumnType) {i j : Written.Item}
    (h : i.lexeme.text = j.lexeme.text) : type.listItem i = type.listItem j := by
  obtain ⟨_, text, _⟩ := i
  obtain rfl : text = j.lexeme.text := h
  cases type <;> rfl

theorem accepts_string_of_quoted {i : Written.Item} {cs : List Char} (hi : i.chars = quoted cs)
    (h : quoteFor cs ∉ cs) : string.accepts i = true := by
  have hrun := Grammar.run_itemString_of_quoted (isQuote_quoteFor cs) h 0 []
  have hchars : i.lexeme.text.toList = quoteFor cs :: (cs ++ [quoteFor cs]) := hi
  rw [accepts, Fragment.accepts, Fragment.run, hchars]
  show (Pattern.run (.node .itemStringOnly (.seq Grammar.itemString Grammar.endOfInput)) 0
    _).isSome = true
  rw [Pattern.run, Pattern.run_seq_of_some hrun]
  rfl

/-- **A single value is read back.** -/
theorem scalar?_of_chars {type : ColumnType} {x : Scalar} {i : Written.Item}
    (hi : i.chars = x.chars) (hfits : x.fits type = true) (hplain : x.isPlain = true) :
    type.accepts i = true ∧ type.scalar? i = some x := by
  have htext : i.lexeme.text = (⟨.string, ⟨String.ofList x.chars, 0⟩⟩ : Written.Item).lexeme.text :=
    Written.Item.text_eq hi
  cases x with
  | null =>
    rw [type.accepts_congr htext, type.scalar?_congr htext]
    cases type <;> decide
  | boolean b =>
    rw [type.accepts_congr htext, type.scalar?_congr htext]
    cases type with
    | boolean => cases b <;> decide
    | string => cases hfits
    | number => cases hfits
  | number x =>
    cases type with
    | number =>
      rw [accepts, scalar?, Written.Item.isPlainNull_of_plainChars hi hplain,
        Written.Item.isNumeric_of_plainChars hi hplain,
        Written.Item.number?_of_plainChars hi hplain]
      exact ⟨rfl, rfl⟩
    | string => cases hfits
    | boolean => cases hfits
  | text s =>
    cases type with
    | string =>
      refine ⟨accepts_string_of_quoted hi (quoteFor_notMem (isPlain_text_iff.1 hplain)), ?_⟩
      rw [scalar?, if_pos (Written.Item.isQuoted_of_quoted hi),
        Written.Item.unquoted_of_quoted hi, String.ofList_toList]
    | number => cases hfits
    | boolean => cases hfits

/-- **An element of a list is read back.** -/
theorem listItem_of_chars {type : ColumnType} {x : Scalar} {i : Written.Item}
    (hi : i.chars = x.chars) (hfits : x.fitsList type = true) (hplain : x.isPlain = true) :
    type.listItem i = x := by
  have htext : i.lexeme.text = (⟨.string, ⟨String.ofList x.chars, 0⟩⟩ : Written.Item).lexeme.text :=
    Written.Item.text_eq hi
  cases x with
  | null =>
    rw [type.listItem_congr htext]
    cases type with
    | string => decide
    | number => decide
    | boolean => cases hfits
  | boolean b =>
    rw [type.listItem_congr htext]
    cases type with
    | number => cases b <;> decide
    | string => cases hfits
    | boolean => cases hfits
  | number x =>
    cases type with
    | number =>
      rw [listItem, numberListItem, Written.Item.isQuoted_of_plainChars hi hplain,
        Written.Item.isNull_of_plainChars hi hplain, Written.Item.boolean?_of_plainChars hi hplain,
        Written.Item.isNumeric_of_plainChars hi hplain,
        Written.Item.number?_of_plainChars hi hplain]
      rfl
    | string => cases hfits
    | boolean => cases hfits
  | text s =>
    have hquoted := Written.Item.isQuoted_of_quoted hi
    have hunquoted : i.unquoted = s := by
      rw [Written.Item.unquoted_of_quoted hi, String.ofList_toList]
    cases type with
    | string =>
      rw [listItem, Written.Item.isNull, hquoted, hunquoted]
      rfl
    | number => rw [listItem, numberListItem, if_pos hquoted, hunquoted]
    | boolean => cases hfits

end ColumnType

/-! ### What a literal stands for -/

/-- The literal stands for the value, in one of the ways that some column knows. -/
inductive Spelling.Item.Denotes : Spelling.Item → Scalar → Prop where
  | null {i : Item} : Text.asciiLower i.chars = "null".toList → Denotes i .null
  | boolean {i : Item} {b : Bool} :
      Text.asciiLower i.chars = (Scalar.boolean b).chars → Denotes i (.boolean b)
  | number {i : Item} {l : Literal} {x : Number} :
      Literal.read? Char.isDigit i.chars = some l → x = l.value → Denotes i (.number x)
  | quoted {quote : Char} {inside : List Char} {isQuote : isQuote quote = true}
      {apart : quote ∉ inside} :
      Denotes (.quoted quote inside isQuote apart) (.text (String.ofList inside))
  | whole {i : Item} : Denotes i (.text (String.ofList i.chars))

/-- The words for numbers begin with one of two letters. -/
theorem Number.exists_letter_of_readWord? {cs : List Char} {x : Number}
    (h : readWord? cs = some x) :
    ∃ c rest, (Sign.read cs).2 = c :: rest ∧ (c.toLower = 'i' ∨ c.toLower = 'n') := by
  have hhead : ∀ {word : List Char} {s : String} {c : Char}, s.toList.head? = some c →
      String.ofList (word.map Char.toLower) = s → ∃ d rest, word = d :: rest ∧ d.toLower = c := by
    rintro word s c hc rfl
    rw [String.toList_ofList] at hc
    cases word with
    | nil => cases hc
    | cons d rest => exact ⟨d, rest, rfl, Option.some.inj hc⟩
  simp only [readWord?, Bool.or_eq_true, beq_iff_eq] at h
  split at h
  next hinf =>
    have hi : ∃ d rest, (Sign.read cs).2 = d :: rest ∧ d.toLower = 'i' := by
      rcases hinf with hinf | hinf
      · exact hhead (by decide) hinf
      · exact hhead (by decide) hinf
    obtain ⟨d, rest, hd, hlower⟩ := hi
    exact ⟨d, rest, hd, .inl hlower⟩
  next =>
    rw [Option.ite_none_right_eq_some] at h
    obtain ⟨d, rest, hd, hlower⟩ := hhead (c := 'n') (by decide) h.1
    exact ⟨d, rest, hd, .inr hlower⟩

namespace Literal

/-- Behind its sign a literal begins with a digit or a point. -/
theorem read?_eq_none {isDigit : Char → Bool} {cs rest : List Char} {c : Char}
    (hcs : (Sign.read cs).2 = c :: rest) (hdigit : isDigit c = false) (hpoint : c ≠ '.') :
    read? isDigit cs = none := by
  have htake : (c :: rest).takeWhile isDigit = [] := List.takeWhile_cons_of_neg (by simp [hdigit])
  have hdrop : (c :: rest).dropWhile isDigit = c :: rest :=
    List.dropWhile_cons_of_neg (by simp [hdigit])
  have hfraction : readFraction isDigit (c :: rest) = (none, c :: rest) := by
    rw [readFraction]
    rintro _ ⟨rfl, -⟩
    exact hpoint rfl
  rw [read?]
  simp only [hcs, htake, hdrop, hfraction]
  rfl

/-- What has the shape of a number and is a number is no word for one. -/
theorem exists_read?_of_number? {cs : List Char} {x : Number}
    (h : (read? Text.isDecimalDigit cs).isSome = true) (hx : Number.read? cs = some x) :
    ∃ l, read? Char.isDigit cs = some l ∧ x = l.value := by
  cases hl : read? Char.isDigit cs with
  | some l =>
    rw [Number.read?, hl] at hx
    exact ⟨l, rfl, (Option.some.inj hx).symm⟩
  | none =>
    rw [Number.read?, hl] at hx
    obtain ⟨c, rest, hcs, hc⟩ := Number.exists_letter_of_readWord? hx
    have hletter : c = 'i' ∨ c = 'I' ∨ c = 'n' ∨ c = 'N' := by
      simp only [← Char.toNat_inj, toNat_toLower] at hc ⊢
      change _ = 105 ∨ _ = 110 at hc
      show _ = 105 ∨ _ = 73 ∨ _ = 110 ∨ _ = 78
      grind
    have hnone : read? Text.isDecimalDigit cs = none := by
      obtain rfl | rfl | rfl | rfl := hletter <;> exact read?_eq_none hcs (by decide) (by decide)
    rw [hnone] at h
    cases h

end Literal

namespace ColumnType

open Spelling

variable {i : Item} {start : Nat}

theorem asciiLower_of_isNull (h : (i.written start).isNull = true) :
    Text.asciiLower i.chars = "null".toList := by
  rw [Written.Item.isNull, Bool.and_eq_true, i.chars_written, Text.sameIgnoringAsciiCase,
    beq_iff_eq] at h
  exact h.2

theorem asciiLower_of_isPlainNull (h : (i.written start).isPlainNull = true) :
    Text.asciiLower i.chars = "null".toList := by
  rw [Written.Item.isPlainNull, beq_iff_eq] at h
  have hchars : i.chars = "null".toList := by
    rw [← i.chars_written start, Written.Item.chars, h]
  rw [hchars]
  rfl

theorem asciiLower_of_boolean? {b : Bool} (h : (i.written start).boolean? = some b) :
    Text.asciiLower i.chars = (Scalar.boolean b).chars := by
  simp only [Written.Item.boolean?, i.chars_written, Text.sameIgnoringAsciiCase, beq_iff_eq] at h
  split at h
  next htrue =>
    obtain rfl := Option.some.inj h
    exact htrue
  next =>
    rw [Option.ite_none_right_eq_some] at h
    obtain rfl := Option.some.inj h.2
    exact h.1

theorem denotes_of_isNumeric {x : Number} (h : (i.written start).isNumeric = true)
    (hx : (i.written start).number? = some x) : i.Denotes (.number x) := by
  rw [Written.Item.isNumeric, i.chars_written] at h
  rw [Written.Item.number?, i.chars_written] at hx
  obtain ⟨l, hl, hvalue⟩ := Literal.exists_read?_of_number? h hx
  exact .number hl hvalue

/-- A literal stands for its own characters, or for those between its quotes. -/
theorem denotes_unquoted (i : Item) (start : Nat) :
    i.Denotes (.text (i.written start).unquoted) := by
  have hchars := i.chars_written start
  cases i with
  | quoted quote inside isQuote apart =>
    rw [Written.Item.unquoted_of_quote hchars isQuote]
    exact .quoted
  | bare word nonempty isBare unquoted =>
    rw [Written.Item.unquoted_of_bare hchars unquoted]
    exact .whole

theorem denotes_text (i : Item) (start : Nat) : i.Denotes (.text (i.written start).lexeme.text) :=
  .whole

/-- **A single value is what its literal stands for.** -/
theorem denotes_of_scalar? {type : ColumnType} {x : Scalar}
    (h : type.accepts (i.written start) = true) (hx : type.scalar? (i.written start) = some x) :
    i.Denotes x := by
  cases type with
  | string =>
    rw [scalar?] at hx
    split at hx
    · obtain rfl := Option.some.inj hx
      exact denotes_unquoted i start
    · rw [Option.ite_none_right_eq_some] at hx
      obtain rfl := Option.some.inj hx.2
      exact .null (asciiLower_of_isPlainNull hx.1)
  | number =>
    rw [scalar?] at hx
    split at hx
    next hnull =>
      obtain rfl := Option.some.inj hx
      exact .null (asciiLower_of_isPlainNull hnull)
    next hnull =>
      rw [accepts, Bool.or_eq_true, or_iff_right hnull] at h
      obtain ⟨y, hy, rfl⟩ := Option.map_eq_some_iff.1 hx
      exact denotes_of_isNumeric h hy
  | boolean =>
    rw [scalar?] at hx
    split at hx
    next hnull =>
      obtain rfl := Option.some.inj hx
      exact .null (asciiLower_of_isNull hnull)
    next =>
      obtain ⟨b, hb, rfl⟩ := Option.map_eq_some_iff.1 hx
      exact .boolean (asciiLower_of_boolean? hb)

/-- **An element of a list is what its literal stands for.** -/
theorem denotes_listItem (type : ColumnType) (i : Item) (start : Nat) :
    i.Denotes (type.listItem (i.written start)) := by
  cases type with
  | string =>
    rw [listItem]
    split
    next hnull => exact .null (asciiLower_of_isNull hnull)
    next => exact denotes_unquoted i start
  | number =>
    rw [listItem, numberListItem]
    split
    · exact denotes_unquoted i start
    split
    next hnull => exact .null (asciiLower_of_isNull hnull)
    next =>
      split
      next b hb => exact .boolean (asciiLower_of_boolean? hb)
      next =>
        split
        next x hx =>
          rw [Option.ite_none_right_eq_some] at hx
          exact denotes_of_isNumeric hx.1 hx.2
        next => exact denotes_text i start
  | boolean =>
    rw [listItem, scalar?]
    split
    next hnull => exact .null (asciiLower_of_isNull hnull)
    next =>
      cases hb : (i.written start).boolean? with
      | none => exact denotes_unquoted i start
      | some b => exact .boolean (asciiLower_of_boolean? hb)

/-- What a literal stands for equals itself: no literal stands for what is no number. -/
theorem sameValue_self_of_denotes {x : Scalar} (h : i.Denotes x) : x.sameValue x = true := by
  cases h with
  | @number _ l x _ hx =>
    have hself : l.value.sameValue l.value = true := by
      rw [Literal.value, Decimal.toNumber, Number.sameValue_ofMagnitude_self]
    rw [Scalar.sameValue, hx, hself]
  | _ => exact beq_self_eq_true _

/-- A single value is one that the column may hold. -/
theorem fits_of_scalar? {type : ColumnType} {j : Written.Item} {x : Scalar}
    (h : type.scalar? j = some x) : x.fits type = true := by
  cases type with
  | string =>
    rw [scalar?] at h
    split at h
    · obtain rfl := Option.some.inj h
      rfl
    · rw [Option.ite_none_right_eq_some] at h
      obtain rfl := Option.some.inj h.2
      rfl
  | number =>
    rw [scalar?] at h
    split at h
    · obtain rfl := Option.some.inj h
      rfl
    · obtain ⟨y, -, rfl⟩ := Option.map_eq_some_iff.1 h
      rfl
  | boolean =>
    rw [scalar?] at h
    split at h
    · obtain rfl := Option.some.inj h
      rfl
    · obtain ⟨b, -, rfl⟩ := Option.map_eq_some_iff.1 h
      rfl

/-- An element of a list is one that a list on the column may have. -/
theorem fitsList_listItem {type : ColumnType} {op : Operator} (h : type.allowsList op = true)
    (j : Written.Item) : (type.listItem j).fitsList type = true := by
  cases type with
  | string =>
    rw [listItem]
    split <;> rfl
  | number =>
    cases listItem number j <;> rfl
  | boolean => cases op <;> exact absurd h (by decide)

end ColumnType

end ColumnFilter
