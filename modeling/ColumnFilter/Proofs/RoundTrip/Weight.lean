import ColumnFilter.Proofs.RoundTrip.Rendering

/-!
# Weighing texts

A text can be weighed by its quotes, by its letters `n`, and by the characters
beyond ASCII.  Neither the case of ASCII letters nor blanks have any weight.
The measure is made for comparing canonical text with another spelling of the
same filter: no literal weighs more than the canonical one of its value, and a
literal that weighs as much as the canonical one shows that the value is plain.
An infinity, or what is no number, is written with an `n`, which no numeric
literal has; a text is written with two quotes around it, which a literal of the
same text either has as well, so that the text lacks one kind, or lacks itself.
-/

namespace ColumnFilter

/-- The weight of a character. -/
def Text.charWeight (c : Char) : Nat :=
  if 0x80 ≤ c.toNat then 2
  else if c ∈ ['"', '\'', 'n', 'N'] then 1
  else 0

/-- The weight of a text. -/
def Text.weight : List Char → Nat
  | [] => 0
  | c :: cs => charWeight c + weight cs

namespace Text

@[simp] theorem weight_nil : weight [] = 0 := rfl

@[simp] theorem weight_cons (c : Char) (cs : List Char) :
    weight (c :: cs) = charWeight c + weight cs := rfl

@[simp] theorem weight_append (cs ds : List Char) : weight (cs ++ ds) = weight cs + weight ds := by
  induction cs with
  | nil => rw [List.nil_append, weight_nil, Nat.zero_add]
  | cons c cs ih => rw [List.cons_append, weight_cons, ih, weight_cons, Nat.add_assoc]

theorem weight_eq_zero {cs : List Char} (h : ∀ c ∈ cs, charWeight c = 0) : weight cs = 0 := by
  induction cs with
  | nil => rfl
  | cons c cs ih =>
    rw [weight_cons, h c (List.mem_cons_self ..), ih fun d hd => h d (List.mem_cons_of_mem c hd)]

/-- A blank has no weight. -/
theorem weight_gap (g : Spelling.Gap) : weight g.chars = 0 := by
  refine weight_eq_zero fun c hc => ?_
  obtain rfl | rfl | rfl | rfl := isBlank_iff.1 (g.blank c hc) <;> decide

/-- `cs` is lighter than `ds` unless `P` holds; then it may weigh as much. -/
structure LighterUnless (P : Prop) (cs ds : List Char) : Prop where
  le : weight cs ≤ weight ds
  of_le : weight ds ≤ weight cs → P

namespace LighterUnless

variable {P Q : Prop} {cs cs' ds ds' : List Char}

theorem of_eq (hp : P) (h : weight cs = weight ds) : LighterUnless P cs ds :=
  ⟨Nat.le_of_eq h, fun _ => hp⟩

theorem mono (hpq : P → Q) (h : LighterUnless P cs ds) : LighterUnless Q cs ds :=
  ⟨h.le, fun hle => hpq (h.of_le hle)⟩

/-- Texts are compared part by part. -/
theorem append (h : LighterUnless P cs ds) (h' : LighterUnless Q cs' ds') :
    LighterUnless (P ∧ Q) (cs ++ cs') (ds ++ ds') := by
  have hle := h.le
  have hle' := h'.le
  refine ⟨?_, fun hge => ?_⟩
  · rw [weight_append, weight_append]
    omega
  · rw [weight_append, weight_append] at hge
    exact ⟨h.of_le (by omega), h'.of_le (by omega)⟩

/-- Rows of texts are compared one by one. -/
theorem flatMap {α β : Type} {f : α → List Char} {g : β → List Char} {P : β → Prop}
    {as : List α} {bs : List β}
    (h : List.Forall₂ (fun a b => LighterUnless (P b) (f a) (g b)) as bs) :
    LighterUnless (∀ b ∈ bs, P b) (as.flatMap f) (bs.flatMap g) := by
  induction h with
  | nil => exact of_eq (fun _ hb => (List.not_mem_nil hb).elim) rfl
  | cons hab _ ih =>
    rw [List.flatMap_cons, List.flatMap_cons]
    exact (hab.append ih).mono List.forall_mem_cons.2

end LighterUnless

/-- A quote has a weight. -/
theorem charWeight_of_isQuote {c : Char} (h : Spelling.isQuote c = true) : charWeight c = 1 := by
  rw [isQuote_iff] at h
  obtain rfl | rfl := h <;> decide

/-! ### Case -/

theorem charWeight_eq (c : Char) : charWeight c =
    if 0x80 ≤ c.toNat then 2
    else if c.toNat = 34 ∨ c.toNat = 39 ∨ c.toNat = 110 ∨ c.toNat = 78 then 1 else 0 := by
  have hinj : ∀ d : Char, c = d ↔ c.toNat = d.toNat := fun d => Char.toNat_inj.symm
  rw [charWeight]
  simp only [List.mem_cons, List.not_mem_nil, or_false, hinj]
  rfl

theorem charWeight_toLower (c : Char) : charWeight c.toLower = charWeight c := by
  rw [charWeight_eq, charWeight_eq, toNat_toLower]
  grind

/-- The case of ASCII letters has no weight. -/
theorem weight_asciiLower (cs : List Char) : weight (asciiLower cs) = weight cs := by
  induction cs with
  | nil => rfl
  | cons c cs ih => exact congrArg₂ (· + ·) (charWeight_toLower c) ih

theorem charWeight_le_two (c : Char) : charWeight c ≤ 2 := by
  rw [charWeight_eq]
  grind

theorem charWeight_le_one {c : Char} (h : c.toNat < 0x80) : charWeight c ≤ 1 := by
  rw [charWeight_eq]
  grind

theorem charWeight_of_le {c : Char} (h : 0x80 ≤ c.toNat) : charWeight c = 2 :=
  if_pos h

/-- The lower-case form of a character between others. -/
def lowerForm (reversedBefore : List Char) (c : Char) (after : List Char) : List Char :=
  if c = capitalSigma then [sigmaForm reversedBefore after] else lowerChar c

theorem lowerForm_cases (before : List Char) (c : Char) (after : List Char) :
    c.toNat < 0x80 ∧ lowerForm before c after = [c.toLower] ∨
      0x80 ≤ c.toNat ∧ ((∃ d, lowerForm before c after = [d]) ∨
        lowerForm before c after = ['i', '\u0307']) := by
  by_cases hc : c.toNat < 0x80
  · have hsigma : c ≠ capitalSigma := by
      rintro rfl
      exact absurd hc (by decide)
    exact .inl ⟨hc, by rw [lowerForm, if_neg hsigma, lowerChar_of_ascii hc]⟩
  · refine .inr ⟨Nat.not_lt.1 hc, ?_⟩
    rw [lowerForm]
    split
    · exact .inl ⟨_, rfl⟩
    rw [lowerChar, if_neg hc]
    split
    · exact .inr rfl
    split
    · exact .inl ⟨_, rfl⟩
    · exact .inl ⟨_, rfl⟩

theorem weight_lowerForm_le (before : List Char) (c : Char) (after : List Char) :
    weight (lowerForm before c after) ≤ charWeight c := by
  rcases lowerForm_cases before c after with ⟨-, h⟩ | ⟨hc, ⟨d, h⟩ | h⟩
  · rw [h, weight_cons, charWeight_toLower]
    exact Nat.le_refl _
  · rw [h, charWeight_of_le hc]
    exact charWeight_le_two d
  · rw [h, charWeight_of_le hc]
    decide

/-- A character beyond ASCII weighs more than its lower-case form, if that is ASCII. -/
theorem weight_lowerForm_lt {before : List Char} {c : Char} {after : List Char}
    (hc : 0x80 ≤ c.toNat) (h : ∀ d ∈ lowerForm before c after, d.toNat < 0x80) :
    weight (lowerForm before c after) < charWeight c := by
  rcases lowerForm_cases before c after with ⟨hlt, -⟩ | ⟨-, ⟨d, hd⟩ | hd⟩
  · exact absurd hlt (Nat.not_lt.2 hc)
  · rw [hd] at h ⊢
    rw [charWeight_of_le hc, weight_cons, weight_nil]
    have := charWeight_le_one (h d (List.mem_singleton_self d))
    omega
  · rw [hd] at h
    exact absurd (h '\u0307' (by simp)) (by decide)

theorem lowerFrom_cons (before : List Char) (c : Char) (cs : List Char) :
    lowerFrom before (c :: cs) = lowerForm before c cs ++ lowerFrom (c :: before) cs := rfl

/-- **An ASCII lower-case form weighs no more than the text**, and less than a text with
other characters. -/
theorem weight_lowerFrom_le {cs : List Char} :
    ∀ {before : List Char}, (∀ d ∈ lowerFrom before cs, d.toNat < 0x80) →
      weight (lowerFrom before cs) ≤ weight cs ∧
        (weight cs ≤ weight (lowerFrom before cs) → ∀ c ∈ cs, c.toNat < 0x80) := by
  induction cs with
  | nil =>
    intro before _
    exact ⟨Nat.le_refl _, fun _ _ hc => (List.not_mem_nil hc).elim⟩
  | cons c cs ih =>
    intro before h
    rw [lowerFrom_cons] at h ⊢
    obtain ⟨hle, hascii⟩ := ih fun d hd => h d (List.mem_append_right _ hd)
    have hform := weight_lowerForm_le before c cs
    rw [weight_append, weight_cons]
    refine ⟨by omega, fun hge => ?_⟩
    have hc : c.toNat < 0x80 := by
      refine Nat.lt_of_not_le fun hc => ?_
      have := weight_lowerForm_lt hc fun d hd => h d (List.mem_append_left _ hd)
      omega
    intro d hd
    rcases List.mem_cons.1 hd with rfl | hd
    · exact hc
    · exact hascii (by omega) d hd

theorem lowerFrom_of_ascii {cs : List Char} (h : ∀ c ∈ cs, c.toNat < 0x80) :
    ∀ before, lowerFrom before cs = asciiLower cs := by
  induction cs with
  | nil => intro before; rfl
  | cons c cs ih =>
    intro before
    have hc := h c (List.mem_cons_self ..)
    have hform : lowerForm before c cs = [c.toLower] := by
      rcases lowerForm_cases before c cs with ⟨-, hform⟩ | ⟨hge, -⟩
      · exact hform
      · exact absurd hc (Nat.not_lt.2 hge)
    rw [lowerFrom_cons, hform, ih fun d hd => h d (List.mem_cons_of_mem c hd)]
    rfl

end Text

/-! ### Literals -/

namespace Literal

variable {isDigit : Char → Bool} {cs : List Char} {l : Literal}

theorem mem_of_readSign {c : Char} (h : c ∈ cs) : c = '+' ∨ c = '-' ∨ c ∈ (Sign.read cs).2 := by
  rw [Sign.read.eq_def]
  split
  · rcases List.mem_cons.1 h with rfl | h
    · exact .inl rfl
    · exact .inr (.inr h)
  · rcases List.mem_cons.1 h with rfl | h
    · exact .inr (.inl rfl)
    · exact .inr (.inr h)
  · exact .inr (.inr h)

theorem mem_of_readFraction {c : Char} (h : c ∈ cs) :
    c = '.' ∨ isDigit c = true ∨ c ∈ (readFraction isDigit cs).2 := by
  rw [readFraction.eq_def]
  split
  next rest =>
    rcases List.mem_cons.1 h with rfl | h
    · exact .inl rfl
    rw [← List.takeWhile_append_dropWhile (p := isDigit) (l := rest)] at h
    rcases List.mem_append.1 h with h | h
    · exact .inr (.inl (List.mem_takeWhile_imp h))
    · exact .inr (.inr h)
  next => exact .inr (.inr h)

theorem mem_of_readExponent {e : Option (Option Sign × List Char)}
    (h : readExponent isDigit cs = some e) {c : Char} (hc : c ∈ cs) :
    isDigit c = true ∨ c ∈ ['+', '-', 'e', 'E'] := by
  cases cs with
  | nil => cases hc
  | cons d cs =>
    simp only [readExponent, Option.ite_none_right_eq_some, Bool.and_eq_true, Bool.or_eq_true,
      beq_iff_eq, List.all_eq_true] at h
    obtain ⟨⟨⟨hd, -⟩, hdigits⟩, -⟩ := h
    rcases List.mem_cons.1 hc with rfl | hc
    · obtain rfl | rfl := hd <;> simp
    rcases mem_of_readSign hc with rfl | rfl | hc
    · simp
    · simp
    · exact .inl (hdigits c hc)

/-- A literal consists of digits, signs, points and the letter of its exponent. -/
theorem mem_of_read? (h : read? isDigit cs = some l) {c : Char} (hc : c ∈ cs) :
    isDigit c = true ∨ c ∈ ['+', '-', '.', 'e', 'E'] := by
  simp only [read?, Option.ite_none_left_eq_some, Option.map_eq_some_iff] at h
  obtain ⟨-, e, he, -⟩ := h
  rcases mem_of_readSign hc with rfl | rfl | hc
  · simp
  · simp
  rw [← List.takeWhile_append_dropWhile (p := isDigit) (l := (Sign.read cs).2)] at hc
  rcases List.mem_append.1 hc with hc | hc
  · exact .inl (List.mem_takeWhile_imp hc)
  rcases mem_of_readFraction hc with rfl | hdigit | hc
  · simp
  · exact .inl hdigit
  rcases mem_of_readExponent he hc with hdigit | hmem
  · exact .inl hdigit
  · simp only [List.mem_cons, List.not_mem_nil, or_false] at hmem ⊢
    obtain rfl | rfl | rfl | rfl := hmem <;> simp

end Literal

theorem Literal.weight_eq_zero {cs : List Char} {l : Literal} (h : read? Char.isDigit cs = some l) :
    Text.weight cs = 0 := by
  refine Text.weight_eq_zero fun c hc => ?_
  rcases mem_of_read? h hc with hdigit | hmem
  · have hrange := isDigit_iff.1 hdigit
    rw [Text.charWeight_eq]
    grind
  · simp only [List.mem_cons, List.not_mem_nil, or_false] at hmem
    obtain rfl | rfl | rfl | rfl | rfl := hmem <;> decide

/-- An infinity, or no number, has an `n` in its name. -/
theorem Number.isFinite_of_weight {x : Number} (h : Text.weight x.plainChars = 0) :
    x.isFinite = true := by
  cases x with
  | finite => rfl
  | infinite negative => cases negative <;> exact absurd h (by decide)
  | notANumber => exact absurd h (by decide)

theorem weight_quoted (cs : List Char) : Text.weight (quoted cs) = Text.weight cs + 2 := by
  rw [quoted, Text.weight_cons, Text.weight_append, Text.weight_cons, Text.weight_nil,
    Text.charWeight_of_isQuote (isQuote_quoteFor cs)]
  omega

open Text

/-- **No literal weighs more than the canonical one of its value**, and if it weighs as much,
the value is plain. -/
theorem lighterUnless_of_denotes {i : Spelling.Item} {x y : Scalar} (h : i.Denotes y)
    (hsame : y.sameValue x = true) :
    LighterUnless (x.isPlain = true) i.chars x.chars := by
  cases h with
  | null hi =>
    obtain rfl : Scalar.null = x := eq_of_beq hsame
    exact .of_eq rfl (by rw [← weight_asciiLower, hi, Scalar.chars])
  | @boolean _ b hi =>
    obtain rfl : Scalar.boolean b = x := eq_of_beq hsame
    exact .of_eq rfl (by rw [← weight_asciiLower, hi])
  | number hl _ =>
    have hzero := Literal.weight_eq_zero hl
    refine ⟨by omega, fun hle => ?_⟩
    rw [hzero] at hle
    cases x with
    | number x => exact Number.isFinite_of_weight (Nat.le_zero.1 hle)
    | _ => cases hsame
  | @quoted quote inside isQuote apart =>
    obtain rfl : Scalar.text (String.ofList inside) = x := eq_of_beq hsame
    have hquote := charWeight_of_isQuote isQuote
    have hplain : (Scalar.text (String.ofList inside)).isPlain = true := by
      rw [isPlain_text_iff, String.toList_ofList]
      rintro ⟨hdouble, hsingle⟩
      rw [isQuote_iff] at isQuote
      obtain rfl | rfl := isQuote
      · exact apart hdouble
      · exact apart hsingle
    refine .of_eq hplain ?_
    rw [Scalar.chars, String.toList_ofList, weight_quoted, Spelling.Item.chars, weight_cons,
      weight_append, weight_cons, weight_nil, hquote]
    omega
  | whole =>
    obtain rfl : Scalar.text (String.ofList i.chars) = x := eq_of_beq hsame
    have hquoted : weight (Scalar.text (String.ofList i.chars)).chars = weight i.chars + 2 := by
      rw [Scalar.chars, String.toList_ofList, weight_quoted]
    exact ⟨by omega, fun hle => absurd hle (by omega)⟩

/-! ### Columns and comparators -/

theorem toNat_lt_of_isWordChar {c : Char} (h : isWordChar c = true) : c.toNat < 0x80 := by
  have := isWordChar_iff.1 h
  omega

theorem isWordChar_toLower (c : Char) : isWordChar c.toLower = isWordChar c := by
  rw [Bool.eq_iff_iff, isWordChar_iff, isWordChar_iff, toNat_toLower]
  grind

theorem isWordChar_of_mem_asciiLower {word : List Char} (h : ∀ c ∈ word, isWordChar c = true) :
    ∀ d ∈ asciiLower word, isWordChar d = true := by
  intro d hd
  obtain ⟨c, hc, rfl⟩ := List.mem_map.1 hd
  rw [isWordChar_toLower]
  exact h c hc

/-- A name that is found by a word has the lower-case form of the word. -/
theorem lowerFrom_of_sameIgnoringCase {name word : String} (hword : isWord word = true)
    (h : sameIgnoringCase name word = true) :
    lowerFrom [] name.toList = asciiLower word.toList ∧
      ∀ d ∈ asciiLower word.toList, isWordChar d = true := by
  rw [isWord, Bool.and_eq_true, List.all_eq_true] at hword
  refine ⟨?_, isWordChar_of_mem_asciiLower hword.2⟩
  have heq : lower name = lower word := eq_of_beq h
  rw [← lowerFrom_of_ascii (fun c hc => toNat_lt_of_isWordChar (hword.2 c hc)) []]
  exact String.ofList_injective heq

/-- A declared name is no lighter than a word that it is found by, and is a word itself if
it is no heavier. -/
theorem lighterUnless_column {name word : String} (hword : isWord word = true)
    (h : sameIgnoringCase name word = true) :
    LighterUnless (isWord name = true) word.toList name.toList := by
  obtain ⟨hlower, hchars⟩ := lowerFrom_of_sameIgnoringCase hword h
  have hascii : ∀ d ∈ lowerFrom [] name.toList, d.toNat < 0x80 := by
    rw [hlower]
    exact fun d hd => toNat_lt_of_isWordChar (hchars d hd)
  obtain ⟨hle, hof⟩ := weight_lowerFrom_le hascii
  rw [hlower, weight_asciiLower] at hle hof
  refine ⟨hle, fun hge => ?_⟩
  have hsame : asciiLower name.toList = asciiLower word.toList := by
    rw [← lowerFrom_of_ascii (hof hge) [], hlower]
  rw [isWord, Bool.and_eq_true, List.all_eq_true] at hword ⊢
  constructor
  · have hlength := congrArg List.length hsame
    have hne := hword.1
    rw [length_asciiLower, length_asciiLower] at hlength
    rw [Bool.not_eq_true', List.isEmpty_eq_false_iff] at hne ⊢
    rwa [← List.length_pos_iff, hlength, List.length_pos_iff]
  · intro c hc
    have hmem : c.toLower ∈ asciiLower word.toList := hsame ▸ List.mem_map_of_mem hc
    rw [← isWordChar_toLower]
    exact hchars _ hmem

/-- A keyword weighs as much in any spelling. -/
theorem weight_comparator (c : Spelling.Comparison) :
    weight c.comparator = weight c.operator.symbol.toList := by
  cases c with
  | single op gap item takesOne whole => rfl
  | list keyword gap list =>
    cases keyword with
    | oneOf word isIn => exact (weight_asciiLower word).symm.trans (congrArg weight isIn)
    | noneOf negation gap word isNot apart isIn =>
      show weight (negation ++ (gap.chars ++ word)) = _
      rw [weight_append, weight_append, weight_gap, ← weight_asciiLower negation,
        ← weight_asciiLower word, isNot, isIn]
      have hkeyword : weight "not".toList + (0 + weight "in".toList) = weight "not in".toList := by
        decide
      exact hkeyword

/-! ### Values and conditions -/

/-- The further elements of a list, with their commas. -/
theorem forall₂_nextItems {type : ColumnType} {xs : List Scalar} :
    ∀ {others : List Spelling.NextItem} {start : Nat},
      List.Forall₂ (fun y x => y.sameValue x = true)
        ((Spelling.layOut Spelling.NextItem.chars
          (fun start n => n.item.written (n.itemStart start)) start others).map type.listItem) xs →
      List.Forall₂ (fun n x => LighterUnless (x.isPlain = true) n.chars ([',', ' '] ++ x.chars))
        others xs := by
  intro others
  induction others generalizing xs with
  | nil =>
    intro start h
    cases h
    exact .nil
  | cons n others ih =>
    intro start h
    rw [Spelling.layOut, List.map_cons] at h
    cases h with
    | cons hx hxs =>
      refine .cons ?_ (ih hxs)
      have hcomma : LighterUnless True (n.before.chars ++ ([','] ++ n.after.chars)) [',', ' '] := by
        refine .of_eq trivial ?_
        rw [weight_append, weight_append, weight_gap, weight_gap]
        rfl
      have hitem := lighterUnless_of_denotes (ColumnType.denotes_listItem type n.item _) hx
      have hchars : n.chars = n.before.chars ++ ([','] ++ n.after.chars) ++ n.item.chars := by
        simp only [Spelling.NextItem.chars, List.append_assoc]
      rw [hchars]
      exact (hcomma.append hitem).mono And.right

theorem lighterUnless_itemList {l : Spelling.ItemList} {start : Nat} {type : ColumnType}
    {xs : List Scalar}
    (h : List.Forall₂ (fun y x => y.sameValue x = true)
      ((l.putItems Spelling.Item.written start).map type.listItem) xs) :
    LighterUnless (∀ x ∈ xs, x.isPlain = true) l.chars (Value.list xs).chars := by
  rw [Spelling.ItemList.putItems, List.map_cons] at h
  cases h with
  | @cons _ x _ xs hx hxs =>
    have hopen : LighterUnless True (['('] ++ l.opening.chars) ['('] := by
      refine .of_eq trivial ?_
      rw [weight_append, weight_gap, Nat.add_zero]
    have hclose : LighterUnless True (l.closing.chars ++ [')']) [')'] := by
      refine .of_eq trivial ?_
      rw [weight_append, weight_gap, Nat.zero_add]
    have hfirst := lighterUnless_of_denotes (ColumnType.denotes_listItem type l.first _) hx
    have hothers := LighterUnless.flatMap (forall₂_nextItems hxs)
    have hchars : l.chars = ['('] ++ l.opening.chars ++ (l.first.chars ++
        (l.others.flatMap Spelling.NextItem.chars ++ (l.closing.chars ++ [')']))) := by
      simp only [Spelling.ItemList.chars, List.append_assoc]
    have hvalue : (Value.list (x :: xs)).chars = ['('] ++ (x.chars ++
        (xs.flatMap (fun y => [',', ' '] ++ y.chars) ++ [')'])) := by
      rw [Value.chars, intercalate_map_chars, List.append_assoc]
      rfl
    rw [hchars, hvalue]
    refine (hopen.append (hfirst.append (hothers.append hclose))).mono ?_
    rintro ⟨-, hx, hxs, -⟩
    exact List.forall_mem_cons.2 ⟨hx, hxs⟩

theorem Value.sameValue_list_iff {ys xs : List Scalar} :
    (Value.list ys).sameValue (.list xs) = true ↔
      List.Forall₂ (fun y x => y.sameValue x = true) ys xs := by
  rw [Value.sameValue, Bool.and_eq_true, beq_iff_eq, List.all_eq_true, List.forall₂_iff_zip]
  exact and_congr_right fun _ => ⟨fun h _ _ hmem => h _ hmem, fun h p hp => h hp⟩

theorem lighterUnless_value {name : String} {type : ColumnType} {w : Spelling.Condition}
    {start : Nat} {v u : Value} (hread : Schema.readValue name type (w.written start) = .ok v)
    (hsame : v.sameValue u = true) :
    LighterUnless (∀ x ∈ u.items, x.isPlain = true) w.comparison.valueChars u.chars := by
  rcases Schema.readValue_written hread with
    ⟨i, place, y, hchars, -, haccepts, hy, rfl⟩ | ⟨l, place, hchars, -, rfl⟩
  · rw [hchars]
    cases u with
    | single x =>
      have hx := lighterUnless_of_denotes (ColumnType.denotes_of_scalar? haccepts hy) hsame
      exact hx.mono List.forall_mem_singleton.2
    | list xs => cases hsame
  · rw [hchars]
    cases u with
    | single x => cases hsame
    | list xs => exact lighterUnless_itemList (Value.sameValue_list_iff.1 hsame)

/-- A column is found under its declared name, too. -/
theorem Schema.sameIgnoringCase_of_resolve {s : Schema} {name column : String}
    (h : s.resolve column = some name) : sameIgnoringCase name column = true :=
  List.find?_some (p := fun n => sameIgnoringCase n column) h

theorem Spelling.Condition.isWord_column (c : Spelling.Condition) :
    isWord (String.ofList c.column) = true := by
  rw [isWord, String.toList_ofList, Bool.and_eq_true, List.all_eq_true]
  exact ⟨by simpa using c.column_ne_nil, c.column_isWord⟩

/-- **A condition weighs no more than the canonical text of what it is read as**, and if it
weighs as much, that is plain and its column is a word. -/
theorem lighterUnless_condition {s : Schema} {w : Spelling.Condition} {start : Nat}
    {d c : Condition} (hread : s.readCondition (w.written start) = .ok d)
    (hsame : d.sameValue c = true) :
    LighterUnless (isWord c.column = true ∧ c.isPlain = true) w.chars c.chars := by
  obtain ⟨hresolve, hop, type, -, hvalue⟩ := Schema.readCondition_eq_ok.1 hread
  rw [Condition.sameValue, Bool.and_eq_true, Bool.and_eq_true, beq_iff_eq, beq_iff_eq] at hsame
  obtain ⟨⟨hcolumn, hoperator⟩, hsame⟩ := hsame
  rw [w.operator_written] at hop
  have hfound : sameIgnoringCase c.column (String.ofList w.column) = true := by
    rw [← hcolumn]
    exact Schema.sameIgnoringCase_of_resolve hresolve
  have hname := lighterUnless_column w.isWord_column hfound
  rw [String.toList_ofList] at hname
  have hgap : ∀ g : Spelling.Gap, LighterUnless True g.chars [' '] :=
    fun g => .of_eq trivial (weight_gap g)
  have hcomparator : LighterUnless True w.comparison.comparator c.operator.symbol.toList :=
    .of_eq trivial (by rw [weight_comparator, ← hoperator, hop])
  have hparts := hname.append ((hgap w.gap).append (hcomparator.append
    ((hgap w.comparison.gap).append (lighterUnless_value hvalue hsame))))
  refine hparts.mono ?_
  rintro ⟨hname, -, -, -, hitems⟩
  exact ⟨hname, List.all_eq_true.2 hitems⟩

/-! ### Filters -/

/-- The conditions of a filter, compared from the first to the last. -/
theorem lighterUnless_joined {s : Schema} {others : List Spelling.NextCondition} :
    ∀ {start : Nat} {ds cs : List Condition} {w : List Char} {c : Condition},
      LighterUnless (isWord c.column = true ∧ c.isPlain = true) w c.chars →
      List.Forall₂ (fun w c => s.readCondition w = .ok c)
        (Spelling.layOut Spelling.NextCondition.chars
          (fun start n => n.condition.written (n.conditionStart start)) start others) ds →
      List.Forall₂ (fun d c => d.sameValue c = true) ds cs →
      LighterUnless (∀ d ∈ c :: cs, isWord d.column = true ∧ d.isPlain = true)
        (w ++ others.flatMap Spelling.NextCondition.chars)
        (Filter.joined (c :: cs) (others.map (·.connector))) := by
  induction others with
  | nil =>
    intro start ds cs w c hfirst hread hsame
    cases hread
    cases hsame
    rw [List.flatMap_nil, List.append_nil]
    exact hfirst.mono List.forall_mem_singleton.2
  | cons n others ih =>
    intro start ds cs w c hfirst hread hsame
    rw [Spelling.layOut] at hread
    cases hread with
    | @cons _ d _ ds hd hds =>
      cases hsame with
      | @cons _ e _ es he hes =>
        have hnext := ih (lighterUnless_condition hd he) hds hes
        have hconnector : LighterUnless True (n.before.chars ++ (n.keyword ++ n.after.chars))
            n.connector.spaced := by
          refine .of_eq trivial ?_
          rw [weight_append, weight_append, weight_gap, weight_gap, ← weight_asciiLower n.keyword,
            n.isKeyword]
          cases n.connector <;> decide
        have hchars : w ++ (n :: others).flatMap Spelling.NextCondition.chars =
            w ++ (n.before.chars ++ (n.keyword ++ n.after.chars) ++ (n.condition.chars ++
              others.flatMap Spelling.NextCondition.chars)) := by
          simp only [List.flatMap_cons, Spelling.NextCondition.chars, List.append_assoc]
        have hjoined : Filter.joined (c :: e :: es) ((n :: others).map (·.connector)) =
            c.chars ++ (n.connector.spaced ++
              Filter.joined (e :: es) (others.map (·.connector))) :=
          List.append_assoc ..
        rw [hchars, hjoined]
        refine (hfirst.append (hconnector.append hnext)).mono ?_
        rintro ⟨hc, -, hcs⟩
        exact List.forall_mem_cons.2 ⟨hc, hcs⟩

theorem Filter.sameValue_iff {f g : Filter} : f.sameValue g = true ↔
    List.Forall₂ (fun d c => d.sameValue c = true) f.conditions g.conditions ∧
      f.connectors = g.connectors := by
  rw [sameValue, Bool.and_eq_true, Bool.and_eq_true, beq_iff_eq, beq_iff_eq, List.all_eq_true,
    List.forall₂_iff_zip]
  exact and_congr_left fun _ => and_congr_right fun _ =>
    ⟨fun h _ _ hmem => h _ hmem, fun h p hp => h hp⟩

/-- **What is read back from canonical text is plain**, and its columns are words. -/
theorem isPlain_of_readTrimmed {s : Schema} {f g : Filter}
    (hread : s.readTrimmed (String.ofList (Filter.joined f.conditions f.connectors)) = .ok g)
    (hsame : g.sameValue f = true) :
    (∀ c ∈ f.conditions, isWord c.column = true) ∧ f.isPlain = true := by
  obtain ⟨w, htext, hconditions, hconnectors⟩ := Schema.readTrimmed_eq_ok.1 hread
  obtain ⟨hsame, hsameConnectors⟩ := Filter.sameValue_iff.1 hsame
  have hchars : w.chars = Filter.joined f.conditions f.connectors := String.ofList_injective htext
  rw [← hsameConnectors, ← hconnectors] at hchars
  rw [Schema.readConditions_eq_ok, Written.Filter.conditions, Spelling.Filter.written,
    Spelling.map_layOut] at hconditions
  obtain ⟨conditions, connectors⟩ := f
  obtain ⟨conditions', connectors'⟩ := g
  dsimp only at hchars hsame hconditions ⊢
  cases hconditions with
  | @cons _ d _ ds hd hds =>
    cases hsame with
    | @cons _ c _ cs hc hcs =>
      have hlighter := lighterUnless_joined (lighterUnless_condition hd hc) hds hcs
      have hweight : weight (Filter.joined (c :: cs) w.connectors) =
          weight (w.first.chars ++ w.others.flatMap Spelling.NextCondition.chars) := by
        rw [← hchars, Spelling.Filter.chars]
        simp only [weight_append, weight_gap]
        omega
      have hplain := hlighter.of_le (Nat.le_of_eq hweight)
      exact ⟨fun e he => (hplain e he).1, List.all_eq_true.2 fun e he => (hplain e he).2⟩

end ColumnFilter
