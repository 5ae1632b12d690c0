import ColumnFilter.Proofs.Reading.Composition
import ColumnFilter.Proofs.Reading.Requirement
import ColumnFilter.Proofs.Reading.Tokens

/-!
# Layout and letter case do not matter

A text may be laid out anew without a change of its meaning: blanks may be put
in and taken out between its tokens, and the case of its words may change, as
long as the tokens are those of the text (`parse_of_sameButLayout`).

Nothing is said of the new text but that it is made up of the tokens, so it has
to be shown that they are still the tokens that are found in it.  What could go
wrong is a symbol that becomes longer by the literal behind it, and white space
at the end of a word that is taken for the end of the text.  The literals that a
column takes do neither (`HasLiteral.stops_lengthens`, `HasLiteral.endsBare`).
-/

namespace ColumnFilter

open Text Spelling Layout

/-! ### Literals that a column takes -/

namespace ColumnType.HasLiteral

variable {type : ColumnType} {cs ds : List Char}

/-- A literal is a text between quotes, or a word without any but the signs of numbers. -/
theorem isQuotedText_or (h : type.HasLiteral cs) : IsQuotedText cs ∨
    cs ≠ [] ∧ ∀ c ∈ cs, isWordChar c = true ∨ c ∈ ['+', '-', '.'] := by
  have hnull : "null".toList ≠ [] ∧
      ∀ c ∈ "null".toList, isWordChar c = true ∨ c ∈ ['+', '-', '.'] :=
    ⟨by decide, fun c hc => .inl (List.all_eq_true.1 (by decide) c hc)⟩
  cases type with
  | string =>
    rcases h with h | rfl
    · exact .inl h
    · exact .inr hnull
  | number =>
    rcases h with rfl | h
    · exact .inr hnull
    · obtain ⟨l, hl⟩ := Option.isSome_iff_exists.1
        ((Literal.isSome_read?_iff Literal.digitsApart_isDigit).2 h)
      refine .inr ⟨?_, fun c hc => ?_⟩
      · rintro rfl
        cases hl
      · rcases Literal.mem_of_read? hl hc with hdigit | hmem
        · exact .inl (by simp [isWordChar, Char.isAlphanum, hdigit])
        · simp only [List.mem_cons, List.not_mem_nil, or_false] at hmem ⊢
          rcases hmem with rfl | rfl | rfl | rfl | rfl <;> decide
  | boolean =>
    have hletters : ∀ word ∈ ["true".toList, "false".toList, "null".toList],
        word ≠ [] ∧ word.all Char.isLower = true := by decide
    obtain ⟨hne, hlower⟩ := hletters _ h
    refine .inr ⟨?_, fun c hc => .inl (isWordChar_of_toLower ?_)⟩
    · rintro rfl
      exact hne rfl
    · exact List.all_eq_true.1 hlower _ (List.mem_map_of_mem hc)

/-- No literal makes a symbol longer. -/
theorem stops_lengthens (h : type.HasLiteral cs) : Stops Grammar.lengthens cs := by
  rcases h.isQuotedText_or with ⟨quote, inside, hquote, -, rfl⟩ | ⟨-, hword⟩
  · rw [Stops.cons_iff]
    rw [isQuote_iff] at hquote
    rcases hquote with rfl | rfl <;> decide
  · intro c hc
    by_contra hlengthens
    simp only [Grammar.lengthens, Bool.not_eq_false, Bool.or_eq_true, beq_iff_eq, or_assoc]
      at hlengthens
    have hmem := hword c (List.mem_of_mem_head? hc)
    rcases hlengthens with rfl | rfl | rfl <;> exact absurd hmem (by decide)

/-- No literal ends in white space. -/
theorem endsBare (h : type.HasLiteral cs) : EndsBare cs := by
  rcases h.isQuotedText_or with ⟨quote, inside, hquote, -, rfl⟩ | ⟨hne, hword⟩
  · refine EndsBare.concat (quote :: inside) ?_
    rw [isQuote_iff] at hquote
    rcases hquote with rfl | rfl <;> decide
  · refine .of_forall hne fun c hc => ?_
    rcases hword c hc with hc | hc
    · exact isWhiteSpace_eq_false_of_isWordChar hc
    · simp only [List.mem_cons, List.not_mem_nil, or_false] at hc
      rcases hc with rfl | rfl | rfl <;> decide

theorem exists_item (h : type.HasLiteral cs) : ∃ i : Item, i.chars = cs := by
  rcases h.isQuotedText_or with ⟨quote, inside, hquote, hinside, rfl⟩ | ⟨hne, hword⟩
  · exact ⟨.quoted quote inside hquote hinside, rfl⟩
  · have hbare : ∀ c ∈ cs, Grammar.isBare c = true ∧ isQuote c = false := by
      intro c hc
      rcases hword c hc with hc | hc
      · exact ⟨isBare_of_isWordChar hc, isQuote_eq_false_of_isWordChar hc⟩
      · simp only [List.mem_cons, List.not_mem_nil, or_false] at hc
        rcases hc with rfl | rfl | rfl <;> decide
    exact ⟨.bare cs hne (fun c hc => (hbare c hc).1)
      fun c hc => (hbare c (List.mem_of_mem_head? hc)).2, rfl⟩

/-- The forms of a literal are literals too. -/
theorem of_spells (h : type.HasLiteral cs)
    (hspells : Token.Spells ⟨cs, type == .boolean, false⟩ ds) : type.HasLiteral ds := by
  rcases hspells with rfl | ⟨hboolean, hlower⟩
  · exact h
  · obtain rfl := eq_of_beq hboolean
    exact (show asciiLower ds ∈ _ from hlower ▸ h)

end ColumnType.HasLiteral

/-! ### Tokens are found again -/

namespace Spelling

/-- A single value is a literal that a column of the type takes. -/
def Comparison.Fitting (type : ColumnType) : Comparison → Prop
  | single _ _ item _ _ => type.HasLiteral item.chars
  | list .. => True

/-- The column has a type, and a single value is a literal that it takes. -/
def Condition.Fitting (s : Schema) (c : Condition) : Prop :=
  ∃ type, s.typeOf (String.ofList c.column) = some type ∧ c.comparison.Fitting type

variable {ts : List Token} {cs : List Char} {type : ColumnType} {s : Schema}

theorem exists_otherItems_of_spaced {others : List NextItem} : ∀ {cs : List Char},
    Spaced (others.flatMap (fun n => [.fixed [','], .fixed n.item.chars]) ++ .fixed [')'] :: ts)
      cs → ∃ (others' : List NextItem) (closing : Gap) (rest : List Char),
        cs = others'.flatMap NextItem.chars ++ (closing.chars ++ ([')'] ++ rest)) ∧
        others.map (·.item.chars) = others'.map (·.item.chars) ∧ Spaced ts rest := by
  induction others with
  | nil =>
    rintro cs ⟨closing, word, rest, rfl, -, hword, h⟩
    obtain rfl := Token.spells_fixed.1 hword
    exact ⟨[], closing, rest, rfl, rfl, h⟩
  | cons n others ih =>
    rintro cs ⟨before, comma, _, rfl, -, hcomma, after, word, _, rfl, -, hword, h⟩
    obtain rfl := Token.spells_fixed.1 hcomma
    obtain rfl := Token.spells_fixed.1 hword
    obtain ⟨others', closing, rest, rfl, hothers, h⟩ := ih h
    refine ⟨⟨before, after, n.item⟩ :: others', closing, rest, ?_, ?_, h⟩
    · simp [NextItem.chars]
    · rw [List.map_cons, List.map_cons, hothers]

theorem exists_itemList_of_spaced {l : ItemList} (h : Spaced (l.tokens ++ ts) cs) :
    ∃ (gap : Gap) (l' : ItemList) (rest : List Char), cs = gap.chars ++ (l'.chars ++ rest) ∧
      l.items.map Item.chars = l'.items.map Item.chars ∧ Spaced ts rest := by
  obtain ⟨gap, paren, _, rfl, -, hparen, opening, word, _, rfl, -, hword, h⟩ := h
  obtain rfl := Token.spells_fixed.1 hparen
  obtain rfl := Token.spells_fixed.1 hword
  change Spaced (_ ++ [Token.fixed [')']] ++ ts) _ at h
  rw [← List.append_cons] at h
  obtain ⟨others, closing, rest, rfl, hothers, h⟩ := exists_otherItems_of_spaced h
  refine ⟨gap, ⟨opening, l.first, others, closing⟩, rest, ?_, ?_, h⟩
  · simp [ItemList.chars]
  · simpa [ItemList.items, Function.comp_def] using hothers

theorem exists_keyword_of_spaced {k : Keyword} (h : Spaced (k.words.map .word ++ ts) cs) :
    ∃ (gap : Gap) (k' : Keyword) (rest : List Char), cs = gap.chars ++ (k'.chars ++ rest) ∧
      gap.chars ≠ [] ∧ k.operator = k'.operator ∧ Spaced ts rest := by
  cases k with
  | oneOf word isIn =>
    obtain ⟨gap, word', rest, rfl, hne, hword, h⟩ := h
    exact ⟨gap, .oneOf word' ((Token.asciiLower_of_spells hword).trans isIn), rest, rfl, hne rfl,
      rfl, h⟩
  | noneOf negation inner word isNot apart isIn =>
    obtain ⟨gap, negation', _, rfl, hne, hnegation, inner', word', rest, rfl, hinner, hword, h⟩ := h
    refine ⟨gap, .noneOf negation' inner' word' ((Token.asciiLower_of_spells hnegation).trans isNot)
      (hinner rfl) ((Token.asciiLower_of_spells hword).trans isIn), rest, ?_, hne rfl, rfl, h⟩
    simp [Keyword.chars]

theorem exists_comparison_of_spaced {c : Comparison} (hfit : c.Fitting type)
    (h : Spaced (c.tokens (type == .boolean) ++ ts) cs) :
    ∃ (gap : Gap) (d : Comparison) (rest : List Char), cs = gap.chars ++ (d.chars ++ rest) ∧
      (d.isList = true → gap.chars ≠ []) ∧ c.Same (type == .boolean) d ∧ d.Fitting type ∧
      Spaced ts rest := by
  cases c with
  | single op inner item takesOne whole =>
    obtain ⟨gap, symbol, _, rfl, -, hsymbol, inner', word, rest, rfl, -, hword, h⟩ := h
    obtain rfl := Token.spells_fixed.1 hsymbol
    have hliteral : type.HasLiteral word := hfit.of_spells hword
    obtain ⟨item', rfl⟩ := hliteral.exists_item
    -- with or without a blank between them, the symbol ends where the literal begins
    have hwhole : op.isLengthened (inner'.chars ++ item'.chars) = false := by
      by_cases hnil : inner'.chars = []
      · rw [hnil]
        exact Grammar.isLengthened_of_stops op hliteral.stops_lengthens
      · exact Grammar.isLengthened_gap op inner' hnil _
    refine ⟨gap, .single op inner' item' takesOne hwhole, rest, ?_, nofun,
      .single (hword.imp Eq.symm (And.imp_right Eq.symm)), hliteral, h⟩
    simp [Comparison.chars, Comparison.comparator, Comparison.gap, Comparison.valueChars]
  | list keyword inner l =>
    rw [Comparison.tokens, List.append_assoc] at h
    obtain ⟨gap, keyword', _, rfl, hne, hkeyword, h⟩ := exists_keyword_of_spaced h
    obtain ⟨inner', l', rest, rfl, hitems, h⟩ := exists_itemList_of_spaced h
    refine ⟨gap, .list keyword' inner' l', rest, ?_, fun _ => hne, .list hkeyword hitems, trivial,
      h⟩
    simp [Comparison.chars, Comparison.comparator, Comparison.gap, Comparison.valueChars]

theorem folds_eq_of_typeOf {cs : List Char} (h : s.typeOf (String.ofList cs) = some type) :
    (s.typeOf (String.ofList cs) == some .boolean) = (type == .boolean) := by
  rw [h]
  rfl

/-- **The tokens of a condition are found again**, however they are laid out. -/
theorem exists_condition_of_spaced {c : Condition} {apart : Bool} (hfit : c.Fitting s)
    (h : Spaced (c.tokens s apart ++ ts) cs) :
    ∃ (gap : Gap) (d : Condition) (rest : List Char), cs = gap.chars ++ (d.chars ++ rest) ∧
      (apart = true → gap.chars ≠ []) ∧ c.Same s d ∧ d.Fitting s ∧ Spaced ts rest := by
  obtain ⟨type, htype, hfit⟩ := hfit
  obtain ⟨gap, column, _, rfl, hne, hcolumn, h⟩ := h
  have hlower : asciiLower column = asciiLower c.column := Token.asciiLower_of_spells hcolumn
  have hfolds := folds_eq_of_typeOf htype
  rw [hfolds] at h
  obtain ⟨inner, comparison, rest, rfl, hapart, hsame, hfit', h⟩ :=
    exists_comparison_of_spaced hfit h
  have hword : ∀ ch ∈ column, isWordChar ch = true := by
    intro ch hch
    have hmem := isWordChar_of_mem_asciiLower c.column_isWord ch.toLower
      (hlower ▸ List.mem_map_of_mem hch)
    rw [isWordChar_toLower] at hmem
    exact hmem
  have hcolumn_ne : column ≠ [] := by
    rintro rfl
    exact c.column_ne_nil (List.map_eq_nil_iff.1 hlower.symm)
  have hsame' : c.Same s ⟨column, inner, comparison, hcolumn_ne, hword, hapart⟩ := by
    refine ⟨hlower.symm, ?_⟩
    rw [hfolds]
    exact hsame
  refine ⟨gap, _, rest, ?_, hne, hsame', ⟨type, ?_, hfit'⟩, h⟩
  · simp [Condition.chars]
  · rw [← hsame'.typeOf_eq, htype]

theorem exists_others_of_spaced {others : List NextCondition} : ∀ {cs : List Char},
    (∀ n ∈ others, n.condition.Fitting s) → Spaced (others.flatMap (NextCondition.tokens s)) cs →
      ∃ others' : List NextCondition, cs = others'.flatMap NextCondition.chars ∧
        List.Forall₂ (NextCondition.Same s) others others' ∧
        ∀ n ∈ others', n.condition.Fitting s := by
  induction others with
  | nil =>
    rintro cs - rfl
    exact ⟨[], rfl, .nil, List.forall_mem_nil _⟩
  | cons n others ih =>
    rintro cs hfit ⟨before, keyword, _, rfl, hbefore, hkeyword, h⟩
    obtain ⟨after, condition, _, rfl, hafter, hsame, hfit', h⟩ :=
      exists_condition_of_spaced (hfit n (List.mem_cons_self ..)) h
    obtain ⟨others', rfl, hothers, hfits⟩ := ih (fun m hm => hfit m (List.mem_cons_of_mem n hm)) h
    have hkeyword : asciiLower keyword = n.connector.keyword.toList :=
      (Token.asciiLower_of_spells hkeyword).trans (asciiLower_keyword n.connector)
    refine ⟨⟨before, n.connector, keyword, after, condition, hbefore rfl, hkeyword, hafter rfl⟩ ::
      others', ?_, .cons ⟨rfl, hsame⟩ hothers, ?_⟩
    · simp [NextCondition.chars]
    · intro m hm
      rcases List.mem_cons.1 hm with rfl | hm
      · exact hfit'
      · exact hfits m hm

/-! ### The same conditions are read alike -/

/-- What a spelled condition stands for, if it stands for anything. -/
def Condition.meaning? (s : Schema) (c : Condition) : Option ColumnFilter.Condition :=
  (s.readCondition (c.written 0)).toOption

theorem toOption_readCondition_written (s : Schema) (c : Condition) (start : Nat) :
    (s.readCondition (c.written start)).toOption = c.meaning? s := by
  rw [Condition.meaning?, ← Nat.add_zero start, c.written_add, Schema.readCondition_shift]
  cases s.readCondition (c.written 0) <;> rfl

theorem readConditions_written_eq_ok {f : Filter} {xs : List ColumnFilter.Condition} :
    s.readConditions f.written.conditions = .ok xs ↔
      f.conditions.map (Condition.meaning? s) = xs.map some := by
  have hmap : f.written.conditions.map (fun w => (s.readCondition w).toOption) =
      f.conditions.map (Condition.meaning? s) := by
    rw [Written.Filter.conditions, Filter.conditions, Filter.written, List.map_cons, List.map_cons,
      List.map_map, List.map_map, map_layOut_eq_map, toOption_readCondition_written]
    exact fun start n => toOption_readCondition_written s n.condition _
  have hok : ∀ w x, s.readCondition w = .ok x ↔ (s.readCondition w).toOption = some x := by
    intro w x
    cases s.readCondition w <;> simp [Except.toOption]
  rw [← hmap, Schema.readConditions_eq_ok, ← List.forall₂_eq_eq_eq, List.forall₂_map_left_iff,
    List.forall₂_map_right_iff]
  simp only [hok]

theorem Condition.meaning?_eq_some {c : Condition} {x : ColumnFilter.Condition} :
    c.meaning? s = some x ↔ s.readCondition (c.written 0) = .ok x := by
  rw [Condition.meaning?]
  cases s.readCondition (c.written 0) <;> simp [Except.toOption]

theorem Condition.value_written {c : Condition} {e : Comparison} (h : c.comparison = e)
    (start : Nat) : (c.written start).value = e.value (c.valueStart start) := by
  rw [← h]
  rfl

theorem Condition.fitting_of_meaning? {c : Condition} {x : ColumnFilter.Condition}
    (h : c.meaning? s = some x) : c.Fitting s := by
  obtain ⟨-, -, type, htype, hvalue⟩ := Schema.readCondition_eq_ok.1 (meaning?_eq_some.1 h)
  refine ⟨type, htype, ?_⟩
  cases hc : c.comparison with
  | single op gap item takesOne whole =>
    have hsingle : (c.written 0).value = .single (item.written (c.valueStart 0)) :=
      Condition.value_written hc 0
    obtain ⟨-, haccepts, y, hy, -⟩ := (Schema.readValue_single_eq_ok hsingle).1 hvalue
    exact (type.accepts_and_scalar?_iff item _).1 ⟨haccepts, hy ▸ rfl⟩
  | list => exact trivial

/-- The case of a truth value does not matter. -/
theorem scalar?_boolean_of_asciiLower {i j : Item} (h : ColumnType.boolean.HasLiteral i.chars)
    (hlower : asciiLower i.chars = asciiLower j.chars) (start start' : Nat) :
    ColumnType.boolean.scalar? (j.written start') =
      ColumnType.boolean.scalar? (i.written start) := by
  have hquoted : ∀ (k : Item) (start : Nat), ColumnType.boolean.HasLiteral k.chars →
      (k.written start).isQuoted = false := by
    intro k start hk
    rw [Bool.eq_false_iff]
    exact fun hquoted =>
      (Written.Item.isQuoted_written_iff.1 hquoted).asciiLower_notMem hk
  have hj : ColumnType.boolean.HasLiteral j.chars :=
    show asciiLower j.chars ∈ _ from hlower ▸ h
  simp only [ColumnType.scalar?, Written.Item.isNull, Written.Item.boolean?, sameIgnoringAsciiCase,
    Item.chars_written, hquoted i start h, hquoted j start' hj, hlower]

theorem Comparison.Same.operator_eq {folds : Bool} {c d : Comparison} (h : c.Same folds d) :
    c.operator = d.operator := by
  cases h with
  | single => rfl
  | list hkeyword => exact hkeyword

theorem map_listItem_putItems (type : ColumnType) (l : ItemList) (start : Nat) :
    (l.putItems Item.written start).map type.listItem =
      (l.items.map Item.chars).map fun cs => type.listItem ⟨.string, ⟨String.ofList cs, 0⟩⟩ := by
  rw [ItemList.putItems, ItemList.items, List.map_cons, List.map_cons, List.map_cons, List.map_map,
    List.map_map, map_layOut_eq_map]
  · exact congrArg₂ List.cons (type.listItem_congr rfl) rfl
  · exact fun start n => type.listItem_congr rfl

theorem readValue_of_same {name : String} {c d : Condition} {v : Value}
    (hsame : c.comparison.Same (type == .boolean) d.comparison)
    (h : Schema.readValue name type (c.written 0) = .ok v) :
    Schema.readValue name type (d.written 0) = .ok v := by
  have hop : (d.written 0).operator = (c.written 0).operator := by
    rw [Condition.operator_written, Condition.operator_written, hsame.operator_eq]
  generalize hc : c.comparison = e, hd : d.comparison = e' at hsame
  cases hsame with
  | @single op gap gap' item item' takesOne whole whole' hitem =>
    have hvalue : (c.written 0).value = .single (item.written (c.valueStart 0)) :=
      Condition.value_written hc 0
    have hvalue' : (d.written 0).value = .single (item'.written (d.valueStart 0)) :=
      Condition.value_written hd 0
    rw [Schema.readValue_single_eq_ok hvalue] at h
    rw [Schema.readValue_single_eq_ok hvalue', hop]
    obtain ⟨hallows, haccepts, x, hx, rfl⟩ := h
    rcases hitem with hchars | ⟨hboolean, hlower⟩
    · have htext : (item'.written (d.valueStart 0)).lexeme.text =
          (item.written (c.valueStart 0)).lexeme.text := congrArg String.ofList hchars.symm
      exact ⟨hallows, (type.accepts_congr htext).trans haccepts, x,
        (type.scalar?_congr htext).trans hx, rfl⟩
    · obtain rfl := eq_of_beq hboolean
      have hliteral := (ColumnType.boolean.accepts_and_scalar?_iff item _).1 ⟨haccepts, hx ▸ rfl⟩
      have hscalar :=
        scalar?_boolean_of_asciiLower hliteral hlower (c.valueStart 0) (d.valueStart 0)
      exact ⟨hallows, ColumnType.accepts_boolean_iff.2 (hlower ▸ hliteral), x,
        hscalar.trans hx, rfl⟩
  | @list keyword keyword' gap gap' l l' hkeyword hitems =>
    have hvalue : (c.written 0).value = l.written (c.valueStart 0) :=
      Condition.value_written hc 0
    have hvalue' : (d.written 0).value = l'.written (d.valueStart 0) :=
      Condition.value_written hd 0
    rw [Schema.readValue_itemList_eq_ok hvalue] at h
    rw [Schema.readValue_itemList_eq_ok hvalue', hop, map_listItem_putItems, ← hitems,
      ← map_listItem_putItems]
    exact h

/-- **The same condition stands for the same.** -/
theorem Condition.meaning?_of_same {c d : Condition} {x : ColumnFilter.Condition}
    (hsame : c.Same s d) (h : c.meaning? s = some x) : d.meaning? s = some x := by
  rw [meaning?_eq_some] at h ⊢
  obtain ⟨hresolve, hop, type, htype, hvalue⟩ := Schema.readCondition_eq_ok.1 h
  have hcase := sameIgnoringCase_of_asciiLower hsame.column
  have hcomparison := hsame.comparison
  rw [folds_eq_of_typeOf htype] at hcomparison
  refine Schema.readCondition_eq_ok.2 ⟨?_, ?_, type, ?_, readValue_of_same hcomparison hvalue⟩
  · exact (Schema.resolve_congr hcase).symm.trans hresolve
  · rw [hop, operator_written, operator_written, hcomparison.operator_eq]
  · exact (Schema.typeOf_congr hcase).symm.trans htype

/-! ### Ends -/

theorem Condition.Fitting.endsBare {c : Condition} (h : c.Fitting s) : EndsBare c.chars := by
  obtain ⟨type, -, hfit⟩ := h
  refine .append c.column (.append c.gap.chars (.append c.comparison.comparator
    (.append c.comparison.gap.chars ?_)))
  cases hc : c.comparison with
  | single op gap item takesOne whole =>
    rw [hc] at hfit
    exact hfit.endsBare
  | list keyword gap l =>
    refine .append ['('] (.append l.opening.chars (.append l.first.chars
      (.append (l.others.flatMap NextItem.chars) (.concat l.closing.chars ?_))))
    decide

theorem endsBare_others {front : List Char} (hfront : EndsBare front)
    {others : List NextCondition} (h : ∀ n ∈ others, n.condition.Fitting s) :
    EndsBare (front ++ others.flatMap NextCondition.chars) := by
  induction others generalizing front with
  | nil => simpa using hfront
  | cons n others ih =>
    have hn : EndsBare n.chars :=
      .append n.before.chars (.append n.keyword (.append n.after.chars
        (h n (List.mem_cons_self ..)).endsBare))
    rw [List.flatMap_cons, ← List.append_assoc]
    exact ih (hn.append front) fun m hm => h m (List.mem_cons_of_mem n hm)

end Spelling

/-- Nothing but white space. -/
def IsWhite (cs : List Char) : Prop :=
  ∀ c ∈ cs, isWhiteSpace c = true

namespace IsWhite

variable {before cs after : List Char}

theorem append (hb : IsWhite before) (ha : IsWhite after) : IsWhite (before ++ after) := by
  intro c hc
  exact (List.mem_append.1 hc).elim (hb c) (ha c)

theorem reverse (h : IsWhite cs) : IsWhite cs.reverse :=
  fun c hc => h c (List.mem_reverse.1 hc)

theorem dropWhile_append (h : IsWhite before) :
    (before ++ cs).dropWhile isWhiteSpace = cs.dropWhile isWhiteSpace :=
  List.dropWhile_append_of_pos h

theorem of_gap (gap : Spelling.Gap) : IsWhite gap.chars :=
  fun c hc => isWhiteSpace_of_isBlank (gap.blank c hc)

theorem trimChars_eq_nil (h : IsWhite cs) : trimChars cs = [] := by
  have hdrop : cs.dropWhile isWhiteSpace = [] := List.dropWhile_eq_nil_iff.2 h
  rw [trimChars, hdrop]
  rfl

/-- White space around a text is trimmed. -/
theorem trimChars_append (hb : IsWhite before) (ha : IsWhite after)
    (hstart : Stops isWhiteSpace cs) (hend : EndsBare cs) :
    trimChars (before ++ (cs ++ after)) = cs := by
  have hstart' : Stops isWhiteSpace (cs ++ after) := .append_of_ne_nil hend.1 hstart
  rw [trimChars, hb.dropWhile_append, hstart'.dropWhile_eq_self, List.reverse_append,
    ha.reverse.dropWhile_append, hend.2.dropWhile_eq_self, List.reverse_reverse]

end IsWhite

theorem Text.exists_eq_append_trimChars (cs : List Char) :
    ∃ before after, cs = before ++ (trimChars cs ++ after) ∧ IsWhite before ∧ IsWhite after := by
  have hends : ∀ ds : List Char, IsWhite (ds.takeWhile isWhiteSpace) :=
    fun ds c hc => List.mem_takeWhile_imp hc
  refine ⟨cs.takeWhile isWhiteSpace,
    ((cs.dropWhile isWhiteSpace).reverse.takeWhile isWhiteSpace).reverse, ?_, hends _,
    (hends _).reverse⟩
  rw [trimChars, ← List.reverse_append, List.takeWhile_append_dropWhile, List.reverse_reverse,
    List.takeWhile_append_dropWhile]

/-! ### Texts -/

/-- The second text is made up of the tokens of the first, with blanks between them where one
likes, white space at both ends, and words in any case. -/
def SameButLayout (s : Schema) (text text' : String) : Prop :=
  ∃ ts, s.tokens? text = some ts ∧ ∃ before cs after, text'.toList = before ++ (cs ++ after) ∧
    IsWhite before ∧ IsWhite after ∧ Spaced ts cs

namespace Spelling

variable {s : Schema} {f g : Filter}

namespace Filter.Same

theorem conditions (h : f.Same s g) : List.Forall₂ (Condition.Same s) f.conditions g.conditions :=
  .cons h.first (List.forall₂_map_left_iff.2 (List.forall₂_map_right_iff.2
    (h.others.imp fun _ _ hn => hn.condition)))

theorem connectors (h : f.Same s g) : f.connectors = g.connectors := by
  have hothers : List.Forall₂ Eq f.connectors g.connectors :=
    List.forall₂_map_left_iff.2 (List.forall₂_map_right_iff.2
      (h.others.imp fun _ _ hn => hn.connector))
  rwa [List.forall₂_eq_eq_eq] at hothers

theorem readConditions_written {xs : List ColumnFilter.Condition} (h : f.Same s g)
    (hf : s.readConditions f.written.conditions = .ok xs) :
    s.readConditions g.written.conditions = .ok xs := by
  rw [readConditions_written_eq_ok] at hf ⊢
  have hconditions := h.conditions
  generalize f.conditions = cs, g.conditions = ds at hf hconditions
  induction hconditions generalizing xs with
  | nil => exact hf
  | cons hcd _ ih =>
    cases xs with
    | nil => cases hf
    | cons x xs =>
      obtain ⟨hx, hf⟩ := List.cons.inj hf
      rw [List.map_cons, List.map_cons, Condition.meaning?_of_same hcd hx, ih hf]

end Filter.Same

theorem Filter.fitting_of_readConditions {xs : List ColumnFilter.Condition}
    (h : s.readConditions f.written.conditions = .ok xs) : ∀ c ∈ f.conditions, c.Fitting s := by
  intro c hc
  have hmem : c.meaning? s ∈ xs.map some :=
    readConditions_written_eq_ok.1 h ▸ List.mem_map_of_mem hc
  obtain ⟨x, -, hx⟩ := List.mem_map.1 hmem
  exact c.fitting_of_meaning? hx.symm

theorem Filter.tokens?_eq_some {text : String} (h : f.text = trim text) :
    s.tokens? text = some (f.tokens s) := by
  have hne : ¬(trim text).isEmpty = true := by
    rw [← h, String.isEmpty_iff]
    exact fun hempty => f.chars_ne_nil (String.ofList_injective hempty)
  rw [Schema.tokens?, if_neg hne, ← h, readFilter_text]
  exact congrArg some (f.tokens_written s)

/-- **The tokens of a filter that is read are found again**, however they are laid out. -/
theorem Filter.exists_same_of_spaced {cs : List Char} (hfit : ∀ c ∈ f.conditions, c.Fitting s)
    (h : Spaced (f.tokens s) cs) : ∃ (gap : Gap) (g : Filter), cs = gap.chars ++ g.chars ∧
      f.Same s g ∧ Stops isWhiteSpace g.chars ∧ EndsBare g.chars := by
  obtain ⟨gap, first, _, rfl, -, hfirst, hfit', h⟩ :=
    exists_condition_of_spaced (hfit f.first (List.mem_cons_self ..)) h
  obtain ⟨others, rfl, hothers, hfits⟩ := exists_others_of_spaced
    (fun n hn => hfit n.condition (List.mem_cons_of_mem _ (List.mem_map_of_mem hn))) h
  have hchars : (Filter.mk .none first others .none).chars =
      first.chars ++ others.flatMap NextCondition.chars := by
    simp [Filter.chars, Gap.none]
  have hstart : Stops isWhiteSpace first.column := fun c hc =>
    isWhiteSpace_eq_false_of_isWordChar (first.column_isWord c (List.mem_of_head? hc))
  refine ⟨gap, ⟨.none, first, others, .none⟩, ?_, ⟨hfirst, hothers⟩, ?_, ?_⟩
  · rw [hchars]
  · rw [hchars, Condition.chars, List.append_assoc]
    exact .append_of_ne_nil first.column_ne_nil hstart
  · rw [hchars]
    exact endsBare_others hfit'.endsBare hfits

end Spelling

/-- **Layout and letter case do not matter.**  A text that is laid out anew is read as the
same filter, and the first text is the second one laid out anew. -/
theorem parse_of_sameButLayout {s : Schema} {text text' : String} {f : Filter}
    (h : SameButLayout s text text') (hf : s.parse text = .ok f) :
    s.parse text' = .ok f ∧ SameButLayout s text' text := by
  obtain ⟨ts, hts, before, cs, after, htext', hb, ha, hspaced⟩ := h
  obtain ⟨before', after', htext, hb', ha'⟩ := exists_eq_append_trimChars text.toList
  rw [Schema.parse_eq_ok] at hf ⊢
  by_cases hempty : (trim text).isEmpty = true
  · -- without a token there is nothing but white space
    rw [if_pos hempty] at hf
    rw [Schema.tokens?, if_pos hempty] at hts
    obtain rfl := Option.some.inj hts
    obtain rfl : cs = [] := hspaced
    have hempty' : (trim text').isEmpty = true := by
      rw [trim, htext', List.nil_append, (hb.append ha).trimChars_eq_nil]
      rfl
    have hnil : trimChars text.toList = [] := by
      rw [trim, String.isEmpty_iff] at hempty
      exact String.ofList_injective hempty
    rw [hnil] at htext
    have htokens : s.tokens? text' = some [] := by rw [Schema.tokens?, if_pos hempty']
    refine ⟨?_, [], htokens, before', [], after', htext, hb', ha', rfl⟩
    rw [if_pos hempty']
    exact hf
  · rw [if_neg hempty] at hf
    obtain ⟨v, hv, hconditions, hconnectors⟩ := Schema.readTrimmed_eq_ok.1 hf
    rw [v.tokens?_eq_some hv] at hts
    obtain rfl := Option.some.inj hts
    obtain ⟨gap, g, rfl, hsame, hstart, hend⟩ :=
      v.exists_same_of_spaced (Spelling.Filter.fitting_of_readConditions hconditions) hspaced
    have htrim : g.text = trim text' := by
      rw [trim, htext', List.append_assoc, ← List.append_assoc,
        (hb.append (.of_gap gap)).trimChars_append ha hstart hend]
      rfl
    have hne : ¬(trim text').isEmpty = true := by
      rw [← htrim, String.isEmpty_iff]
      exact fun hempty => g.chars_ne_nil (String.ofList_injective hempty)
    have hchars : trimChars text.toList = v.chars := (String.ofList_injective hv).symm
    refine ⟨?_, g.tokens s, g.tokens?_eq_some htrim, before' ++ v.opening.chars,
      v.first.chars ++ v.others.flatMap NextCondition.chars, v.closing.chars ++ after', ?_,
      hb'.append (.of_gap _), (IsWhite.of_gap _).append ha', spaced_tokens_of_same hsame⟩
    · rw [if_neg hne, Schema.readTrimmed_eq_ok]
      exact ⟨g, htrim, hsame.readConditions_written hconditions,
        hsame.connectors.symm.trans hconnectors⟩
    · rw [htext, hchars]
      simp [Spelling.Filter.chars]

/-- Two texts with other blanks, and words in another case, wherever that is allowed. -/
theorem parse_of_sameButLayout_keywords :
    SameButLayout (Schema.ofColumns [⟨"ok", .boolean⟩, ⟨"A", .string⟩])
        " ok != True or a not  in ( 'x' )" "OK!=TRUE\tOR A NOT\nIN('x')\n" ∧
      (Schema.ofColumns [⟨"ok", .boolean⟩, ⟨"A", .string⟩]).parse
          "OK!=TRUE\tOR A NOT\nIN('x')\n" =
        .ok ⟨[⟨"ok", .notEqual, .single (.boolean true)⟩, ⟨"A", .noneOf, .list [.text "x"]⟩],
          [.or]⟩ := by
  have h : SameButLayout (Schema.ofColumns [⟨"ok", .boolean⟩, ⟨"A", .string⟩])
      " ok != True or a not  in ( 'x' )" "OK!=TRUE\tOR A NOT\nIN('x')\n" := by
    have htokens : (Schema.ofColumns [⟨"ok", .boolean⟩, ⟨"A", .string⟩]).tokens?
        " ok != True or a not  in ( 'x' )" = some [⟨['o', 'k'], true, false⟩, .fixed ['!', '='],
          ⟨['T', 'r', 'u', 'e'], true, false⟩, .word ['o', 'r'], .word ['a'],
          .word ['n', 'o', 't'], .word ['i', 'n'], .fixed ['('], .fixed ['\'', 'x', '\''],
          .fixed [')']] := by
      decide +kernel
    refine ⟨_, htokens, [], "OK!=TRUE\tOR A NOT\nIN('x')".toList, ['\n'], by decide,
      List.forall_mem_nil _, by simp [IsWhite, isWhiteSpace], ?_⟩
    refine ⟨.none, ['O', 'K'], _, by rfl, by decide, .inr ⟨rfl, by decide⟩,
      .none, ['!', '='], _, by rfl, by decide, .inl rfl,
      .none, ['T', 'R', 'U', 'E'], _, by rfl, by decide, .inr ⟨rfl, by decide⟩,
      ⟨['\t'], List.all_eq_true.1 (by decide)⟩,
      ['O', 'R'], _, by rfl, by decide, .inr ⟨rfl, by decide⟩,
      .space, ['A'], _, by rfl, by decide, .inr ⟨rfl, by decide⟩,
      .space, ['N', 'O', 'T'], _, by rfl, by decide, .inr ⟨rfl, by decide⟩,
      ⟨['\n'], List.all_eq_true.1 (by decide)⟩,
      ['I', 'N'], _, by rfl, by decide, .inr ⟨rfl, by decide⟩,
      .none, ['('], _, by rfl, by decide, .inl rfl,
      .none, ['\'', 'x', '\''], _, by rfl, by decide, .inl rfl,
      .none, [')'], [], by rfl, by decide, .inl rfl, rfl⟩
  exact ⟨h, (parse_of_sameButLayout h (by decide +kernel)).1⟩

end ColumnFilter
