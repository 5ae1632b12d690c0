import ColumnFilter.Proofs.Reading.Isolation

/-!
# Comparators and operators

The grammar and the operators each have a table of symbols.  The grammar lists the symbols of
single values three times, for all columns and for numbers and truth values, in an order of its
own; the operators have a symbol each, and a type says which of them it allows.  The tables
agree on every text (`accepts_comparator_iff`): a text is a comparator exactly if it is the symbol
of the operator that it is taken for, so no comparator stands for `equal` by default.

A comparator of a list may be written in any case and with any blanks.  `Text.collapse` says what
is left of the blanks.
-/

namespace ColumnFilter

open Spelling

/-! ### White space in one place -/

namespace Text

/-- A text with one space in the place of every run of white space. -/
def collapse : List Char → List Char
  | [] => []
  | c :: cs =>
    if isWhiteSpace c then
      if cs.head?.any isWhiteSpace then collapse cs else ' ' :: collapse cs
    else c :: collapse cs

variable {word gap rest cs : List Char}

theorem collapse_append_of_word (h : ∀ c ∈ word, isWhiteSpace c = false) (rest : List Char) :
    collapse (word ++ rest) = word ++ collapse rest := by
  induction word with
  | nil => rfl
  | cons c word ih =>
    rw [List.cons_append, collapse, if_neg (by simp [h c (List.mem_cons_self ..)]),
      ih fun d hd => h d (List.mem_cons_of_mem c hd), List.cons_append]

theorem collapse_eq_self (h : ∀ c ∈ cs, isWhiteSpace c = false) : collapse cs = cs := by
  have := collapse_append_of_word h []
  rwa [List.append_nil, collapse, List.append_nil] at this

/-- A run of white space is one space. -/
theorem collapse_append_of_gap (hne : gap ≠ []) (h : ∀ c ∈ gap, isWhiteSpace c = true)
    (hstop : Stops isWhiteSpace rest) : collapse (gap ++ rest) = ' ' :: collapse rest := by
  induction gap with
  | nil => exact absurd rfl hne
  | cons c gap ih =>
    rw [List.cons_append, collapse, if_pos (h c (List.mem_cons_self ..))]
    cases gap with
    | nil =>
      have hhead : rest.head?.any isWhiteSpace = false := by
        cases rest with
        | nil => rfl
        | cons d rest => simpa using Stops.cons_iff.1 hstop
      rw [List.nil_append, hhead]
      rfl
    | cons d gap =>
      have hgap : ∀ e ∈ d :: gap, isWhiteSpace e = true :=
        fun e he => h e (List.mem_cons_of_mem c he)
      have hhead : (d :: gap ++ rest).head?.any isWhiteSpace = true := by
        simpa using hgap d (List.mem_cons_self ..)
      rw [hhead, if_pos rfl, ih (List.cons_ne_nil _ _) hgap]

/-- A text has no white space, or a first run of it. -/
theorem exists_eq_append_gap (cs : List Char) : (∀ c ∈ cs, isWhiteSpace c = false) ∨
    ∃ word gap rest, cs = word ++ (gap ++ rest) ∧ (∀ c ∈ word, isWhiteSpace c = false) ∧
      gap ≠ [] ∧ (∀ c ∈ gap, isWhiteSpace c = true) ∧ Stops isWhiteSpace rest := by
  have hword : ∀ c ∈ cs.takeWhile (!isWhiteSpace ·), isWhiteSpace c = false := by
    intro c hc
    simpa using List.mem_takeWhile_imp hc
  have hsplit := cs.takeWhile_append_dropWhile (p := (!isWhiteSpace ·))
  cases htail : cs.dropWhile (!isWhiteSpace ·) with
  | nil =>
    rw [htail, List.append_nil] at hsplit
    exact .inl (hsplit ▸ hword)
  | cons c tail =>
    have hc : isWhiteSpace c = true := by
      have := Stops.dropWhile (!isWhiteSpace ·) cs
      rw [htail] at this
      simpa using Stops.cons_iff.1 this
    refine .inr ⟨_, (c :: tail).takeWhile isWhiteSpace, (c :: tail).dropWhile isWhiteSpace, ?_,
      hword, ?_, fun d hd => List.mem_takeWhile_imp hd, .dropWhile _ _⟩
    · rw [List.takeWhile_append_dropWhile, ← htail, hsplit]
    · rw [List.takeWhile_cons_of_pos hc]
      exact List.cons_ne_nil _ _

/-- White space is kept as a space. -/
theorem isWhiteSpace_eq_false_of_notMem (h : ' ' ∉ collapse cs) :
    ∀ c ∈ cs, isWhiteSpace c = false := by
  rcases exists_eq_append_gap cs with hcs | ⟨word, gap, rest, rfl, hword, hne, hgap, hstop⟩
  · exact hcs
  · rw [collapse_append_of_word hword, collapse_append_of_gap hne hgap hstop] at h
    simp at h

end Text

/-! ### Symbols -/

namespace Operator

variable {s : String}

theorem normalSymbol_symbol (op : Operator) : normalSymbol op.symbol = op.symbol := by
  cases op <;> decide

/-- An operator with some symbol is the one that the symbol is taken for. -/
theorem exists_symbol_iff {P : Operator → Prop} :
    (∃ op, P op ∧ op.symbol = s) ↔ P (ofSymbol s) ∧ (ofSymbol s).symbol = s := by
  constructor
  · rintro ⟨op, hop, rfl⟩
    rw [ofSymbol_symbol]
    exact ⟨hop, rfl⟩
  · exact fun h => ⟨ofSymbol s, h⟩

/-- A table of symbols lists those of the operators of a class. -/
theorem mem_symbols_iff {ss : List String} {inClass : Operator → Bool}
    (h : ss.Perm ((all.filter inClass).map symbol)) :
    s ∈ ss ↔ ∃ op, inClass op = true ∧ op.symbol = s := by
  rw [h.mem_iff, List.mem_map]
  refine exists_congr fun op => and_congr_left fun _ => ?_
  rw [List.mem_filter, and_iff_right op.mem_all]

end Operator

namespace Grammar

open Pattern

variable {s : String} {r r' : Rule}

/-- The first symbol that a listed symbol begins with is that symbol, if none of the table is the
beginning of a later one. -/
theorem find?_isPrefixOf_of_mem {ss : List String}
    (h : ss.Pairwise fun a b => a.toList.isPrefixOf b.toList = false) (hs : s ∈ ss) :
    ss.find? (fun t => t.toList.isPrefixOf s.toList) = some s := by
  induction ss with
  | nil => cases hs
  | cons t ss ih =>
    obtain ⟨ht, h⟩ := List.pairwise_cons.1 h
    rcases List.mem_cons.1 hs with rfl | hs
    · exact List.find?_cons_of_pos (List.isPrefixOf_iff_prefix.2 (List.prefix_refl _))
    · rw [List.find?_cons_of_neg (by simp [ht s hs])]
      exact ih h hs

/-- **A table in which longer symbols come first matches exactly its symbols.** -/
theorem isSome_run_symbols_iff {ss : List String}
    (h : ss.Pairwise fun a b => a.toList.isPrefixOf b.toList = false) :
    (run (only r (leaf r' (symbols ss))) 0 s.toList).isSome = true ↔ s ∈ ss := by
  rw [isSome_run_only_iff]
  constructor
  · rintro ⟨m, hm, hrest⟩
    have hcs := text_append_rest hm
    obtain ⟨a, ha, rfl⟩ := run_leaf_eq_some.1 hm
    rw [run_symbols, Option.map_eq_some_iff] at ha
    obtain ⟨t, ht, rfl⟩ := ha
    rw [hrest, List.append_nil] at hcs
    rw [← String.toList_inj.1 hcs]
    exact List.mem_of_find?_eq_some ht
  · intro hs
    refine ⟨_, run_leaf_eq_some.2 ⟨⟨s.toList, [], []⟩, ?_, rfl⟩, rfl⟩
    rw [run_symbols, find?_isPrefixOf_of_mem h hs, Option.map_some, List.drop_length]

end Grammar

namespace ColumnType

/-- The comparators of single values that a column type admits. -/
def comparator : ColumnType → Fragment
  | string => .comparatorString
  | number => .comparatorNumeric
  | boolean => .comparatorBoolean

end ColumnType

namespace Fragment

open Grammar

variable {s : String}

/-- The texts of a table are the symbols of a class of operators. -/
theorem accepts_iff_of_symbols {f : Fragment} {r' : Rule} {ss : List String}
    {inClass : Operator → Bool} (hf : pattern f.rule = only f.rule (.leaf r' (symbols ss)))
    (hss : ss.Pairwise fun a b => a.toList.isPrefixOf b.toList = false)
    (hclass : ss.Perm ((Operator.all.filter inClass).map Operator.symbol)) :
    f.accepts s = true ↔
      inClass (Operator.ofSymbol s) = true ∧ (Operator.ofSymbol s).symbol = s := by
  rw [accepts, run, hf, isSome_run_symbols_iff hss, Operator.mem_symbols_iff hclass,
    Operator.exists_symbol_iff]

theorem accepts_comparatorSingle_iff : comparatorSingle.accepts s = true ↔
    (Operator.ofSymbol s).takesList = false ∧ (Operator.ofSymbol s).symbol = s := by
  have hclass : singleSymbols.Perm
      ((Operator.all.filter fun op => !op.takesList).map Operator.symbol) := by decide
  rw [accepts_iff_of_symbols (f := comparatorSingle) rfl (by decide) hclass, Bool.not_eq_true']

theorem accepts_comparatorString_iff :
    comparatorString.accepts s = true ↔ comparatorSingle.accepts s = true := by
  have hstring : comparatorString.accepts s = true ↔ _ := isSome_run_only_iff
  have hsingle : comparatorSingle.accepts s = true ↔ _ := isSome_run_only_iff
  rw [hstring, hsingle]
  constructor
  · rintro ⟨m, hm, hrest⟩
    obtain ⟨a, ha, rfl⟩ := Pattern.run_leaf_eq_some.1 hm
    exact ⟨a, ha, hrest⟩
  · rintro ⟨m, hm, hrest⟩
    exact ⟨_, Pattern.run_leaf_eq_some.2 ⟨m, hm, rfl⟩, hrest⟩

/-- The texts of a table are the comparators of single values that a column type allows. -/
theorem accepts_comparator_of_symbols {type : ColumnType} {r' : Rule} {ss : List String}
    (hf : pattern type.comparator.rule = only type.comparator.rule (.leaf r' (symbols ss)))
    (hss : ss.Pairwise fun a b => a.toList.isPrefixOf b.toList = false)
    (hclass : ss.Perm ((Operator.all.filter fun op => !op.takesList && type.allows op).map
      Operator.symbol)) :
    type.comparator.accepts s = true ↔
      comparatorSingle.accepts s = true ∧ type.allows (Operator.ofSymbol s) = true := by
  rw [accepts_iff_of_symbols hf hss hclass, accepts_comparatorSingle_iff, Bool.and_eq_true,
    Bool.not_eq_true', and_right_comm]

theorem accepts_comparator_of_type (type : ColumnType) : type.comparator.accepts s = true ↔
    comparatorSingle.accepts s = true ∧ type.allows (Operator.ofSymbol s) = true := by
  cases type with
  | string => exact accepts_comparatorString_iff.trans (and_iff_left rfl).symm
  | number => exact accepts_comparator_of_symbols rfl (by decide) (by decide)
  | boolean => exact accepts_comparator_of_symbols rfl (by decide) (by decide)

/-! ### Keywords -/

theorem accepts_comparatorMultiple_iff_exists :
    comparatorMultiple.accepts s = true ↔ ∃ k : Keyword, k.chars = s.toList := by
  constructor
  · intro h
    obtain ⟨m, hm, hrest⟩ := isSome_run_only_iff.1 h
    obtain ⟨k, hk⟩ := exists_keyword_of_run hm
    refine ⟨k, ?_⟩
    rw [← Pattern.text_append_rest hm, hrest, List.append_nil, hk]
  · rintro ⟨k, hk⟩
    rw [← String.ofList_toList (s := s), ← hk]
    exact k.accepts_comparatorMultiple

end Fragment

namespace Spelling

open Text

theorem Keyword.takesList_operator (k : Keyword) : k.operator.takesList = true := by
  cases k <;> rfl

theorem Keyword.asciiLower_collapse_chars (k : Keyword) :
    asciiLower (collapse k.chars) = k.operator.symbol.toList := by
  cases k with
  | oneOf word isIn =>
    rw [chars, collapse_eq_self (isWhiteSpace_of_asciiLower (by decide) isIn), isIn]
    rfl
  | noneOf negation gap word isNot apart isIn =>
    have hword := isWhiteSpace_of_asciiLower (by decide) isIn
    have hgap : ∀ c ∈ gap.chars, isWhiteSpace c = true :=
      fun c hc => isWhiteSpace_of_isBlank (gap.blank c hc)
    have hstop : Stops isWhiteSpace word := fun c hc => hword c (List.mem_of_head? hc)
    rw [chars, collapse_append_of_word (isWhiteSpace_of_asciiLower (by decide) isNot),
      collapse_append_of_gap apart hgap hstop, collapse_eq_self hword, asciiLower_append, isNot]
    show "not".toList ++ ' ' :: asciiLower word = "not in".toList
    rw [isIn]
    decide

theorem Keyword.isBlank_of_mem_chars (k : Keyword) :
    ∀ c ∈ k.chars, isWhiteSpace c = true → Grammar.isBlank c = true := by
  have hword : ∀ {s : String} {word : List Char}, s.toList.all Char.isLower = true →
      asciiLower word = s.toList → ∀ c ∈ word, isWhiteSpace c = true → Grammar.isBlank c = true :=
    fun hs h c hc hwhite => absurd hwhite (by simp [isWhiteSpace_of_asciiLower hs h c hc])
  intro c hc
  cases k with
  | oneOf word isIn => exact hword (by decide) isIn c hc
  | noneOf negation gap word isNot apart isIn =>
    rw [chars, List.mem_append, List.mem_append] at hc
    rcases hc with hc | hc | hc
    · exact hword (by decide) isNot c hc
    · exact fun _ => gap.blank c hc
    · exact hword (by decide) isIn c hc

theorem space_notMem_asciiLower {word : List Char} (h : ∀ c ∈ word, isWhiteSpace c = false) :
    ' ' ∉ asciiLower word := by
  rw [asciiLower, List.mem_map]
  rintro ⟨c, hc, hlower⟩
  have hspace : c = ' ' := by
    have hnat : c.toLower.toNat = 32 := congrArg Char.toNat hlower
    rw [toNat_toLower] at hnat
    refine Char.toNat_inj.1 ?_
    show c.toNat = 32
    split at hnat <;> omega
  have := h c hc
  rw [hspace] at this
  exact absurd this (by decide)

theorem isWhiteSpace_of_space_notMem {cs : List Char} (h : ' ' ∉ asciiLower (collapse cs)) :
    ∀ c ∈ cs, isWhiteSpace c = false :=
  isWhiteSpace_eq_false_of_notMem fun hmem => h (List.mem_map.2 ⟨' ', hmem, by decide⟩)

/-- **A text is a keyword if it is the symbol of a list operator up to case and blanks.** -/
theorem exists_keyword_of_collapse {cs : List Char} {op : Operator} (hop : op.takesList = true)
    (h : asciiLower (collapse cs) = op.symbol.toList)
    (hblank : ∀ c ∈ cs, isWhiteSpace c = true → Grammar.isBlank c = true) :
    ∃ k : Keyword, k.chars = cs := by
  cases op with
  | oneOf =>
    have hcs : ∀ c ∈ cs, isWhiteSpace c = false :=
      isWhiteSpace_of_space_notMem (by rw [h]; decide)
    rw [collapse_eq_self hcs] at h
    exact ⟨.oneOf cs h, rfl⟩
  | noneOf =>
    rcases exists_eq_append_gap cs with hcs | ⟨word, gap, rest, rfl, hword, hne, hgap, hstop⟩
    · -- a text without white space is no two words
      rw [collapse_eq_self hcs] at h
      exact absurd (h ▸ space_notMem_asciiLower hcs) (by decide)
    · rw [collapse_append_of_word hword, collapse_append_of_gap hne hgap hstop,
        asciiLower_append] at h
      have hwords : asciiLower word ++ ' ' :: asciiLower (collapse rest) =
          "not".toList ++ ' ' :: "in".toList := h
      have hletters : ∀ c ∈ asciiLower word, (c != ' ') = true :=
        fun c hc => bne_iff_ne.2 fun he => space_notMem_asciiLower hword (he ▸ hc)
      have hspace : ∀ {cs : List Char}, Stops (· != ' ') (' ' :: cs) := Stops.cons_iff.2 rfl
      have hnot : ("not".toList.all (· != ' ')) = true := by decide
      obtain ⟨isNot, hrest⟩ := eq_of_append_eq_append hwords hletters hspace
        (List.all_eq_true.1 hnot) hspace
      have isIn : asciiLower (collapse rest) = "in".toList := (List.cons.inj hrest).2
      rw [collapse_eq_self (isWhiteSpace_of_space_notMem (by rw [isIn]; decide))] at isIn
      have hblanks : ∀ c ∈ gap, Grammar.isBlank c = true :=
        fun c hc => hblank c (by simp [hc]) (hgap c hc)
      exact ⟨.noneOf word ⟨gap, hblanks⟩ rest isNot hne isIn, rfl⟩
  | _ => cases hop

end Spelling

/-- **The comparators of the grammar are those of the operators.**  A text is a comparator of a
single value exactly if it is the symbol of the operator that it is taken for, and that operator
takes no list.  A text is a comparator of a list exactly if it becomes the symbol of a list operator
once its letters are lower case and each run of its blanks is one space.  Neither is taken for an
operator by default.  The comparators that a column type admits are those of a single value whose
operators it allows. -/
theorem accepts_comparator_iff (s : String) :
    (Fragment.comparatorSingle.accepts s = true ↔
      (Operator.ofSymbol s).takesList = false ∧ (Operator.ofSymbol s).symbol = s) ∧
    (Fragment.comparatorMultiple.accepts s = true ↔
      (Operator.ofSymbol s = .oneOf ∨ Operator.ofSymbol s = .noneOf) ∧
      (Operator.ofSymbol s).symbol.toList = Text.asciiLower (Text.collapse s.toList) ∧
      ∀ c ∈ s.toList, Text.isWhiteSpace c = true → Grammar.isBlank c = true) ∧
    (Fragment.comparatorSingle.accepts s = true ∨ Fragment.comparatorMultiple.accepts s = true →
      (Operator.ofSymbol s).symbol = Operator.normalSymbol s) ∧
    ∀ type : ColumnType, type.comparator.accepts s = true ↔
      Fragment.comparatorSingle.accepts s = true ∧ type.allows (Operator.ofSymbol s) = true := by
  have hlist : ∀ op : Operator, op.takesList = true ↔ op = .oneOf ∨ op = .noneOf := by
    intro op
    cases op <;> decide
  have hkeyword : ∀ {k : Spelling.Keyword}, k.chars = s.toList →
      String.ofList k.chars = s ∧ Operator.ofSymbol s = k.operator := by
    intro k hk
    have hs : String.ofList k.chars = s := by rw [hk, String.ofList_toList]
    exact ⟨hs, hs ▸ k.ofSymbol_chars⟩
  refine ⟨Fragment.accepts_comparatorSingle_iff, ?_, ?_, Fragment.accepts_comparator_of_type⟩
  · rw [Fragment.accepts_comparatorMultiple_iff_exists, ← hlist]
    constructor
    · rintro ⟨k, hk⟩
      obtain ⟨-, hop⟩ := hkeyword hk
      rw [hop, ← hk]
      exact ⟨k.takesList_operator, k.asciiLower_collapse_chars.symm, k.isBlank_of_mem_chars⟩
    · rintro ⟨htakes, hsymbol, hblank⟩
      exact Spelling.exists_keyword_of_collapse htakes hsymbol.symm hblank
  · rintro (h | h)
    · obtain ⟨-, hsymbol⟩ := Fragment.accepts_comparatorSingle_iff.1 h
      have hnormal := (Operator.ofSymbol s).normalSymbol_symbol
      rw [hsymbol] at hnormal
      exact hsymbol.trans hnormal.symm
    · obtain ⟨k, hk⟩ := Fragment.accepts_comparatorMultiple_iff_exists.1 h
      obtain ⟨hs, hop⟩ := hkeyword hk
      rw [hop, ← k.normalSymbol_chars, hs]

/-- A keyword in mixed case with a tab and a line end in it. -/
theorem accepts_comparator_iff_mixedCase :
    Fragment.comparatorMultiple.accepts "Not\t\nIN" = true ∧
      (Operator.ofSymbol "Not\t\nIN").symbol = Operator.normalSymbol "Not\t\nIN" ∧
      Operator.normalSymbol "Not\t\nIN" = "not in" := by
  have haccepts : Fragment.comparatorMultiple.accepts "Not\t\nIN" = true := by decide
  exact ⟨haccepts, (accepts_comparator_iff "Not\t\nIN").2.2.1 (.inr haccepts), by decide⟩

end ColumnFilter
