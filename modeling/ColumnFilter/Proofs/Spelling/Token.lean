import ColumnFilter.Proofs.Spelling.Literal

/-!
# Tokens

The other leaves of the grammar: blanks, column names, comparators and
connectors.  As with literals there are two facts about each.  In any of its
spellings a token is matched as a whole, unless what follows would prolong it;
and nothing else is matched.
-/

namespace ColumnFilter

namespace Grammar

open Pattern Spelling

variable {start : Nat} {cs rest : List Char} {m : Match}

/-! ### Blanks and columns -/

theorem run_blanks (g : Gap) (start : Nat) (h : Stops isBlank rest) :
    run blanks start (g.chars ++ rest) = some ⟨g.chars, [], rest⟩ := by
  rw [blanks, blank, run_star_one, h.takeWhile_append g.blank, h.dropWhile_append g.blank]

theorem exists_gap_of_run_blanks (h : run blanks start cs = some m) :
    ∃ g : Gap, m = ⟨g.chars, [], m.rest⟩ ∧ Stops isBlank m.rest := by
  rw [blanks, blank, run_star_one] at h
  obtain rfl := Option.some.inj h
  exact ⟨⟨cs.takeWhile isBlank, fun c hc => List.mem_takeWhile_imp hc⟩, rfl, .dropWhile _ _⟩

theorem run_blanks1 (g : Gap) (start : Nat) (hne : g.chars ≠ []) (h : Stops isBlank rest) :
    run blanks1 start (g.chars ++ rest) = some ⟨g.chars, [], rest⟩ := by
  rw [blanks1, blank, run_plus_one, h.takeWhile_append g.blank, h.dropWhile_append g.blank,
    if_neg hne]

theorem exists_gap_of_run_blanks1 (h : run blanks1 start cs = some m) :
    ∃ g : Gap, m = ⟨g.chars, [], m.rest⟩ ∧ g.chars ≠ [] ∧ Stops isBlank m.rest := by
  rw [blanks1, blank, run_plus_one, Option.ite_none_left_eq_some] at h
  obtain ⟨hne, h⟩ := h
  obtain rfl := Option.some.inj h
  exact ⟨⟨cs.takeWhile isBlank, fun c hc => List.mem_takeWhile_imp hc⟩, rfl, hne, .dropWhile _ _⟩

theorem run_column {name : List Char} (start : Nat) (hne : name ≠ [])
    (hname : ∀ c ∈ name, Text.isWordChar c = true) (h : Stops Text.isWordChar rest) :
    run column start (name ++ rest) = some ⟨name, [.mk .column start name []], rest⟩ := by
  refine run_leaf_eq_some.2 ⟨⟨name, [], rest⟩, ?_, rfl⟩
  rw [run_plus_one, h.takeWhile_append hname, h.dropWhile_append hname, if_neg hne]

theorem exists_name_of_run_column (h : run column start cs = some m) :
    ∃ name, m = ⟨name, [.mk .column start name []], m.rest⟩ ∧ name ≠ [] ∧
      (∀ c ∈ name, Text.isWordChar c = true) ∧ Stops Text.isWordChar m.rest := by
  obtain ⟨a, ha, rfl⟩ := run_leaf_eq_some.1 h
  rw [run_plus_one, Option.ite_none_left_eq_some] at ha
  obtain ⟨hne, ha⟩ := ha
  obtain rfl := Option.some.inj ha
  exact ⟨_, rfl, hne, fun c hc => List.mem_takeWhile_imp hc, .dropWhile _ _⟩

/-! ### Symbols -/

theorem run_exactly (s : String) (start : Nat) (cs : List Char) :
    run (exactly s) start cs =
      if s.toList.isPrefixOf cs then some ⟨s.toList, [], cs.drop s.toList.length⟩ else none := by
  split
  next h =>
    obtain ⟨rest, rfl⟩ := List.isPrefixOf_iff_prefix.1 h
    rw [run_exactly_append, List.drop_left]
  next h =>
    rw [Option.eq_none_iff_forall_ne_some]
    intro m hm
    exact h (List.isPrefixOf_iff_prefix.2 ⟨m.rest, (run_exactly_eq_some.1 hm).2.symm⟩)

/-- Of several symbols the first is taken that the text begins with. -/
theorem run_symbols (ss : List String) (start : Nat) (cs : List Char) :
    run (symbols ss) start cs =
      (ss.find? fun s => s.toList.isPrefixOf cs).map fun s =>
        ⟨s.toList, [], cs.drop s.toList.length⟩ := by
  have hcons : ∀ (s : String) (ss : List String), run (symbols (s :: ss)) start cs =
      (run (exactly s) start cs).or (run (symbols ss) start cs) := by
    intro s ss
    cases ss with
    | cons => rfl
    | nil =>
      have hnone : run (symbols []) start cs = none := by cases cs <;> rfl
      rw [hnone, Option.or_none]
      rfl
  induction ss with
  | nil => cases cs <;> rfl
  | cons s ss ih =>
    rw [hcons, run_exactly, ih, List.find?_cons]
    cases s.toList.isPrefixOf cs <;> rfl

/-- The symbols of the operators that take a single value, a longer one before its beginning. -/
def singleSymbols : List String :=
  ["!=", "!?", "<=", ">=", "=:", "=~", ":=", "=", "<", ">", "?"]

theorem exists_operator_of_mem {s : String} (h : s ∈ singleSymbols) :
    ∃ op : Operator, op.takesList = false ∧ op.symbol = s := by
  have hall : ∀ s ∈ singleSymbols, ∃ op ∈ Operator.all, op.takesList = false ∧ op.symbol = s := by
    decide
  obtain ⟨op, -, hop⟩ := hall s h
  exact ⟨op, hop⟩

/-- **The longest symbol is found.**  Where the text goes on behind the symbol of an
operator, that symbol is found unless one more character makes it another one. -/
theorem find?_singleSymbols {op : Operator} (hop : op.takesList = false) (rest : List Char) :
    (singleSymbols.find? fun s => s.toList.isPrefixOf (op.symbol.toList ++ rest)) =
      some op.symbol ↔ op.isLengthened rest = false := by
  cases rest with
  | nil => cases op <;> first | exact absurd hop (by decide) | decide
  | cons c rest =>
    cases op <;> first
      | exact absurd hop (by decide)
      | simp [singleSymbols, Operator.isLengthened, Operator.all, Operator.symbol]
    all_goals grind [List.isPrefixOf]

/-- The characters that make one symbol into another one. -/
def lengthens (c : Char) : Bool :=
  c == '=' || c == ':' || c == '~'

theorem isLengthened_of_stops (op : Operator) (h : Stops lengthens rest) :
    op.isLengthened rest = false := by
  cases rest with
  | nil => rfl
  | cons c rest =>
    have hlast : ∀ op ∈ Operator.all, ∀ other ∈ Operator.all,
        other.symbol.toList.dropLast = op.symbol.toList →
          other.symbol.toList.getLast?.all lengthens = true := by
      decide
    rw [Operator.isLengthened, List.any_eq_false]
    intro other hother hsymbol
    have hsymbol := eq_of_beq hsymbol
    have hc := hlast op op.mem_all other hother (by rw [hsymbol, List.dropLast_concat])
    rw [hsymbol, List.getLast?_concat, Option.all_some, Stops.cons_iff.1 h] at hc
    cases hc

theorem isLengthened_gap (op : Operator) (g : Gap) (hne : g.chars ≠ []) (rest : List Char) :
    op.isLengthened (g.chars ++ rest) = false := by
  refine isLengthened_of_stops op (.append_of_ne_nil hne fun c hc => ?_)
  obtain rfl | rfl | rfl | rfl := isBlank_iff.1 (g.blank c (List.mem_of_head? hc)) <;> decide

theorem run_comparatorSingle {op : Operator} (hop : op.takesList = false)
    (h : op.isLengthened rest = false) (start : Nat) :
    run comparatorSingle start (op.symbol.toList ++ rest) =
      some ⟨op.symbol.toList, [.mk .comparatorSingle start op.symbol.toList []], rest⟩ := by
  refine run_leaf_eq_some.2 ⟨⟨op.symbol.toList, [], rest⟩, ?_, rfl⟩
  rw [run_symbols]
  show (singleSymbols.find? _).map _ = _
  rw [(find?_singleSymbols hop rest).2 h, Option.map_some, List.drop_left]

theorem exists_operator_of_run (h : run comparatorSingle start cs = some m) :
    ∃ op : Operator, op.takesList = false ∧ op.isLengthened m.rest = false ∧
      m = ⟨op.symbol.toList, [.mk .comparatorSingle start op.symbol.toList []], m.rest⟩ := by
  obtain ⟨a, ha, rfl⟩ := run_leaf_eq_some.1 h
  rw [run_symbols, Option.map_eq_some_iff] at ha
  obtain ⟨s, hs, rfl⟩ := ha
  obtain ⟨op, hop, rfl⟩ := exists_operator_of_mem (List.mem_of_find?_eq_some hs)
  refine ⟨op, hop, ?_, rfl⟩
  have hcs : op.symbol.toList ++ cs.drop op.symbol.toList.length = cs := by
    have hpre : op.symbol.toList.isPrefixOf cs = true :=
      List.find?_some (p := fun s : String => s.toList.isPrefixOf cs) hs
    obtain ⟨rest, rfl⟩ := List.isPrefixOf_iff_prefix.1 hpre
    rw [List.drop_left]
  rw [← find?_singleSymbols hop, hcs]
  exact hs

/-- A symbol begins with a character that belongs to no gap and to no name. -/
theorem exists_symbol_eq_cons {op : Operator} (hop : op.takesList = false) :
    ∃ c cs, op.symbol.toList = c :: cs ∧ isBlank c = false ∧ Text.isWordChar c = false := by
  have hhead : (op.symbol.toList.head?.any fun c => !isBlank c && !Text.isWordChar c) = true := by
    cases op <;> first | exact absurd hop (by decide) | decide
  cases hs : op.symbol.toList with
  | nil =>
    rw [hs] at hhead
    cases hhead
  | cons c cs =>
    rw [hs, List.head?_cons, Option.any_some, Bool.and_eq_true, Bool.not_eq_true',
      Bool.not_eq_true'] at hhead
    exact ⟨c, cs, rfl, hhead⟩

/-- No symbol begins with a letter. -/
theorem run_comparatorSingle_of_toLower {c : Char} (h : c.toLower.isLower = true) :
    run comparatorSingle start (c :: cs) = none := by
  cases hm : run comparatorSingle start (c :: cs) with
  | none => rfl
  | some m =>
    obtain ⟨op, hop, -, hm'⟩ := exists_operator_of_run hm
    obtain ⟨d, ds, hsymbol, -, hd⟩ := exists_symbol_eq_cons hop
    have hcs := text_append_rest hm
    rw [hm', hsymbol] at hcs
    obtain rfl := (List.cons.inj hcs).1
    rw [isWordChar_of_toLower h] at hd
    cases hd

/-! ### Keywords -/

/-- A word that is some keyword in any case consists of letters. -/
theorem isLower_toLower_of_mem {s : String} {word : List Char}
    (hs : s.toList.all Char.isLower = true) (h : Text.asciiLower word = s.toList) :
    ∀ c ∈ word, c.toLower.isLower = true :=
  fun _ hc => List.all_eq_true.1 hs _ (h ▸ List.mem_map_of_mem hc)

theorem ne_nil_of_asciiLower {s : String} {word : List Char} (hs : s.toList ≠ [])
    (h : Text.asciiLower word = s.toList) : word ≠ [] := by
  rintro rfl
  exact hs h.symm

theorem stops_isBlank_of_asciiLower {s : String} {word : List Char} (hne : s.toList ≠ [])
    (hs : s.toList.all Char.isLower = true) (h : Text.asciiLower word = s.toList)
    (rest : List Char) : Stops isBlank (word ++ rest) := by
  refine .append_of_ne_nil (ne_nil_of_asciiLower hne h) fun c hc => ?_
  exact isBlank_eq_false_of_isBare
    (isBare_of_toLower (isLower_toLower_of_mem hs h c (List.mem_of_head? hc)))

/-- A keyword fails on a word that begins with another letter. -/
theorem run_anyCase_of_head_ne {s t : String} {word : List Char}
    (h : Text.asciiLower word = t.toList) (hs : s.toList ≠ []) (ht : t.toList ≠ [])
    (hne : s.toList.head? ≠ t.toList.head?) (start : Nat) (rest : List Char) :
    run (anyCase s) start (word ++ rest) = none := by
  cases word with
  | nil => exact absurd h.symm ht
  | cons c word =>
    refine run_foldedWord_of_head_ne hs fun he => hne ?_
    rw [he, ← h]
    rfl

theorem run_comparatorMultiple (k : Keyword) (start : Nat) (rest : List Char) :
    run comparatorMultiple start (k.chars ++ rest) =
      some ⟨k.chars, [.mk .comparatorMultiple start k.chars []], rest⟩ := by
  refine run_leaf_eq_some.2 ⟨⟨k.chars, [], rest⟩, ?_, rfl⟩
  show run (alt (seq (anyCase "not") (seq blanks1 (anyCase "in"))) (anyCase "in")) _ _ = _
  cases k with
  | oneOf word isIn =>
    have hnot := run_anyCase_of_head_ne (s := "not") isIn (by decide) (by decide) (by decide)
      start rest
    rw [Keyword.chars, run_alt_of_none (run_seq_of_none hnot), run_anyCase_append isIn]
  | noneOf negation gap word isNot apart isIn =>
    have hgap := stops_isBlank_of_asciiLower (by decide) (by decide) isIn rest
    rw [Keyword.chars, List.append_assoc, List.append_assoc]
    refine run_alt_of_some ?_
    rw [run_seq_of_some (run_anyCase_append isNot ..),
      run_seq_of_some (run_blanks1 gap _ apart hgap), run_anyCase_append isIn]
    rfl

theorem exists_keyword_of_run (h : run comparatorMultiple start cs = some m) :
    ∃ k : Keyword, m = ⟨k.chars, [.mk .comparatorMultiple start k.chars []], m.rest⟩ := by
  obtain ⟨a, ha, rfl⟩ := run_leaf_eq_some.1 h
  change run (alt (seq (anyCase "not") (seq blanks1 (anyCase "in"))) (anyCase "in")) _ _ = _ at ha
  rcases run_alt_eq_some.1 ha with ha | ⟨-, ha⟩
  · obtain ⟨negation, _, hnot, ha', rfl⟩ := run_seq_eq_some.1 ha
    obtain ⟨blanks, word, hblanks, hin, rfl⟩ := run_seq_eq_some.1 ha'
    obtain ⟨gap, hgap, hne, -⟩ := exists_gap_of_run_blanks1 hblanks
    refine ⟨.noneOf negation.text gap word.text (run_anyCase_eq_some.1 hnot).1 hne
      (run_anyCase_eq_some.1 hin).1, ?_⟩
    have htext : blanks.text = gap.chars := congrArg Match.text hgap
    simp only [Match.append, Keyword.chars, htext]
  · exact ⟨.oneOf a.text (run_anyCase_eq_some.1 ha).1, rfl⟩

/-- A keyword does not begin with a symbol. -/
theorem run_comparatorSingle_of_keyword (k : Keyword) (start : Nat) (rest : List Char) :
    run comparatorSingle start (k.chars ++ rest) = none := by
  have hword : ∀ {s : String} {word : List Char} (rest : List Char), s.toList ≠ [] →
      s.toList.all Char.isLower = true → Text.asciiLower word = s.toList →
      run comparatorSingle start (word ++ rest) = none := by
    intro s word rest hne hs h
    cases word with
    | nil => exact absurd h.symm hne
    | cons c word =>
      exact run_comparatorSingle_of_toLower (isLower_toLower_of_mem hs h c (List.mem_cons_self ..))
  cases k with
  | oneOf word isIn => exact hword rest (by decide) (by decide) isIn
  | noneOf negation gap word isNot apart isIn =>
    rw [Keyword.chars, List.append_assoc]
    exact hword _ (by decide) (by decide) isNot

section Connector

variable {k : Connector} {keyword : List Char}

theorem isLower_toLower_of_connector (h : Text.asciiLower keyword = k.keyword.toList) :
    ∀ c ∈ keyword, c.toLower.isLower = true :=
  isLower_toLower_of_mem (by cases k <;> decide) h

theorem ne_nil_of_connector (h : Text.asciiLower keyword = k.keyword.toList) : keyword ≠ [] :=
  ne_nil_of_asciiLower (by cases k <;> decide) h

theorem stops_isBlank_of_connector (h : Text.asciiLower keyword = k.keyword.toList)
    (rest : List Char) : Stops isBlank (keyword ++ rest) :=
  stops_isBlank_of_asciiLower (by cases k <;> decide) (by cases k <;> decide) h rest

theorem run_connector (h : Text.asciiLower keyword = k.keyword.toList)
    (hstop : Stops isBare rest) (start : Nat) :
    run connector start (keyword ++ rest) =
      some ⟨keyword, [.mk .connector start keyword []], rest⟩ := by
  refine run_leaf_eq_some.2 ⟨⟨keyword, [], rest⟩, ?_, rfl⟩
  have hword : run (alt (anyCase "and") (anyCase "or")) start (keyword ++ rest) =
      some ⟨keyword, [], rest⟩ := by
    cases k with
    | and => exact run_alt_of_some (run_anyCase_append h start rest)
    | or =>
      have hand := run_anyCase_of_head_ne (s := "and") h (by decide) (by decide) (by decide)
        start rest
      exact (run_alt_of_none hand).trans (run_anyCase_append h start rest)
  have hend : run wordEnd (start + Text.byteLength keyword) rest = some ⟨[], [], rest⟩ := by
    refine run_notAhead_eq_some.2 ⟨?_, rfl⟩
    cases rest with
    | nil => rfl
    | cons c rest => exact if_neg (by simp [Stops.cons_iff.1 hstop])
  rw [run_seq_of_some hword, hend]
  simp [Match.append]

end Connector

theorem exists_connector_of_run (h : run connector start cs = some m) :
    ∃ (k : Connector) (keyword : List Char), Text.asciiLower keyword = k.keyword.toList ∧
      m = ⟨keyword, [.mk .connector start keyword []], m.rest⟩ := by
  obtain ⟨_, hword, rfl⟩ := run_leaf_eq_some.1 h
  obtain ⟨a, b, ha, hb, rfl⟩ := run_seq_eq_some.1 hword
  obtain ⟨-, rfl⟩ := run_notAhead_eq_some.1 hb
  have htext : (a.append ⟨[], [], a.rest⟩).text = a.text := List.append_nil _
  rw [htext]
  rcases run_alt_eq_some.1 ha with hand | ⟨-, hor⟩
  · exact ⟨.and, a.text, (run_anyCase_eq_some.1 hand).1, rfl⟩
  · exact ⟨.or, a.text, (run_anyCase_eq_some.1 hor).1, rfl⟩

end Grammar

end ColumnFilter
