import ColumnFilter.Proofs.Spelling.Fragment

/-!
# What a spelling is read as

The marked stretches of a spelling have the form that a written filter is built
from, so a text is read if and only if it is the text of a spelling, and then as
what that spelling says at each place (`readFilter_eq_ok`).  Every other text does
not follow the grammar (`readFilter_eq_error`): a condition is never empty and begins
behind the one before it, so what has been gathered goes on with each of them, and
there is a connector for each but the first.

The comparator of a spelling names its operator, whatever its case and blanks.
So nothing but blanks, case and places is left to chance: columns, operators,
literals and connectors are read as they were spelled
(`exists_readFilter_outline`).
-/

namespace ColumnFilter

/-! ### From stretches to what is written -/

namespace Spelling

theorem Item.ofTree_tree (i : Item) (start : Nat) :
    Written.Item.ofTree (i.tree start) = .ok (i.written start) := by
  have hkind : ∀ k : Written.ItemKind, Written.Item.kindOf? k.rule = some k := by
    intro k
    cases k <;> rfl
  rw [Written.Item.ofTree, Item.tree, Tree.rule, hkind]
  rfl

theorem ItemList.mapM_putItems (l : ItemList) (start : Nat) :
    (l.putItems Item.tree start).mapM Written.Item.ofTree =
      .ok (l.putItems Item.written start) := by
  have hothers : ∀ start,
      (layOut NextItem.chars (fun start n => n.item.tree (n.itemStart start)) start l.others).mapM
        Written.Item.ofTree =
      .ok (layOut NextItem.chars (fun start n => n.item.written (n.itemStart start)) start
        l.others) :=
    mapM_layOut (fun start n => n.item.ofTree_tree (n.itemStart start)) l.others
  rw [ItemList.putItems, List.mapM_cons, Item.ofTree_tree, hothers]
  rfl

theorem ItemList.text_putItems (l : ItemList) (start : Nat) :
    (l.putItems Item.written start).map (·.lexeme.text) =
      l.items.map fun i => String.ofList i.chars := by
  have hothers : ∀ start,
      (layOut NextItem.chars (fun start n => n.item.written (n.itemStart start)) start l.others).map
        (·.lexeme.text) = l.others.map fun n => String.ofList n.item.chars :=
    map_layOut_eq_map (by intro start n; rfl) l.others
  rw [ItemList.putItems, ItemList.items, List.map_cons, List.map_cons, List.map_map, hothers]
  rfl

/-- A comparator and its value belong together. -/
theorem Comparison.ofTrees_trees (c : Comparison) (place start : Nat) :
    Written.Value.ofTrees (c.comparatorTree place) (c.valueTree start) = .ok (c.value start) := by
  cases c with
  | single op gap item takesOne whole =>
    show (Written.Item.ofTree (item.tree start)).map _ = _
    rw [Item.ofTree_tree]
    rfl
  | list keyword gap l =>
    show ((l.putItems Item.tree start).mapM Written.Item.ofTree).map _ = _
    rw [l.mapM_putItems]
    rfl

theorem Condition.ofTree_tree (c : Condition) (start : Nat) :
    Written.Condition.ofTree (c.tree start) = .ok (c.written start) := by
  show (Written.Value.ofTrees (c.comparison.comparatorTree _) (c.comparison.valueTree _)).map _ = _
  rw [Comparison.ofTrees_trees]
  rfl

theorem NextCondition.ofKeyword?_keyword (n : NextCondition) :
    Connector.ofKeyword? (String.ofList n.keyword) = some n.connector := by
  rw [← Connector.ofKeyword?_keyword n.connector, Connector.ofKeyword?, Connector.ofKeyword?,
    String.toList_ofList, n.isKeyword]
  cases n.connector <;> rfl

end Spelling

namespace Written.Gathered

open Spelling

variable (g : Gathered)

/-- **A condition is gathered if it begins no earlier than the last one ends.** -/
theorem add_condition (c : Spelling.Condition) {start : Nat} (h : g.reached ≤ start) :
    g.add (c.tree start) = .ok ⟨g.conditions ++ [c.written start], g.connectors,
      start + Text.byteLength c.chars⟩ := by
  have hpos : 0 < Text.byteLength c.chars :=
    Text.byteLength_pos (List.append_ne_nil_of_left_ne_nil c.column_ne_nil _)
  have hstop : ¬start + Text.byteLength c.chars ≤ g.reached := by omega
  show (if start + Text.byteLength c.chars ≤ g.reached then _
    else (Written.Condition.ofTree (c.tree start)).map _) = _
  rw [if_neg hstop, c.ofTree_tree]
  rfl

theorem add_connector (n : NextCondition) (start : Nat) :
    g.add (.mk .connector start n.keyword []) =
      .ok { g with connectors := g.connectors ++ [n.connector] } := by
  simp only [add, Tree.rule, Tree.text, n.ofKeyword?_keyword]

theorem foldlM_add_trees (n : NextCondition) {start : Nat} (h : g.reached ≤ start) :
    (n.trees start).foldlM add g = .ok ⟨g.conditions ++ [(n.written start).2],
      g.connectors ++ [n.connector], start + Text.byteLength n.chars⟩ := by
  have hplace : n.conditionStart start + Text.byteLength n.condition.chars =
      start + Text.byteLength n.chars := by
    simp [NextCondition.conditionStart, NextCondition.keywordStart, NextCondition.chars,
      Nat.add_assoc]
  have hreached : g.reached ≤ n.conditionStart start := by
    rw [NextCondition.conditionStart, NextCondition.keywordStart]
    omega
  have hcondition :=
    add_condition { g with connectors := g.connectors ++ [n.connector] } n.condition hreached
  rw [NextCondition.trees, List.foldlM_cons, add_connector]
  show [n.condition.tree _].foldlM add { g with connectors := g.connectors ++ [n.connector] } = _
  rw [List.foldlM_cons, hcondition, hplace]
  rfl

/-- The further conditions are gathered in their order, with the connectors before them. -/
theorem foldlM_add_others (others : List NextCondition) (start : Nat) (h : g.reached ≤ start) :
    ∃ stop, (layOut NextCondition.chars NextCondition.trees start others).flatten.foldlM add g =
      .ok ⟨g.conditions ++
          (layOut NextCondition.chars NextCondition.written start others).map (·.2),
        g.connectors ++
          (layOut NextCondition.chars NextCondition.written start others).map (·.1), stop⟩ := by
  induction others generalizing start g with
  | nil => exact ⟨g.reached, by simp [layOut, pure, Except.pure]⟩
  | cons n others ih =>
    obtain ⟨stop, hothers⟩ := ih ⟨g.conditions ++ [(n.written start).2],
      g.connectors ++ [n.connector], start + Text.byteLength n.chars⟩
      (start + Text.byteLength n.chars) (Nat.le_refl _)
    refine ⟨stop, ?_⟩
    rw [layOut, List.flatten_cons, List.foldlM_append, g.foldlM_add_trees n h]
    refine hothers.trans ?_
    simp [layOut, NextCondition.written]

end Written.Gathered

/-- The parts of a filter make it up again. -/
theorem Written.Filter.ofParts_parts (w : Written.Filter) :
    ofParts w.conditions w.connectors = .ok w := by
  have hlength : w.connectors.length = (w.others.map (·.2)).length := by simp [connectors]
  have hzip : w.connectors.zip (w.others.map (·.2)) = w.others := by
    rw [connectors, List.zip_map']
    exact List.map_id _
  rw [Written.Filter.conditions, ofParts, if_pos hlength, hzip]

/-- **The stretches of a spelling have the form that a filter is built from.** -/
theorem Spelling.Filter.ofTrees_tree (f : Filter) :
    Written.Filter.ofTrees [f.tree] = .ok f.written := by
  obtain ⟨stop, hothers⟩ := Written.Gathered.foldlM_add_others
    ⟨[f.first.written (Text.byteLength f.opening.chars)], [], f.othersStart⟩ f.others f.othersStart
    (Nat.le_refl _)
  show ((f.first.tree _ :: (_ ++ _)).foldlM Written.Gathered.add .empty).bind _ = _
  rw [List.foldlM_cons, Written.Gathered.add_condition _ f.first (Nat.zero_le _)]
  show ((_ ++ _ : List Tree).foldlM Written.Gathered.add
    ⟨[f.first.written (Text.byteLength f.opening.chars)], [], f.othersStart⟩).bind _ = _
  rw [List.foldlM_append, hothers]
  exact f.written.ofParts_parts

/-! ### Filters as whole texts -/

/-- **A spelling is read as what it says.** -/
theorem readFilter_text (f : Spelling.Filter) : Written.readFilter f.text = .ok f.written := by
  have hrun : (Grammar.pattern .filter).run 0 f.text.toList = some ⟨f.chars, [f.tree], []⟩ := by
    rw [Spelling.Filter.text, String.toList_ofList]
    exact Grammar.run_filter f
  rw [Written.readFilter, Written.readBy_of_run_eq_some hrun, f.ofTrees_tree]
  rfl

namespace Written

theorem exists_spelling_of_run {text : String} {m : Match}
    (h : (Grammar.pattern .filter).run 0 text.toList = some m) :
    ∃ f : Spelling.Filter, f.text = text := by
  obtain ⟨f, hf, -⟩ := Grammar.exists_filter_of_run h
  exact ⟨f, by rw [Spelling.Filter.text, ← hf, String.ofList_toList]⟩

end Written

/-- **Nothing is read but spellings.** -/
theorem readFilter_eq_ok {text : String} {w : Written.Filter} :
    Written.readFilter text = .ok w ↔ ∃ f : Spelling.Filter, f.text = text ∧ w = f.written := by
  constructor
  · intro h
    obtain ⟨m, hrun⟩ := Written.exists_run_of_readBy_eq_ok h
    obtain ⟨f, rfl⟩ := Written.exists_spelling_of_run hrun
    rw [readFilter_text] at h
    exact ⟨f, rfl, (Except.ok.inj h).symm⟩
  · rintro ⟨f, rfl, rfl⟩
    exact readFilter_text f

/-- **What is not read does not follow the grammar**: no misfit is ever found. -/
theorem readFilter_eq_error {text : String} {fault : Fault} :
    Written.readFilter text = .error fault ↔
      (Grammar.pattern .filter).run 0 text.toList = none ∧
        fault = .ofRejection (Grammar.rejection .filter text) text := by
  refine Written.readBy_eq_error_iff fun m hrun => ?_
  obtain ⟨f, rfl⟩ := Written.exists_spelling_of_run hrun
  exact ⟨f.written, readFilter_text f⟩

/-! ### Conditions as whole texts -/

namespace Written

open Pattern Grammar

theorem readCondition_text (v : Spelling.Condition) :
    readCondition (String.ofList v.chars) = .ok (v.written 0) := by
  have hcondition := run_condition v 0 (v.comparison.fits_of_stops .nil)
  rw [List.append_nil] at hcondition
  have hrun : (pattern .conditionOnly).run 0 (String.ofList v.chars).toList =
      some ⟨v.chars, [.mk .conditionOnly 0 v.chars
        [v.tree 0, .mk .endOfInput (Text.byteLength v.chars) [] []]], []⟩ := by
    rw [String.toList_ofList]
    refine run_node_eq_some.2 ⟨⟨v.chars, _, []⟩, ?_, rfl⟩
    rw [run_seq_of_some hcondition]
    simp [endOfInput, run, Match.append]
  rw [readCondition, readBy_of_run_eq_some hrun]
  show (Condition.ofTree (v.tree 0)).mapError _ = _
  rw [v.ofTree_tree]
  rfl

theorem exists_condition_of_run_only {text : String} {m : Match}
    (h : (pattern .conditionOnly).run 0 text.toList = some m) :
    ∃ v : Spelling.Condition, String.ofList v.chars = text := by
  obtain ⟨a, ha, -, htext, -⟩ := exists_of_run_only h
  obtain ⟨v, -, hv⟩ := exists_condition_of_run ha
  have hchars : v.chars = text.toList := by rw [← htext, hv]
  exact ⟨v, by rw [hchars, String.ofList_toList]⟩

/-- **Nothing but a condition is read as one.** -/
theorem readCondition_eq_ok {text : String} {c : Condition} : readCondition text = .ok c ↔
    ∃ v : Spelling.Condition, String.ofList v.chars = text ∧ c = v.written 0 := by
  constructor
  · intro h
    obtain ⟨m, hrun⟩ := exists_run_of_readBy_eq_ok h
    obtain ⟨v, rfl⟩ := exists_condition_of_run_only hrun
    rw [readCondition_text] at h
    exact ⟨v, rfl, (Except.ok.inj h).symm⟩
  · rintro ⟨v, rfl, rfl⟩
    exact readCondition_text v

theorem readCondition_eq_error {text : String} {fault : Fault} :
    readCondition text = .error fault ↔ (pattern .conditionOnly).run 0 text.toList = none ∧
      fault = .ofRejection (rejection .conditionOnly text) text := by
  refine readBy_eq_error_iff fun m hrun => ?_
  obtain ⟨v, rfl⟩ := exists_condition_of_run_only hrun
  exact ⟨v.written 0, readCondition_text v⟩

end Written

/-! ### Comparators -/

namespace Text

/-- Characters of a word are added to it. -/
theorem wordsFrom_append {cs : List Char} (h : ∀ c ∈ cs, isWhiteSpace c = false)
    (rest : List Char) : ∀ word, wordsFrom word (cs ++ rest) = wordsFrom (word ++ cs) rest := by
  induction cs with
  | nil =>
    intro word
    rw [List.nil_append, List.append_nil]
  | cons c cs ih =>
    intro word
    have hc : ¬isWhiteSpace c = true := by simp [h c (List.mem_cons_self ..)]
    rw [List.cons_append, wordsFrom, if_neg hc, ih fun d hd => h d (List.mem_cons_of_mem c hd),
      List.append_assoc, List.singleton_append]

theorem wordsFrom_nil_self {word : List Char} (hne : word ≠ [])
    (h : ∀ c ∈ word, isWhiteSpace c = false) : wordsFrom [] word = [word] := by
  have := wordsFrom_append h [] []
  rw [List.append_nil] at this
  rw [this, List.nil_append, wordsFrom, closeWord, if_neg (by simpa using hne)]

/-- White space between words is passed over. -/
theorem wordsFrom_nil_append {cs : List Char} (h : ∀ c ∈ cs, isWhiteSpace c = true)
    (rest : List Char) : wordsFrom [] (cs ++ rest) = wordsFrom [] rest := by
  induction cs with
  | nil => rfl
  | cons c cs ih =>
    rw [List.cons_append, wordsFrom, if_pos (h c (List.mem_cons_self ..)),
      ih fun d hd => h d (List.mem_cons_of_mem c hd)]
    rfl

/-- The white space behind a word ends it. -/
theorem wordsFrom_append_of_ne_nil {word cs : List Char} (hword : word ≠ []) (hcs : cs ≠ [])
    (h : ∀ c ∈ cs, isWhiteSpace c = true) (rest : List Char) :
    wordsFrom word (cs ++ rest) = word :: wordsFrom [] rest := by
  cases cs with
  | nil => exact absurd rfl hcs
  | cons c cs =>
    rw [List.cons_append, wordsFrom, if_pos (h c (List.mem_cons_self ..)),
      wordsFrom_nil_append fun d hd => h d (List.mem_cons_of_mem c hd), closeWord,
      if_neg (by simpa using hword)]

end Text

theorem Operator.ofSymbol_symbol (op : Operator) : ofSymbol op.symbol = op := by
  cases op <;> decide

namespace Spelling

/-- The words of a keyword, in their own case. -/
def Keyword.words : Keyword → List (List Char)
  | oneOf word _ => [word]
  | noneOf negation _ word _ _ _ => [negation, word]

/-- No letter of a word that is some keyword in any case is white space. -/
theorem isWhiteSpace_of_asciiLower {s : String} {word : List Char}
    (hs : s.toList.all Char.isLower = true) (h : Text.asciiLower word = s.toList) :
    ∀ c ∈ word, Text.isWhiteSpace c = false := fun c hc =>
  isWhiteSpace_eq_false_of_isWordChar (isWordChar_of_toLower
    (Grammar.isLower_toLower_of_mem hs h c hc))

theorem Keyword.words_chars (k : Keyword) : Text.words k.chars = k.words := by
  cases k with
  | oneOf word isIn =>
    have hne : word ≠ [] := Grammar.ne_nil_of_asciiLower (by decide) isIn
    rw [Keyword.chars, Text.words,
      Text.wordsFrom_nil_self hne (isWhiteSpace_of_asciiLower (by decide) isIn)]
    rfl
  | noneOf negation gap word isNot apart isIn =>
    have hne : word ≠ [] := Grammar.ne_nil_of_asciiLower (by decide) isIn
    have hne' : negation ≠ [] := Grammar.ne_nil_of_asciiLower (by decide) isNot
    rw [Keyword.chars, Text.words, Text.wordsFrom_append (isWhiteSpace_of_asciiLower (by decide) isNot) _ [],
      List.nil_append, Text.wordsFrom_append_of_ne_nil hne' apart
        (fun c hc => isWhiteSpace_of_isBlank (gap.blank c hc)),
      Text.wordsFrom_nil_self hne (isWhiteSpace_of_asciiLower (by decide) isIn)]
    rfl

theorem Keyword.normalSymbol_chars (k : Keyword) :
    Operator.normalSymbol (String.ofList k.chars) = k.operator.symbol := by
  rw [Operator.normalSymbol, String.toList_ofList, k.words_chars]
  cases k with
  | oneOf word isIn =>
    rw [Keyword.words, List.intercalate_singleton, isIn]
    rfl
  | noneOf negation gap word isNot apart isIn =>
    show String.ofList (Text.asciiLower (negation ++ ([' '] ++ (word ++ [])))) = _
    rw [List.append_nil, Text.asciiLower_append, Text.asciiLower_append, isNot, isIn]
    rfl

/-- **The case and the blanks of a keyword do not matter.** -/
theorem Keyword.ofSymbol_chars (k : Keyword) :
    Operator.ofSymbol (String.ofList k.chars) = k.operator := by
  rw [← k.operator.ofSymbol_symbol, Operator.ofSymbol, Operator.ofSymbol, k.normalSymbol_chars]
  cases k.operator <;> rfl

theorem Condition.operator_written (c : Condition) (start : Nat) :
    (c.written start).operator = c.comparison.operator := by
  show Operator.ofSymbol (String.ofList c.comparison.comparator) = _
  cases c.comparison with
  | single op gap item takesOne whole =>
    rw [Comparison.comparator, String.ofList_toList, Operator.ofSymbol_symbol]
    rfl
  | list keyword gap list => exact keyword.ofSymbol_chars

theorem Condition.outline_written (c : Condition) (start : Nat) :
    (c.written start).outline = c.outline := by
  have hvalue : (c.comparison.value (c.valueStart start)).isList = c.comparison.isList ∧
      (c.comparison.value (c.valueStart start)).items.map (·.lexeme.text) =
        c.comparison.items.map fun i => String.ofList i.chars := by
    cases c.comparison with
    | single op gap item takesOne whole => exact ⟨rfl, rfl⟩
    | list keyword gap l => exact ⟨rfl, l.text_putItems _⟩
  rw [Written.Condition.outline, Condition.outline, c.operator_written]
  exact congrArg₂ (Outline.mk _ _) hvalue.1 hvalue.2

theorem Filter.exists_of_mem {f : Filter} {c : Written.Condition}
    (h : c ∈ f.written.conditions) : ∃ (s : Condition) (start : Nat), c = s.written start := by
  rcases List.mem_cons.1 h with rfl | h
  · exact ⟨f.first, _, rfl⟩
  · obtain ⟨p, hp, rfl⟩ := List.mem_map.1 h
    obtain ⟨n, -, start, rfl⟩ := exists_of_mem_layOut hp
    exact ⟨n.condition, _, rfl⟩

theorem Filter.connectors_written (f : Filter) : f.written.connectors = f.connectors := by
  rw [Written.Filter.connectors, Filter.connectors, Filter.written, map_layOut_eq_map]
  exact fun start n => rfl

end Spelling

/-- **Every filter is read, however it is spelled.**  Its columns, operators, literals
and connectors are read as they were spelled. -/
theorem exists_readFilter_outline (f : Spelling.Filter) :
    ∃ w, Written.readFilter f.text = .ok w ∧
      w.conditions.map Written.Condition.outline = f.conditions.map Spelling.Condition.outline ∧
      w.connectors = f.connectors := by
  refine ⟨f.written, readFilter_text f, ?_, f.connectors_written⟩
  rw [Written.Filter.conditions, Spelling.Filter.conditions, Spelling.Filter.written,
    List.map_cons, List.map_cons, Spelling.Condition.outline_written, List.map_map, List.map_map,
    Spelling.map_layOut_eq_map]
  exact fun start n => n.condition.outline_written _

end ColumnFilter
