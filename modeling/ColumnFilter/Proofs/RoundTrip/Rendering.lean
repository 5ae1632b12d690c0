import ColumnFilter.Proofs.Reading.Conditions

/-!
# Canonical text is a spelling

The canonical text of a plain filter puts its parts together as a spelling does,
with single blanks in the gaps.  So it is read, and what it is read as stands
for the filter that it was written for (`parse_text`).
-/

namespace ColumnFilter

/-! ### Nothing is trimmed -/

/-- The text has a last character, and that is no white space. -/
def EndsBare (cs : List Char) : Prop :=
  cs ≠ [] ∧ Stops Text.isWhiteSpace cs.reverse

namespace EndsBare

variable {cs : List Char}

theorem append (ds : List Char) (h : EndsBare cs) : EndsBare (ds ++ cs) := by
  refine ⟨List.append_ne_nil_of_right_ne_nil ds h.1, ?_⟩
  rw [List.reverse_append]
  exact .append_of_ne_nil (by simpa using h.1) h.2

theorem concat (ds : List Char) {c : Char} (h : Text.isWhiteSpace c = false) :
    EndsBare (ds ++ [c]) :=
  .append ds ⟨List.cons_ne_nil _ _, Stops.cons_iff.2 h⟩

theorem of_forall (hne : cs ≠ []) (h : ∀ c ∈ cs, Text.isWhiteSpace c = false) : EndsBare cs :=
  ⟨hne, fun c hc => h c (List.mem_reverse.1 (List.mem_of_mem_head? hc))⟩

theorem of_all (hne : cs ≠ []) (h : (cs.all fun c => !Text.isWhiteSpace c) = true) :
    EndsBare cs :=
  .of_forall hne (by simpa using h)

end EndsBare

/-- White space is dropped at the ends only, and all that stands there. -/
theorem Text.trimChars_eq_self_iff {cs : List Char} :
    trimChars cs = cs ↔ Stops isWhiteSpace cs ∧ Stops isWhiteSpace cs.reverse := by
  constructor
  · intro h
    have hreverse : (cs.dropWhile isWhiteSpace).reverse.dropWhile isWhiteSpace = cs.reverse := by
      rw [← congrArg List.reverse h, trimChars, List.reverse_reverse]
    have hlength : cs.length ≤ (cs.dropWhile isWhiteSpace).length := by
      rw [← List.length_reverse, ← hreverse, ← (cs.dropWhile isWhiteSpace).length_reverse]
      exact (List.dropWhile_suffix _).length_le
    have hstart : cs.dropWhile isWhiteSpace = cs :=
      (List.dropWhile_suffix _).eq_of_length_le hlength
    exact ⟨hstart ▸ Stops.dropWhile isWhiteSpace cs, hreverse ▸ Stops.dropWhile isWhiteSpace _⟩
  · rintro ⟨hstart, hend⟩
    rw [trimChars, hstart.dropWhile_eq_self, hend.dropWhile_eq_self, List.reverse_reverse]

theorem Number.endsBare_plainChars (x : Number) : EndsBare x.plainChars := by
  cases x with
  | finite negative m hm =>
    refine .of_forall (plainChars_ne_nil _) fun c hc => ?_
    rcases mem_plainChars rfl hc with hdigit | rfl | rfl
    · exact isWhiteSpace_eq_false_of_isWordChar (by simp [Text.isWordChar, Char.isAlphanum, hdigit])
    · decide
    · decide
  | infinite negative => cases negative <;> exact .of_all (by decide) (by decide)
  | notANumber => exact .of_all (by decide) (by decide)

theorem Scalar.endsBare_chars (x : Scalar) : EndsBare x.chars := by
  cases x with
  | null => exact .of_all (by decide) (by decide)
  | boolean b => cases b <;> exact .of_all (by decide) (by decide)
  | number x => exact x.endsBare_plainChars
  | text s =>
    refine EndsBare.concat (quoteFor s.toList :: s.toList) ?_
    rw [quoteFor]
    split <;> decide

theorem Condition.endsBare_chars (c : Condition) : EndsBare c.chars := by
  refine .append c.column.toList (.append [' '] ?_)
  refine .append c.operator.symbol.toList (.append [' '] ?_)
  cases c.value with
  | single x => exact x.endsBare_chars
  | list xs =>
    have hclose : Text.isWhiteSpace ')' = false := by decide
    exact .concat ('(' :: [',', ' '].intercalate (xs.map Scalar.chars)) hclose

theorem Filter.endsBare_joined {conditions : List Condition} (h : conditions ≠ []) :
    ∀ connectors, EndsBare (joined conditions connectors) := by
  induction conditions with
  | nil => exact absurd rfl h
  | cons c cs ih =>
    intro ks
    cases cs with
    | nil => exact c.endsBare_chars
    | cons d ds =>
      have hrest := ih (List.cons_ne_nil _ _)
      cases ks with
      | nil => exact .append c.chars (hrest [])
      | cons k ks => exact .append (c.chars ++ k.spaced) (hrest ks)

/-! ### Values and conditions -/

namespace Spelling

/-- No blank. -/
def Gap.none : Gap where
  chars := []
  blank := fun _ h => (List.not_mem_nil h).elim

/-- A single space. -/
def Gap.space : Gap where
  chars := [' ']
  blank := fun _ h => List.mem_singleton.1 h ▸ rfl

theorem asciiLower_keyword (k : Connector) :
    Text.asciiLower k.keyword.toList = k.keyword.toList := by
  cases k <;> rfl

/-- The keyword of an operator that takes a list, as it is printed. -/
theorem exists_keyword_chars {op : Operator} (h : op.takesList = true) :
    ∃ k : Keyword, k.chars = op.symbol.toList ∧ k.operator = op := by
  cases op with
  | oneOf => exact ⟨.oneOf "in".toList rfl, rfl, rfl⟩
  | noneOf => exact ⟨.noneOf "not".toList .space "in".toList rfl (by decide) rfl, rfl, rfl⟩
  | _ => cases h

end Spelling

open Spelling

theorem intercalate_map_chars (x : Scalar) (xs : List Scalar) :
    [',', ' '].intercalate ((x :: xs).map Scalar.chars) =
      x.chars ++ xs.flatMap fun y => [',', ' '] ++ y.chars := by
  induction xs generalizing x with
  | nil => rw [List.map_singleton, List.intercalate_singleton, List.flatMap_nil, List.append_nil]
  | cons y ys ih =>
    rw [List.map_cons, List.map_cons, List.intercalate_cons_cons, ← List.map_cons, ih,
      List.flatMap_cons]
    simp only [List.append_assoc]

/-- The further elements of a list, with a comma and a space before each. -/
theorem exists_nextItems {xs : List Scalar} (h : ∀ x ∈ xs, x.isPlain = true) :
    ∃ others : List NextItem,
      others.flatMap NextItem.chars = xs.flatMap (fun y => [',', ' '] ++ y.chars) ∧
      ∀ type : ColumnType, (∀ x ∈ xs, x.fitsList type = true) → ∀ start,
        (layOut NextItem.chars (fun start n => n.item.written (n.itemStart start)) start others).map
          type.listItem = xs := by
  induction xs with
  | nil => exact ⟨[], rfl, fun _ _ _ => rfl⟩
  | cons x xs ih =>
    obtain ⟨others, hchars, hvalues⟩ := ih fun y hy => h y (List.mem_cons_of_mem x hy)
    have hx := h x (List.mem_cons_self ..)
    obtain ⟨i, hi⟩ := exists_item_chars hx
    refine ⟨⟨.none, .space, i⟩ :: others, ?_, ?_⟩
    · rw [List.flatMap_cons, List.flatMap_cons, hchars, NextItem.chars, hi]
      rfl
    · intro type hfits start
      have hitem : ∀ start, type.listItem (i.written start) = x := fun start =>
        ColumnType.listItem_of_chars ((i.chars_written start).trans hi)
          (hfits x (List.mem_cons_self ..)) hx
      rw [layOut, List.map_cons, hitem,
        hvalues type fun y hy => hfits y (List.mem_cons_of_mem x hy)]

theorem exists_itemList_chars {xs : List Scalar} (hne : xs ≠ []) (h : ∀ x ∈ xs, x.isPlain = true) :
    ∃ l : ItemList, l.chars = (Value.list xs).chars ∧
      ∀ type : ColumnType, (∀ x ∈ xs, x.fitsList type = true) → ∀ start,
        (l.putItems Item.written start).map type.listItem = xs := by
  cases xs with
  | nil => exact absurd rfl hne
  | cons x xs =>
    have hx := h x (List.mem_cons_self ..)
    obtain ⟨i, hi⟩ := exists_item_chars hx
    obtain ⟨others, hchars, hvalues⟩ := exists_nextItems fun y hy => h y (List.mem_cons_of_mem x hy)
    refine ⟨⟨.none, i, others, .none⟩, ?_, ?_⟩
    · rw [Value.chars, intercalate_map_chars, ← hchars, ← hi]
      simp [ItemList.chars, Gap.none]
    · intro type hfits start
      have hitem : ∀ start, type.listItem (i.written start) = x := fun start =>
        ColumnType.listItem_of_chars ((i.chars_written start).trans hi)
          (hfits x (List.mem_cons_self ..)) hx
      rw [ItemList.putItems, List.map_cons, hitem,
        hvalues type fun y hy => hfits y (List.mem_cons_of_mem x hy)]

theorem Condition.Consistent.isWordChar_column {s : Schema} {c : Condition} (h : c.Consistent s) :
    c.column.toList ≠ [] ∧ ∀ ch ∈ c.column.toList, Text.isWordChar ch = true := by
  have hword := h.isWord
  rw [Text.isWord, Bool.and_eq_true, List.all_eq_true] at hword
  exact ⟨by simpa using hword.1, hword.2⟩

/-- A condition that spells the column and the operator is read if its value is. -/
theorem Condition.Consistent.readCondition_written {s : Schema} {c : Condition}
    (h : c.Consistent s) {type : ColumnType} (htype : s.typeOf c.column = some type)
    (d : Spelling.Condition) (hcolumn : d.column = c.column.toList)
    (hop : d.comparison.operator = c.operator) (start : Nat)
    (hvalue : Schema.readValue c.column type (d.written start) = .ok c.value) :
    s.readCondition (d.written start) = .ok c := by
  have htext : (d.written start).column.text = c.column := by
    rw [Spelling.Condition.written, hcolumn, String.ofList_toList]
  rw [Schema.readCondition_eq_ok, htext, d.operator_written]
  exact ⟨h.resolve_eq, hop.symm, type, htype, hvalue⟩

/-- A space makes no symbol longer. -/
theorem Operator.isLengthened_space (op : Operator) : op.isLengthened [' '] = false := by
  cases op <;> decide

/-- **A consistent condition is read back, if it is plain.** -/
theorem exists_condition_chars {s : Schema} {c : Condition} (h : c.Consistent s)
    (hplain : c.isPlain = true) :
    ∃ d : Spelling.Condition, d.chars = c.chars ∧
      ∀ start, s.readCondition (d.written start) = .ok c := by
  obtain ⟨hne, hword⟩ := h.isWordChar_column
  obtain ⟨type, htype, hadmits⟩ := h.admits
  have hread := h.readCondition_written htype
  obtain ⟨column, op, value⟩ := c
  cases value with
  | single x =>
    rw [ColumnType.admits, Bool.and_eq_true] at hadmits
    obtain ⟨hsingle, hfits⟩ := hadmits
    have hx : x.isPlain = true := by simpa [Condition.isPlain, Value.items] using hplain
    have htakes : op.takesList = false := by
      rw [ColumnType.allowsSingle, Bool.and_eq_true, Bool.not_eq_true'] at hsingle
      exact hsingle.1
    obtain ⟨i, hi⟩ := exists_item_chars hx
    have hwhole : op.isLengthened ([' '] ++ i.chars) = false := by
      rw [Operator.isLengthened_append (List.cons_ne_nil _ _), op.isLengthened_space]
    refine ⟨⟨column.toList, .space, .single op .space i htakes hwhole, hne, hword, nofun⟩, ?_,
      fun start => ?_⟩
    · rw [Condition.chars, Spelling.Condition.chars, Value.chars, ← hi]
      rfl
    · refine hread _ rfl rfl start ?_
      obtain ⟨haccepts, hscalar⟩ :=
        ColumnType.scalar?_of_chars ((i.chars_written _).trans hi) hfits hx
      rw [Schema.readValue_single_eq_ok rfl, Spelling.Condition.operator_written]
      exact ⟨hsingle, haccepts, x, hscalar, rfl⟩
  | list xs =>
    simp only [ColumnType.admits, Bool.and_eq_true, Bool.not_eq_true', List.all_eq_true] at hadmits
    obtain ⟨⟨hlist, hnotempty⟩, hfits⟩ := hadmits
    have hxs : ∀ x ∈ xs, x.isPlain = true := by
      simpa [Condition.isPlain, Value.items] using hplain
    have hne' : xs ≠ [] := by simpa using hnotempty
    have htakes : op.takesList = true := by
      rw [ColumnType.allowsList, Bool.and_eq_true] at hlist
      exact hlist.1
    obtain ⟨k, hkchars, hkop⟩ := exists_keyword_chars htakes
    obtain ⟨l, hlchars, hlvalues⟩ := exists_itemList_chars hne' hxs
    refine ⟨⟨column.toList, .space, .list k .space l, hne, hword,
      fun _ => List.cons_ne_nil _ _⟩, ?_, fun start => ?_⟩
    · rw [Condition.chars, Spelling.Condition.chars, ← hlchars, ← hkchars]
      rfl
    · refine hread _ rfl (by exact hkop) start ?_
      rw [Schema.readValue_itemList_eq_ok rfl, Spelling.Condition.operator_written]
      show type.allowsList k.operator = true ∧ _
      rw [hkop, hlvalues type hfits]
      exact ⟨hlist, rfl⟩

/-! ### Filters -/

/-- The further conditions of a filter, with their connectors. -/
theorem exists_nextConditions {s : Schema} : ∀ (c : Condition) (cs : List Condition)
    (ks : List Connector), ks.length = cs.length → (∀ d ∈ cs, d.Consistent s) →
    (∀ d ∈ cs, d.isPlain = true) →
    ∃ others : List NextCondition,
      Filter.joined (c :: cs) ks = c.chars ++ others.flatMap NextCondition.chars ∧
      others.map (·.connector) = ks ∧
      ∀ start, List.Forall₂ (fun w c => s.readCondition w = .ok c)
        (layOut NextCondition.chars (fun start n => n.condition.written (n.conditionStart start))
          start others) cs := by
  intro c cs
  induction cs generalizing c with
  | nil =>
    intro ks hlength _ _
    obtain rfl := List.length_eq_zero_iff.1 hlength
    exact ⟨[], (List.append_nil _).symm, rfl, fun _ => .nil⟩
  | cons d ds ih =>
    intro ks hlength hconsistent hplain
    cases ks with
    | nil => cases hlength
    | cons k ks =>
      obtain ⟨others, hchars, hks, hread⟩ := ih d ks (Nat.succ.inj hlength)
        (fun e he => hconsistent e (List.mem_cons_of_mem d he))
        (fun e he => hplain e (List.mem_cons_of_mem d he))
      obtain ⟨d', hd'chars, hd'read⟩ := exists_condition_chars
        (hconsistent d (List.mem_cons_self ..)) (hplain d (List.mem_cons_self ..))
      refine ⟨⟨.space, k, k.keyword.toList, .space, d', List.cons_ne_nil _ _, asciiLower_keyword k,
        List.cons_ne_nil _ _⟩ :: others, ?_, ?_, fun start => ?_⟩
      · show c.chars ++ k.spaced ++ Filter.joined (d :: ds) ks = _
        rw [hchars, List.flatMap_cons, NextCondition.chars, hd'chars]
        simp [Connector.spaced, Gap.space]
      · rw [List.map_cons, hks]
      · rw [layOut]
        exact .cons (hd'read _) (hread _)

namespace Schema

/-- **What is parsed is a spelling whose conditions are read.** -/
theorem readTrimmed_eq_ok {s : Schema} {source : String} {f : Filter} :
    s.readTrimmed source = .ok f ↔ ∃ w : Spelling.Filter, w.text = source ∧
      s.readConditions w.written.conditions = .ok f.conditions ∧ w.connectors = f.connectors := by
  obtain ⟨conditions, connectors⟩ := f
  unfold readTrimmed
  constructor
  · intro h
    cases hread : Written.readFilter source with
    | error fault => rw [hread] at h; cases h
    | ok written =>
      obtain ⟨w, hw, rfl⟩ := readFilter_eq_ok.1 hread
      rw [hread] at h
      dsimp only at h
      cases hconditions : s.readConditions w.written.conditions with
      | error cause => rw [hconditions] at h; cases h
      | ok cs =>
        rw [hconditions] at h
        obtain ⟨rfl, rfl⟩ := Filter.mk.inj (Except.ok.inj h)
        exact ⟨w, hw, hconditions, w.connectors_written.symm⟩
  · rintro ⟨w, rfl, hconditions, rfl⟩
    rw [readFilter_text w]
    dsimp only
    rw [hconditions, w.connectors_written]

/-- The value of a spelled condition is that of its literal, or those of its list. -/
theorem readValue_written {name : String} {type : ColumnType} {w : Spelling.Condition} {start : Nat}
    {v : Value} (h : readValue name type (w.written start) = .ok v) :
    (∃ (i : Item) (place : Nat) (x : Scalar), w.comparison.valueChars = i.chars ∧
      type.allowsSingle w.comparison.operator = true ∧ type.accepts (i.written place) = true ∧
      type.scalar? (i.written place) = some x ∧ v = .single x) ∨
    (∃ (l : ItemList) (place : Nat), w.comparison.valueChars = l.chars ∧
      type.allowsList w.comparison.operator = true ∧
      v = .list ((l.putItems Item.written place).map type.listItem)) := by
  have hop := w.operator_written start
  cases hw : w.comparison with
  | single op gap item takesOne whole =>
    have hvalue : (w.written start).value = .single (item.written (w.valueStart start)) := by
      rw [Spelling.Condition.written, hw]
      rfl
    obtain ⟨hallows, haccepts, x, hx, rfl⟩ := (readValue_single_eq_ok hvalue).1 h
    rw [hop, hw] at hallows
    exact .inl ⟨item, _, x, rfl, hallows, haccepts, hx, rfl⟩
  | list keyword gap l =>
    have hvalue : (w.written start).value = l.written (w.valueStart start) := by
      rw [Spelling.Condition.written, hw]
      rfl
    obtain ⟨hallows, rfl⟩ := (readValue_itemList_eq_ok hvalue).1 h
    rw [hop, hw] at hallows
    exact .inr ⟨l, _, rfl, hallows, rfl⟩

end Schema

theorem Filter.stops_joined {c : Condition} {cs : List Condition} (ks : List Connector)
    (hne : c.column.toList ≠ []) (h : Stops Text.isWhiteSpace c.column.toList) :
    Stops Text.isWhiteSpace (joined (c :: cs) ks) := by
  have hchars : Stops Text.isWhiteSpace c.chars := .append_of_ne_nil hne h
  have hcne : c.chars ≠ [] := c.endsBare_chars.1
  cases cs with
  | nil => exact hchars
  | cons d ds =>
    cases ks with
    | nil => exact .append_of_ne_nil hcne hchars
    | cons k ks =>
      show Stops Text.isWhiteSpace (c.chars ++ k.spaced ++ joined (d :: ds) ks)
      rw [List.append_assoc]
      exact .append_of_ne_nil hcne hchars

/-- Canonical text is parsed as it stands, if no column begins with white space. -/
theorem Schema.parse_text_eq_readTrimmed (s : Schema) {f : Filter} (hne : f.conditions ≠ [])
    (hcolumns : ∀ c ∈ f.conditions,
      c.column.toList ≠ [] ∧ Stops Text.isWhiteSpace c.column.toList) :
    s.parse f.text = s.readTrimmed (String.ofList (Filter.joined f.conditions f.connectors)) := by
  have hstart : Stops Text.isWhiteSpace (Filter.joined f.conditions f.connectors) := by
    cases hcs : f.conditions with
    | nil => exact absurd hcs hne
    | cons c cs =>
      obtain ⟨hc, hstop⟩ := hcolumns c (hcs ▸ List.mem_cons_self ..)
      exact Filter.stops_joined f.connectors hc hstop
  have hend := Filter.endsBare_joined hne f.connectors
  have htrim := Text.trimChars_eq_self_iff.2 ⟨hstart, hend.2⟩
  have hnotempty : (String.ofList (Filter.joined f.conditions f.connectors)).isEmpty = false := by
    rw [String.isEmpty_eq_false_iff]
    intro h
    exact hend.1 (by simpa using congrArg String.toList h)
  rw [parse, Filter.text, Filter.chars, Text.trim, String.toList_ofList, htrim, htrim]
  exact if_neg (by simp [hnotempty])

theorem Filter.Consistent.parse_text_eq_readTrimmed {s : Schema} {f : Filter}
    (h : f.Consistent s) :
    s.parse f.text = s.readTrimmed (String.ofList (Filter.joined f.conditions f.connectors)) := by
  refine s.parse_text_eq_readTrimmed ?_ fun c hc => ?_
  · intro hnil
    have hlength := h.length_connectors
    rw [hnil] at hlength
    cases hlength
  · obtain ⟨hne, hword⟩ := (h.conditions c hc).isWordChar_column
    exact ⟨hne, fun ch hch =>
      isWhiteSpace_eq_false_of_isWordChar (hword ch (List.mem_of_mem_head? hch))⟩

/-- **The canonical text of a plain filter is read back.** -/
theorem parse_text {s : Schema} {f : Filter} (h : f.Consistent s) (hplain : f.isPlain = true) :
    s.parse f.text = .ok f := by
  rw [h.parse_text_eq_readTrimmed]
  obtain ⟨conditions, connectors⟩ := f
  cases conditions with
  | nil => exact absurd h.length_connectors (Nat.succ_ne_zero _)
  | cons c cs =>
    have hplain' : ∀ d ∈ c :: cs, d.isPlain = true := List.all_eq_true.1 hplain
    obtain ⟨d, hdchars, hdread⟩ := exists_condition_chars
      (h.conditions c (List.mem_cons_self ..)) (hplain' c (List.mem_cons_self ..))
    obtain ⟨others, hchars, hks, hread⟩ := exists_nextConditions c cs connectors
      (Nat.succ.inj h.length_connectors) (fun e he => h.conditions e (List.mem_cons_of_mem c he))
      (fun e he => hplain' e (List.mem_cons_of_mem c he))
    rw [Schema.readTrimmed_eq_ok]
    refine ⟨⟨.none, d, others, .none⟩, ?_, ?_, hks⟩
    · rw [Spelling.Filter.text, Spelling.Filter.chars, hchars, hdchars]
      simp [Gap.none]
    · rw [Written.Filter.conditions, Spelling.Filter.written, map_layOut]
      exact Schema.readConditions_eq_ok.2 (.cons (hdread _) (hread _))

end ColumnFilter
