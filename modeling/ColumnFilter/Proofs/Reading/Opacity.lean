import ColumnFilter.Proofs.Reading.Layout
import ColumnFilter.Proofs.Reading.ListLiteral

/-!
# What is between quotes

A text between quotes may be anything without the quote: keywords, commas, parentheses, line
breaks, the other quote, or nothing at all.  Whatever is put in its place, the literal ends where
it ended, the conditions are those there were, and the filter is the same but for that one text
(`parse_of_refilled`).

A literal is exchanged in a spelling from the inside out: in its list, in its comparison, in its
condition, and in the filter.  At each level there are characters in front and characters behind
which stay, so that the new spelling is known to stand in the new text.  The only thing that could
go wrong is a symbol that becomes longer by the literal behind it, so the literals that are
exchanged begin alike.  What is then read differs in that literal alone, because the columns which
take a text between quotes take all of them, as texts.
-/

namespace ColumnFilter

open Text Spelling

/-! ### One literal of a filter -/

namespace Value

/-- The value with another literal at a place. -/
def setItem (x : Scalar) : Nat → Value → Value
  | 0, single _ => single x
  | _ + 1, single y => single y
  | j, list ys => list (ys.set j x)

end Value

/-- Only the first character behind a symbol may make it longer. -/
theorem Operator.isLengthened_congr {op : Operator} {cs ds : List Char}
    (h : cs.head? = ds.head?) : op.isLengthened cs = op.isLengthened ds := by
  cases cs with
  | nil =>
    obtain rfl := List.head?_eq_none_iff.1 h.symm
    rfl
  | cons c cs =>
    obtain ⟨ds, rfl⟩ := List.head?_eq_some_iff.1 h.symm
    rfl

/-- The filter with another literal at a place of one of its conditions. -/
def Filter.setItem (f : Filter) (i j : Nat) (x : Scalar) : Filter where
  conditions := f.conditions.modify i fun c => { c with value := c.value.setItem x j }
  connectors := f.connectors

namespace Spelling

/-! ### One piece of a row -/

section Row

variable {α β : Type} {chars : α → List Char} {put : Nat → α → β}

theorem exists_eq_append_of_getElem? {as : List α} {k : Nat} {a : α} (h : as[k]? = some a) :
    ∃ before after, as = before ++ a :: after ∧ before.length = k := by
  obtain ⟨hk, rfl⟩ := List.getElem?_eq_some_iff.1 h
  refine ⟨as.take k, as.drop (k + 1), ?_, List.length_take_of_le hk.le⟩
  rw [List.getElem_cons_drop, List.take_append_drop]

theorem length_layOut (as : List α) (start : Nat) :
    (layOut chars put start as).length = as.length := by
  induction as generalizing start with
  | nil => rfl
  | cons a as ih => rw [layOut, List.length_cons, List.length_cons, ih]

theorem getElem?_layOut (before : List α) (a : α) (after : List α) : ∀ start,
    (layOut chars put start (before ++ a :: after))[before.length]? =
      some (put (start + byteLength (before.flatMap chars)) a) := by
  induction before with
  | nil => intro start; rfl
  | cons b before ih =>
    intro start
    rw [List.cons_append, layOut, List.length_cons, List.getElem?_cons_succ, ih,
      List.flatMap_cons, byteLength_append, Nat.add_assoc]

end Row

/-! ### A spelling with another literal -/

/-- A comparison and the same one with another literal at a place. -/
inductive Comparison.Refilled (item' : Item) : Comparison → Nat → Comparison → Prop
  | single {op : Operator} {gap : Gap} {item : Item} {takesOne : op.takesList = false}
      {whole : op.isLengthened (gap.chars ++ item.chars) = false}
      {whole' : op.isLengthened (gap.chars ++ item'.chars) = false} :
      Refilled item' (.single op gap item takesOne whole) 0 (.single op gap item' takesOne whole')
  | list {j : Nat} {keyword : Keyword} {gap : Gap} {l l' : ItemList} :
      l'.items = l.items.set j item' → Refilled item' (.list keyword gap l) j (.list keyword gap l')

variable {i j : Nat} {item : Item}

theorem Comparison.Refilled.operator_eq {e e' : Comparison} (h : e.Refilled item j e') :
    e'.operator = e.operator := by
  cases h with
  | single => rfl
  | list => rfl

theorem ItemList.exists_refilled {l : ItemList} (h : l.items[j]? = some item) :
    ∃ front back, l.chars = front ++ (item.chars ++ back) ∧
      (∀ start, (l.putItems Item.written start)[j]? =
        some (item.written (start + byteLength front))) ∧
      ∀ item' : Item, ∃ l' : ItemList, l'.chars = front ++ (item'.chars ++ back) ∧
        l'.items = l.items.set j item' := by
  obtain ⟨opening, first, others, closing⟩ := l
  cases j with
  | zero =>
    obtain rfl : first = item := Option.some.inj h
    refine ⟨['('] ++ opening.chars, others.flatMap NextItem.chars ++ (closing.chars ++ [')']),
      ?_, fun start => ?_, fun item' => ⟨⟨opening, item', others, closing⟩, ?_, rfl⟩⟩
    · simp [ItemList.chars]
    · rw [byteLength_append, ← Nat.add_assoc]
      rfl
    · simp [ItemList.chars]
  | succ k =>
    obtain ⟨n, hn, rfl⟩ : ∃ n, others[k]? = some n ∧ n.item = item := by
      simpa [ItemList.items] using h
    obtain ⟨before, after, rfl, rfl⟩ := exists_eq_append_of_getElem? hn
    refine ⟨['('] ++ opening.chars ++ first.chars ++ before.flatMap NextItem.chars ++
        (n.before.chars ++ [','] ++ n.after.chars),
      after.flatMap NextItem.chars ++ (closing.chars ++ [')']), ?_, fun start => ?_,
      fun item' => ⟨⟨opening, first, before ++ ⟨n.before, n.after, item'⟩ :: after, closing⟩, ?_,
        ?_⟩⟩
    · simp [ItemList.chars, NextItem.chars]
    · rw [ItemList.putItems, List.getElem?_cons_succ, getElem?_layOut, NextItem.itemStart]
      simp only [byteLength_append, Nat.add_assoc]
    · simp [ItemList.chars, NextItem.chars]
    · simp [ItemList.items]

theorem Comparison.length_items_value (e : Comparison) (start : Nat) :
    (e.value start).items.length = e.items.length := by
  cases e with
  | single => rfl
  | list keyword gap l =>
    show (l.putItems Item.written start).length = l.items.length
    rw [ItemList.putItems, ItemList.items, List.length_cons, List.length_cons, length_layOut,
      List.length_map]

theorem Condition.exists_refilled {c : Condition} (h : c.comparison.items[j]? = some item) :
    ∃ front back, c.chars = front ++ (item.chars ++ back) ∧
      (∀ start, (c.written start).value.items[j]? =
        some (item.written (start + byteLength front))) ∧
      ∀ item' : Item, item'.chars.head? = item.chars.head? →
        ∃ c' : Condition, c'.chars = front ++ (item'.chars ++ back) ∧ c'.column = c.column ∧
          c.comparison.Refilled item' j c'.comparison := by
  obtain ⟨column, gap, comparison, column_ne_nil, column_isWord, apart⟩ := c
  cases comparison with
  | single op inner found takesOne whole =>
    cases j with
    | succ k => cases h
    | zero =>
      obtain rfl : found = item := Option.some.inj h
      refine ⟨column ++ gap.chars ++ op.symbol.toList ++ inner.chars, [], ?_, fun start => ?_,
        fun item' hhead => ?_⟩
      · simp [Condition.chars, Comparison.chars, Comparison.comparator, Comparison.gap,
          Comparison.valueChars]
      · simp only [byteLength_append, ← Nat.add_assoc]
        rfl
      · have whole' : op.isLengthened (inner.chars ++ item'.chars) = false := by
          rw [← whole]
          exact Operator.isLengthened_congr (by rw [List.head?_append, List.head?_append, hhead])
        have apart' : (Comparison.single op inner item' takesOne whole').isList = true →
            gap.chars ≠ [] := by
          intro hlist
          cases hlist
        refine ⟨⟨column, gap, .single op inner item' takesOne whole', column_ne_nil,
          column_isWord, apart'⟩, ?_, rfl, .single⟩
        simp [Condition.chars, Comparison.chars, Comparison.comparator, Comparison.gap,
          Comparison.valueChars]
  | list keyword inner l =>
    obtain ⟨front, back, hchars, hplace, hrefill⟩ := ItemList.exists_refilled h
    refine ⟨column ++ gap.chars ++ keyword.chars ++ inner.chars ++ front, back, ?_,
      fun start => ?_, fun item' _ => ?_⟩
    · simp [Condition.chars, Comparison.chars, Comparison.comparator, Comparison.gap,
        Comparison.valueChars, hchars]
    · simp only [byteLength_append, ← Nat.add_assoc]
      exact hplace _
    · obtain ⟨l', hchars', hitems⟩ := hrefill item'
      refine ⟨⟨column, gap, .list keyword inner l', column_ne_nil, column_isWord, apart⟩, ?_, rfl,
        .list hitems⟩
      simp [Condition.chars, Comparison.chars, Comparison.comparator, Comparison.gap,
        Comparison.valueChars, hchars']

theorem Filter.exists_refilled {v : Filter} {c : Condition} (h : v.conditions[i]? = some c) :
    ∃ front back, v.chars = front ++ (c.chars ++ back) ∧
      v.written.conditions[i]? = some (c.written (byteLength front)) ∧
      ∀ c' : Condition, ∃ v' : Filter, v'.chars = front ++ (c'.chars ++ back) ∧
        v'.conditions = v.conditions.set i c' ∧ v'.connectors = v.connectors := by
  obtain ⟨opening, first, others, closing⟩ := v
  cases i with
  | zero =>
    obtain rfl : first = c := Option.some.inj h
    exact ⟨opening.chars, others.flatMap NextCondition.chars ++ closing.chars, rfl, rfl,
      fun c' => ⟨⟨opening, c', others, closing⟩, rfl, rfl, rfl⟩⟩
  | succ k =>
    obtain ⟨n, hn, rfl⟩ : ∃ n, others[k]? = some n ∧ n.condition = c := by
      simpa [Filter.conditions] using h
    obtain ⟨before, after, rfl, rfl⟩ := exists_eq_append_of_getElem? hn
    refine ⟨opening.chars ++ first.chars ++ before.flatMap NextCondition.chars ++
        (n.before.chars ++ n.keyword ++ n.after.chars),
      after.flatMap NextCondition.chars ++ closing.chars, ?_, ?_, fun c' =>
      ⟨⟨opening, first, before ++ { n with condition := c' } :: after, closing⟩, ?_, ?_, ?_⟩⟩
    · simp [Filter.chars, NextCondition.chars]
    · rw [Written.Filter.conditions, Filter.written, List.getElem?_cons_succ, List.getElem?_map,
        getElem?_layOut, Option.map_some, Filter.othersStart, NextCondition.written,
        NextCondition.conditionStart, NextCondition.keywordStart]
      simp only [byteLength_append, Nat.add_assoc]
    · simp [Filter.chars, NextCondition.chars]
    · simp [Filter.conditions]
    · simp [Filter.connectors]

/-! ### What the new literal stands for -/

end Spelling

namespace ColumnType

variable {type : ColumnType} {i : Item} {quote : Char} {inside : List Char}

/-- Only columns of text take a text between quotes as their one value. -/
theorem HasLiteral.eq_string {cs : List Char} (h : type.HasLiteral cs) (hquoted : IsQuotedText cs) :
    type = .string := by
  cases type with
  | string => rfl
  | number =>
    obtain ⟨quote, inside, hquote, -, rfl⟩ := hquoted
    rw [isQuote_iff] at hquote
    rcases h with hnull | hshape
    · obtain ⟨rfl, -⟩ := List.cons.inj hnull
      exact absurd hquote (by decide)
    · have hmem := hshape.isDigit_or_mem (List.mem_cons_self ..)
      rcases hquote with rfl | rfl <;> exact absurd hmem (by decide)
  | boolean => exact absurd h hquoted.asciiLower_notMem

theorem accepts_string_quoted (hquote : isQuote quote = true) (happart : quote ∉ inside)
    (start : Nat) :
    string.accepts ((Item.quoted quote inside hquote happart).written start) = true :=
  accepts_string_iff.2 (.inl ⟨quote, inside, hquote, happart, rfl⟩)

theorem scalar?_string_quoted (hquote : isQuote quote = true) (happart : quote ∉ inside)
    (start : Nat) : string.scalar? ((Item.quoted quote inside hquote happart).written start) =
      some (.text (String.ofList inside)) := by
  have hchars := (Item.quoted quote inside hquote happart).chars_written start
  rw [scalar?, if_pos (Written.Item.isQuoted_of_quote hchars hquote),
    Written.Item.unquoted_of_quote hchars hquote]

/-- In a list, a text between quotes is a text on all columns. -/
theorem listItem_quoted (hquote : isQuote quote = true) (happart : quote ∉ inside) (start : Nat) :
    type.listItem ((Item.quoted quote inside hquote happart).written start) =
      .text (String.ofList inside) := by
  have hquoted : IsQuotedText (Item.quoted quote inside hquote happart).chars :=
    ⟨quote, inside, hquote, happart, rfl⟩
  refine ListLiteral.unique ((listLiteral_listItem_iff type _ start).2 ?_) (.quoted hquote happart)
  rintro ⟨-, b, hb⟩
  exact not_isQuotedText_of_boolean hb hquoted

end ColumnType

namespace Spelling

variable {s : Schema} {c c' : Condition} {j : Nat} {quote : Char} {inside content : List Char}
  {hquote : isQuote quote = true} {hinside : quote ∉ inside} {hcontent : quote ∉ content}

theorem readValue_refilled {name : String} {type : ColumnType} {x : Value}
    (hitem : c.comparison.items[j]? = some (.quoted quote inside hquote hinside))
    (hrefilled : c.comparison.Refilled (.quoted quote content hquote hcontent) j c'.comparison)
    (h : Schema.readValue name type (c.written 0) = .ok x) :
    x.items[j]? = some (.text (String.ofList inside)) ∧
      Schema.readValue name type (c'.written 0) =
        .ok (x.setItem (.text (String.ofList content)) j) := by
  have hop : (c'.written 0).operator = (c.written 0).operator := by
    rw [Condition.operator_written, Condition.operator_written, hrefilled.operator_eq]
  generalize hc : c.comparison = e, hc' : c'.comparison = e' at hitem hrefilled
  cases hrefilled with
  | @single op gap item takesOne whole whole' =>
    obtain rfl := Option.some.inj hitem
    rw [Schema.readValue_single_eq_ok (Condition.value_written hc 0)] at h
    rw [Schema.readValue_single_eq_ok (Condition.value_written hc' 0), hop]
    obtain ⟨hallows, haccepts, y, hy, rfl⟩ := h
    have hliteral := (type.accepts_and_scalar?_iff _ _).1 ⟨haccepts, hy ▸ rfl⟩
    obtain rfl := hliteral.eq_string ⟨quote, inside, hquote, hinside, rfl⟩
    rw [ColumnType.scalar?_string_quoted] at hy
    obtain rfl := Option.some.inj hy
    exact ⟨rfl, hallows, ColumnType.accepts_string_quoted hquote hcontent _, _,
      ColumnType.scalar?_string_quoted hquote hcontent _, rfl⟩
  | @list _ keyword gap l l' hitems =>
    have hvalue : (c.written 0).value = l.written (c.valueStart 0) :=
      Condition.value_written hc 0
    have hvalue' : (c'.written 0).value = l'.written (c'.valueStart 0) :=
      Condition.value_written hc' 0
    have hread : ∀ cs happart, type.listItem
        ⟨.string, ⟨String.ofList (Item.quoted quote cs hquote happart).chars, 0⟩⟩ =
          .text (String.ofList cs) :=
      fun cs happart => type.listItem_quoted hquote happart 0
    rw [Schema.readValue_itemList_eq_ok hvalue] at h
    rw [Schema.readValue_itemList_eq_ok hvalue', hop]
    obtain ⟨hallows, rfl⟩ := h
    rw [map_listItem_putItems, map_listItem_putItems, hitems]
    refine ⟨?_, hallows, ?_⟩
    · have hitem' : l.items[j]? = some (.quoted quote inside hquote hinside) := hitem
      rw [Value.items, List.getElem?_map, List.getElem?_map, hitem', Option.map_some,
        Option.map_some, hread]
    · rw [List.map_set, List.map_set, hread]
      cases j <;> rfl

theorem Condition.meaning?_refilled {x : ColumnFilter.Condition}
    (hitem : c.comparison.items[j]? = some (.quoted quote inside hquote hinside))
    (hrefilled : c.comparison.Refilled (.quoted quote content hquote hcontent) j c'.comparison)
    (hcolumn : c'.column = c.column) (h : c.meaning? s = some x) :
    x.value.items[j]? = some (.text (String.ofList inside)) ∧
      c'.meaning? s = some { x with
        value := x.value.setItem (.text (String.ofList content)) j } := by
  rw [meaning?_eq_some, Schema.readCondition_eq_ok] at h ⊢
  obtain ⟨hresolve, hop, type, htype, hvalue⟩ := h
  obtain ⟨hread, hvalue'⟩ := readValue_refilled hitem hrefilled hvalue
  have hname : (c'.written 0).column.text = (c.written 0).column.text :=
    congrArg String.ofList hcolumn
  refine ⟨hread, ?_, ?_, type, ?_, hvalue'⟩
  · rw [hname]
    exact hresolve
  · rw [operator_written, hrefilled.operator_eq, ← operator_written]
    exact hop
  · rw [hname]
    exact htype

theorem Filter.length_conditions_written (v : Filter) :
    v.written.conditions.length = v.conditions.length := by
  rw [Written.Filter.conditions, Filter.conditions, Filter.written, List.length_cons,
    List.length_cons, List.length_map, List.length_map, length_layOut]

theorem Filter.readConditions_refilled {v v' : Filter} {i : Nat}
    {xs : List ColumnFilter.Condition}
    (hc : v.conditions[i]? = some c)
    (hitem : c.comparison.items[j]? = some (.quoted quote inside hquote hinside))
    (hrefilled : c.comparison.Refilled (.quoted quote content hquote hcontent) j c'.comparison)
    (hcolumn : c'.column = c.column) (hconditions : v'.conditions = v.conditions.set i c')
    (h : s.readConditions v.written.conditions = .ok xs) :
    (∃ x, xs[i]? = some x ∧ x.value.items[j]? = some (.text (String.ofList inside))) ∧
      s.readConditions v'.written.conditions = .ok (xs.modify i fun x =>
        { x with value := x.value.setItem (.text (String.ofList content)) j }) := by
  rw [readConditions_written_eq_ok] at h ⊢
  have hmeaning : (xs.map some)[i]? = some (c.meaning? s) := by
    rw [← h, List.getElem?_map, hc, Option.map_some]
  rw [List.getElem?_map, Option.map_eq_some_iff] at hmeaning
  obtain ⟨x, hx, hmeaning⟩ := hmeaning
  obtain ⟨hread, hmeaning'⟩ := c.meaning?_refilled hitem hrefilled hcolumn hmeaning.symm
  refine ⟨⟨x, hx, hread⟩, ?_⟩
  rw [hconditions, List.map_set, h, hmeaning', List.modify_eq_set_getElem?, hx, Option.map_eq_map,
    Option.map_some, Option.getD_some, List.map_set]

theorem Item.exists_quoted {k : Item} {start : Nat} (h : (k.written start).isQuoted = true) :
    ∃ quote inside hquote hinside, k = .quoted quote inside hquote hinside := by
  cases k with
  | quoted quote inside hquote hinside => exact ⟨quote, inside, hquote, hinside, rfl⟩
  | bare word nonempty isBare unquoted =>
    have hchars := (Item.bare word nonempty isBare unquoted).chars_written start
    rw [Written.Item.isQuoted_of_bare hchars unquoted] at h
    cases h

/-- **A spelling with other characters between two quotes** is one of the same conditions but for
that text. -/
theorem Filter.exists_refilled_quoted {v : Filter} {i j : Nat} {c : Written.Condition}
    (hc : v.written.conditions[i]? = some c) {item : Written.Item}
    (hitem : c.value.items[j]? = some item) (hquoted : item.isQuoted = true) :
    ∃ front quote inside back, isQuote quote = true ∧ quote ∉ inside ∧
      v.chars = front ++ quote :: (inside ++ quote :: back) ∧
      item.chars = quote :: (inside ++ [quote]) ∧ item.lexeme.start = byteLength front ∧
      ∀ content, quote ∉ content → ∃ v' : Filter,
        v'.chars = front ++ quote :: (content ++ quote :: back) ∧ v'.connectors = v.connectors ∧
        ∀ (s : Schema) (xs : List ColumnFilter.Condition),
          s.readConditions v.written.conditions = .ok xs →
          (∃ x, xs[i]? = some x ∧ x.value.items[j]? = some (.text (String.ofList inside))) ∧
            s.readConditions v'.written.conditions = .ok (xs.modify i fun x =>
              { x with value := x.value.setItem (.text (String.ofList content)) j }) := by
  -- the condition and the literal are spelled
  obtain ⟨d, hd⟩ : ∃ d, v.conditions[i]? = some d := by
    rw [← Option.isSome_iff_exists, isSome_getElem?, ← v.length_conditions_written]
    exact (List.getElem?_eq_some_iff.1 hc).1
  obtain ⟨front, back, hwhole, hplace, hset⟩ := Filter.exists_refilled hd
  obtain rfl := Option.some.inj (hplace.symm.trans hc)
  obtain ⟨k, hk⟩ : ∃ k, d.comparison.items[j]? = some k := by
    rw [← Option.isSome_iff_exists, isSome_getElem?, ← d.comparison.length_items_value]
    exact (List.getElem?_eq_some_iff.1 hitem).1
  obtain ⟨front', back', hcondition, hplace', hrefill⟩ := Condition.exists_refilled hk
  obtain rfl := Option.some.inj ((hplace' _).symm.trans hitem)
  obtain ⟨quote, inside, hquote, hinside, rfl⟩ := Item.exists_quoted hquoted
  have hsplit : ∀ cs : List Char,
      front ++ (front' ++ (quote :: (cs ++ [quote]) ++ back') ++ back) =
        front ++ front' ++ quote :: (cs ++ quote :: (back' ++ back)) := by
    simp
  refine ⟨front ++ front', quote, inside, back' ++ back, hquote, hinside, ?_,
    Item.chars_written _ _, (byteLength_append front front').symm, fun content hcontent => ?_⟩
  · rw [hwhole, hcondition]
    exact hsplit inside
  · obtain ⟨d', hcondition', hcolumn, hrefilled⟩ :=
      hrefill (.quoted quote content hquote hcontent) rfl
    obtain ⟨v', hwhole', hconditions, hconnectors⟩ := hset d'
    refine ⟨v', ?_, hconnectors, fun s xs hread =>
      readConditions_refilled hd hk hrefilled hcolumn hconditions hread⟩
    rw [hwhole', hcondition']
    exact hsplit content

end Spelling

/-! ### Ends of texts -/

section Ends

variable {front back cs ds : List Char} {c : Char}

/-- At the end of a text that was trimmed there is no white space. -/
theorem stops_trimChars (cs : List Char) :
    Stops isWhiteSpace (trimChars cs) ∧ Stops isWhiteSpace (trimChars cs).reverse := by
  have hfront : trimChars cs ++
      ((cs.dropWhile isWhiteSpace).reverse.takeWhile isWhiteSpace).reverse =
        cs.dropWhile isWhiteSpace := by
    rw [trimChars, ← List.reverse_append, List.takeWhile_append_dropWhile, List.reverse_reverse]
  refine ⟨.of_append (hfront ▸ Stops.dropWhile isWhiteSpace cs), ?_⟩
  rw [trimChars, List.reverse_reverse]
  exact Stops.dropWhile isWhiteSpace _

/-- What is behind the first character does not matter. -/
theorem stops_append_cons {accepts : Char → Bool} (h : Stops accepts (front ++ c :: cs)) :
    Stops accepts (front ++ c :: ds) := by
  cases front with
  | nil => exact Stops.cons_iff.2 (Stops.cons_iff.1 h)
  | cons d front => exact Stops.cons_iff.2 (Stops.cons_iff.1 h)

theorem stops_refilled
    (h : Stops isWhiteSpace (front ++ c :: (cs ++ c :: back)) ∧
      Stops isWhiteSpace (front ++ c :: (cs ++ c :: back)).reverse) :
    Stops isWhiteSpace (front ++ c :: (ds ++ c :: back)) ∧
      Stops isWhiteSpace (front ++ c :: (ds ++ c :: back)).reverse := by
  have hreverse : ∀ es : List Char, (front ++ c :: (es ++ c :: back)).reverse =
      back.reverse ++ c :: (es.reverse ++ c :: front.reverse) := by
    simp
  refine ⟨stops_append_cons h.1, ?_⟩
  rw [hreverse] at h ⊢
  exact stops_append_cons h.2

end Ends

/-- **What is between quotes is opaque.** -/
theorem parse_of_refilled {s : Schema} {text : String} {f : Filter} {w : Written.Filter}
    (h : s.parse text = .ok f) (hread : Written.readFilter (trim text) = .ok w) {i j : Nat}
    {c : Written.Condition} (hc : w.conditions[i]? = some c) {item : Written.Item}
    (hitem : c.value.items[j]? = some item) (hquoted : item.isQuoted = true) :
    ∃ before quote inside after, isQuote quote = true ∧ quote ∉ inside ∧
      text.toList = before ++ quote :: (inside ++ quote :: after) ∧
      item.chars = quote :: (inside ++ [quote]) ∧
      byteLength before = byteLength (text.toList.takeWhile isWhiteSpace) + item.lexeme.start ∧
      (∃ x, f.conditions[i]? = some x ∧ x.value.items[j]? = some (.text (String.ofList inside))) ∧
      ∀ content, quote ∉ content →
        s.parse (String.ofList (before ++ quote :: (content ++ quote :: after))) =
          .ok (f.setItem i j (.text (String.ofList content))) := by
  obtain ⟨v, hv, rfl⟩ := readFilter_eq_ok.1 hread
  obtain ⟨lead, trail, htext, hlead, htrail⟩ := exists_eq_append_trimChars text.toList
  have hends := stops_trimChars text.toList
  have hchars : trimChars text.toList = v.chars := (String.ofList_injective hv).symm
  obtain ⟨front, quote, inside, back, hquote, hinside, hsplit, hitemChars, hstart, hrefill⟩ :=
    Spelling.Filter.exists_refilled_quoted hc hitem hquoted
  rw [hchars] at htext hends
  rw [Schema.parse_eq_ok_iff_of_readFilter hread] at h
  obtain ⟨hconditions, hread_connectors⟩ := h
  refine ⟨lead ++ front, quote, inside, back ++ trail, hquote, hinside, ?_, hitemChars, ?_, ?_,
    fun content hcontent => ?_⟩
  · rw [htext, hsplit]
    simp
  · have hlead' : text.toList.takeWhile isWhiteSpace = lead := by
      rw [htext]
      exact Stops.takeWhile_append hlead (.append_of_ne_nil v.chars_ne_nil hends.1)
    rw [hlead', hstart, byteLength_append]
  · obtain ⟨v', -, -, hread'⟩ := hrefill [] List.not_mem_nil
    exact (hread' s f.conditions hconditions).1
  · obtain ⟨v', hsplit', hconnectors, hread'⟩ := hrefill content hcontent
    have hends' : Stops isWhiteSpace v'.chars ∧ Stops isWhiteSpace v'.chars.reverse := by
      rw [hsplit] at hends
      rw [hsplit']
      exact stops_refilled hends
    have htrim : v'.text = trim (String.ofList (lead ++ front ++ quote :: (content ++ quote ::
        (back ++ trail)))) := by
      have happend : lead ++ front ++ quote :: (content ++ quote :: (back ++ trail)) =
          lead ++ (v'.chars ++ trail) := by
        rw [hsplit']
        simp
      rw [happend, trim, String.toList_ofList,
        hlead.trimChars_append htrail hends'.1 ⟨v'.chars_ne_nil, hends'.2⟩]
      rfl
    rw [Schema.parse_eq_ok_iff_of_readFilter (htrim ▸ readFilter_text v')]
    refine ⟨(hread' s f.conditions hconditions).2, hread_connectors.trans ?_⟩
    rw [v.connectors_written, v'.connectors_written, hconnectors]

/-- The end of a list, a keyword and apostrophes between the quotes of a literal in a list. -/
theorem parse_of_refilled_keyword :
    ∃ f, (Schema.ofColumns [⟨"n", .string⟩, ⟨"k", .number⟩]).parse
        " n = 'x' or k in (\"y\", 0) " = .ok f ∧ f.conditions.length = 2 ∧
      (Schema.ofColumns [⟨"n", .string⟩, ⟨"k", .number⟩]).parse
        " n = 'x' or k in (\"', 1) and n = 'z\", 0) " =
          .ok (f.setItem 1 0 (.text "', 1) and n = 'z")) := by
  have hparse : (Schema.ofColumns [⟨"n", .string⟩, ⟨"k", .number⟩]).parse
      " n = 'x' or k in (\"y\", 0) " = .ok ⟨[⟨"n", .equal, .single (.text "x")⟩,
        ⟨"k", .oneOf, .list [.text "y", .number (.finite false 0 isDouble_zero)]⟩], [.or]⟩ := by
    decide +kernel
  have hread : Written.readFilter (trim " n = 'x' or k in (\"y\", 0) ") =
      .ok ⟨⟨⟨"n = 'x'", 0⟩, ⟨"n", 0⟩, ⟨"=", 2⟩, .single ⟨.string, ⟨"'x'", 4⟩⟩⟩,
        [(.or, ⟨⟨"k in (\"y\", 0)", 11⟩, ⟨"k", 11⟩, ⟨"in", 13⟩, .list ⟨"(\"y\", 0)", 16⟩
          [⟨.string, ⟨"\"y\"", 17⟩⟩, ⟨.number, ⟨"0", 22⟩⟩]⟩)]⟩ := by
    decide +kernel
  have hquoted : (Written.Item.mk .string ⟨"\"y\"", 17⟩).isQuoted = true := by decide
  obtain ⟨before, quote, inside, after, -, -, htext, hitem, hbefore, -, hrefill⟩ :=
    parse_of_refilled (i := 1) (j := 0) hparse hread rfl rfl hquoted
  obtain ⟨rfl, hinside⟩ : '"' = quote ∧ ['y'] ++ ['"'] = inside ++ [quote] := List.cons.inj hitem
  obtain rfl : ['y'] = inside := List.append_cancel_right hinside
  have hplace : byteLength " n = 'x' or k in (".toList = byteLength before := by
    rw [hbefore]
    decide
  have hsplit : " n = 'x' or k in (".toList ++ "\"y\", 0) ".toList =
    before ++ '"' :: (['y'] ++ '"' :: after) := htext
  obtain rfl : " n = 'x' or k in (".toList = before := by
    rw [← before_byteLength_append " n = 'x' or k in (".toList "\"y\", 0) ".toList, hplace, hsplit,
      before_byteLength_append]
  have hbehind : "\"y\"".toList ++ ", 0) ".toList = "\"y\"".toList ++ after :=
    List.append_cancel_left hsplit
  obtain rfl : ", 0) ".toList = after := List.append_cancel_left hbehind
  exact ⟨_, hparse, rfl, hrefill "', 1) and n = 'z".toList (by decide)⟩

end ColumnFilter
