import ColumnFilter.Proofs.Grammar.Attempts
import ColumnFilter.Proofs.Reading.Joining

/-!
# What a rejected text could have gone on with

A text that is rejected is cut at the furthest place at which a rule was tried
in vain.  The part before that place is the beginning of a filter, and each rule
that is reported there can go on with it to a filter (`Continues`).

The places that reading comes to are told apart by what may follow there:
`ConditionsEnd` says that a condition has come to an end, `Awaits` that blanks
and some piece may follow.  Each phrase of the grammar leads from one of these
places to another, and tries its rules only where they can go on.
-/

namespace ColumnFilter

open Text

/-- A text that is read as a filter. -/
def Accepted (text : String) : Prop :=
  ∃ w, Written.readFilter text = .ok w

/-- The text is the beginning of a filter that has, behind optional blanks, a match of a
rule next; the end of the input follows a text that is a filter itself. -/
def Continues : Rule → List Char → Prop
  | .endOfInput, front => Accepted (String.ofList front)
  | r, front => ∃ (gap : Spelling.Gap) (word more : List Char),
      (∃ m, (Grammar.pattern r).run (byteLength (front ++ gap.chars)) (word ++ more) = some m ∧
        m.text = word) ∧
      Accepted (String.ofList (front ++ (gap.chars ++ (word ++ more))))

namespace Spelling

variable {front back rest : List Char}

/-! ### Places -/

/-- A condition ends at the place: further ones may follow, or the end of the filter. -/
def ConditionsEnd (front : List Char) : Prop :=
  ∀ (others : List NextCondition) (closing : Gap), Accepted (String.ofList
    (front ++ (others.flatMap NextCondition.chars ++ closing.chars)))

/-- A literal of a list ends at the place: further ones may follow, or the end of the list. -/
def ItemsEnd (front : List Char) : Prop :=
  ∀ (others : List NextItem) (closing : Gap), ConditionsEnd
    (front ++ (others.flatMap NextItem.chars ++ (closing.chars ++ [')'])))

/-- Blanks may follow at the place and then any of some pieces, with which a goal is reached. -/
def Awaits {α : Type} (chars : α → List Char) (goal : List Char → Prop) (front : List Char) :
    Prop :=
  ∀ (gap : Gap) (a : α), goal (front ++ (gap.chars ++ chars a))

/-- A condition is due. -/
abbrev AwaitsCondition : List Char → Prop :=
  Awaits Condition.chars ConditionsEnd

/-- A column and blanks have been read, and the column could not be longer. -/
def BehindColumn (front back : List Char) : Prop :=
  ∃ (before column : List Char) (gap : Gap), AwaitsCondition before ∧ column ≠ [] ∧
    (∀ c ∈ column, isWordChar c = true) ∧ front = before ++ (column ++ gap.chars) ∧
    (gap.chars = [] → Stops isWordChar back)

/-- A condition and blanks have been read, so that a connector may follow. -/
def BehindBlank (front : List Char) : Prop :=
  ∃ (before : List Char) (gap : Gap), ConditionsEnd before ∧ gap.chars ≠ [] ∧
    front = before ++ gap.chars

theorem awaitsCondition_nil : AwaitsCondition [] := by
  intro gap c others closing
  have h := readFilter_text ⟨gap, c, others, closing⟩
  exact ⟨_, by simpa [Filter.text, Filter.chars] using h⟩

namespace ConditionsEnd

theorem accepted (h : ConditionsEnd front) (closing : Gap) :
    Accepted (String.ofList (front ++ closing.chars)) :=
  h [] closing

theorem accepted_self (h : ConditionsEnd front) : Accepted (String.ofList front) := by
  simpa [Gap.none] using h.accepted .none

theorem append (h : ConditionsEnd front) (n : NextCondition) :
    ConditionsEnd (front ++ n.chars) := by
  intro others closing
  simpa using h (n :: others) closing

end ConditionsEnd

namespace ItemsEnd

theorem closed (h : ItemsEnd front) : ConditionsEnd (front ++ [')']) := by
  simpa [Gap.none] using h [] .none

theorem append (h : ItemsEnd front) (n : NextItem) : ItemsEnd (front ++ n.chars) := by
  intro others closing
  simpa using h (n :: others) closing

/-- Behind a comma a further literal is due. -/
theorem awaits_comma (h : ItemsEnd front) (before : Gap) :
    Awaits Item.chars ItemsEnd (front ++ before.chars ++ [',']) := by
  intro after i
  simpa [NextItem.chars] using h.append ⟨before, after, i⟩

end ItemsEnd

namespace Awaits

variable {α : Type} {chars : α → List Char} {goal : List Char → Prop}

theorem append_gap (h : Awaits chars goal front) (gap : Gap) :
    Awaits chars goal (front ++ gap.chars) := by
  intro gap' a
  simpa [Gap.append] using h (gap.append gap') a

theorem reaches (h : Awaits chars goal front) (a : α) : goal (front ++ chars a) :=
  h .none a

/-- Behind its parenthesis a list awaits a literal. -/
theorem parenthesis (h : Awaits ItemList.chars ConditionsEnd front) :
    Awaits Item.chars ItemsEnd (front ++ ['(']) := by
  intro opening i others closing
  simpa [ItemList.chars] using h.reaches ⟨opening, i, others, closing⟩

end Awaits

namespace BehindColumn

/-- A blank keeps a comparator apart from the column. -/
theorem awaits_comparison (h : BehindColumn front back) :
    Awaits (fun c : Comparison => ' ' :: c.chars) ConditionsEnd front := by
  obtain ⟨before, column, gap, hbefore, hne, hword, rfl, -⟩ := h
  intro gap' c
  have hspaced : ((gap.append gap').append .space).chars ≠ [] := by
    simp [Gap.append, Gap.space]
  simpa [Condition.chars, Gap.append, Gap.space] using
    hbefore.reaches ⟨column, (gap.append gap').append .space, c, hne, hword, fun _ => hspaced⟩

/-- A blank keeps a literal apart from the symbol. -/
theorem awaits_item (h : BehindColumn front back) {op : Operator} (hop : op.takesList = false) :
    Awaits (fun i : Item => ' ' :: i.chars) ConditionsEnd (front ++ op.symbol.toList) := by
  obtain ⟨before, column, gap, hbefore, hne, hword, rfl, -⟩ := h
  intro gap' i
  have hwhole : op.isLengthened ((gap'.append .space).chars ++ i.chars) = false :=
    Grammar.isLengthened_gap op _ (by simp [Gap.append, Gap.space]) _
  simpa [Condition.chars, Comparison.chars, Comparison.comparator, Comparison.gap,
    Comparison.valueChars, Gap.append, Gap.space] using
    hbefore.reaches ⟨column, gap, .single op (gap'.append .space) i hop hwhole, hne, hword,
      fun hlist => by cases hlist⟩

/-- A keyword that is read stands apart from the column, so a list may follow at once. -/
theorem awaits_list {k : Keyword} (h : BehindColumn front (k.chars ++ rest)) :
    Awaits ItemList.chars ConditionsEnd (front ++ k.chars) := by
  obtain ⟨before, column, gap, hbefore, hne, hword, rfl, hstop⟩ := h
  intro gap' l
  have hspaced : gap.chars ≠ [] := fun hnil => k.not_stops_isWordChar rest (hstop hnil)
  simpa [Condition.chars, Comparison.chars, Comparison.comparator, Comparison.gap,
    Comparison.valueChars] using
    hbefore.reaches ⟨column, gap, .list k gap' l, hne, hword, fun _ => hspaced⟩

end BehindColumn

/-- Behind a connector and a blank a further condition is due. -/
theorem BehindBlank.awaitsCondition (h : BehindBlank front) {k : Connector} {keyword : List Char}
    (hkeyword : asciiLower keyword = k.keyword.toList) (gap : Gap) (hne : gap.chars ≠ []) :
    AwaitsCondition (front ++ keyword ++ gap.chars) := by
  obtain ⟨before, gap', hbefore, hne', rfl⟩ := h
  intro gap'' c
  have hspaced : (gap.append gap'').chars ≠ [] := List.append_ne_nil_of_left_ne_nil hne _
  simpa [NextCondition.chars, Gap.append] using
    hbefore.append ⟨gap', k, keyword, gap.append gap'', c, hne', hkeyword, hspaced⟩

/-- A literal may follow behind a blank, and something that is no part of it is enough to go
on to a filter. -/
def OffersItem (front : List Char) : Prop :=
  ∃ more, Stops Grammar.isBare more ∧
    ∀ i : Item, Accepted (String.ofList (front ++ ([' '] ++ (i.chars ++ more))))

theorem Awaits.offersItem_single
    (h : Awaits (fun i : Item => ' ' :: i.chars) ConditionsEnd front) : OffersItem front := by
  refine ⟨[], .nil, fun i => ?_⟩
  simpa using (h.reaches i).accepted_self

theorem Awaits.offersItem_list (h : Awaits Item.chars ItemsEnd front) : OffersItem front := by
  refine ⟨[')'], Stops.cons_iff.2 (by decide), fun i => ?_⟩
  simpa [Gap.space] using (h .space i).closed.accepted_self

end Spelling

/-! ### What may follow -/

namespace Continues

open Pattern Grammar Spelling

variable {front back : List Char}

theorem of_run {r : Rule} {word more : List Char} {m : Match} (hr : r ≠ .endOfInput) (gap : Gap)
    (hrun : run (pattern r) (byteLength (front ++ gap.chars)) (word ++ more) = some m)
    (htext : m.text = word)
    (h : Accepted (String.ofList (front ++ (gap.chars ++ (word ++ more))))) :
    Continues r front := by
  cases r <;> first
    | exact absurd rfl hr
    | exact ⟨gap, word, more, ⟨m, hrun, htext⟩, h⟩

theorem exists_accepted {r : Rule} (h : Continues r front) :
    ∃ more, Accepted (String.ofList (front ++ more)) := by
  cases r with
  | endOfInput => exact ⟨[], by rwa [List.append_nil]⟩
  | _ =>
    obtain ⟨gap, word, more, -, haccepted⟩ := h
    exact ⟨gap.chars ++ (word ++ more), haccepted⟩

/-! The shortest pieces serve as continuations: `a=1`, `in(1)` and what they are made of. -/

/-- The literal `1`. -/
def one : Item :=
  .bare ['1'] (by decide) (List.all_eq_true.1 (by decide)) (Stops.cons_iff.2 (by decide))

/-- The comparison `=1`. -/
def equalsOne : Comparison :=
  .single .equal .none one rfl rfl

/-- The list `(1)`. -/
def listOfOne : ItemList :=
  ⟨.none, one, [], .none⟩

/-- The comparison `in(1)`. -/
def inListOfOne : Comparison :=
  .list (.oneOf ['i', 'n'] rfl) .none listOfOne

/-- The condition `a=1`. -/
def columnEqualsOne : Spelling.Condition :=
  ⟨['a'], .none, equalsOne, by decide, List.all_eq_true.1 (by decide), nofun⟩

theorem itemString (h : OffersItem front) : Continues .itemString front := by
  obtain ⟨more, -, h⟩ := h
  have hrun : run (pattern .itemString) (byteLength (front ++ Gap.space.chars))
      (['"', '"'] ++ more) = some ⟨['"', '"'], _, more⟩ :=
    run_itemString_of_quoted rfl List.not_mem_nil _ more
  exact of_run nofun .space hrun rfl (h (.quoted '"' [] rfl List.not_mem_nil))

theorem itemBoolean (h : OffersItem front) : Continues .itemBoolean front := by
  obtain ⟨more, hstop, h⟩ := h
  have hrun : run (pattern .itemBoolean) (byteLength (front ++ Gap.space.chars))
      (['t', 'r', 'u', 'e'] ++ more) = some ⟨['t', 'r', 'u', 'e'], _, more⟩ :=
    (run_itemBoolean_of_bare (List.all_eq_true.1 (by decide)) hstop).trans (if_pos (by decide))
  exact of_run nofun .space hrun rfl
    (h (.bare ['t', 'r', 'u', 'e'] (by decide) (List.all_eq_true.1 (by decide))
      (Stops.cons_iff.2 (by decide))))

theorem itemNumber (h : OffersItem front) : Continues .itemNumber front := by
  obtain ⟨more, hstop, h⟩ := h
  have hrun : run (pattern .itemNumber) (byteLength (front ++ Gap.space.chars)) (['1'] ++ more) =
      some ⟨['1'], _, more⟩ :=
    (run_itemNumber_of_unquoted (List.all_eq_true.1 (by decide)) hstop
      (Stops.cons_iff.2 (by decide))).trans (if_neg (by decide))
  exact of_run nofun .space hrun rfl (h one)

theorem itemList (h : Awaits ItemList.chars ConditionsEnd front) : Continues .itemList front := by
  have hrun : run (pattern .itemList) (byteLength (front ++ Gap.none.chars))
      (['(', '1', ')'] ++ []) = some ⟨['(', '1', ')'], _, []⟩ := run_itemList listOfOne _ []
  exact of_run nofun .none hrun rfl (h.reaches listOfOne).accepted_self

theorem comparatorSingle (h : BehindColumn front back) : Continues .comparatorSingle front := by
  have hrun : run (pattern .comparatorSingle) (byteLength (front ++ Gap.space.chars))
      (['='] ++ ['1']) = some ⟨['='], _, ['1']⟩ :=
    run_comparatorSingle (show Operator.equal.takesList = false from rfl) rfl _
  exact of_run nofun .space hrun rfl (h.awaits_comparison.reaches equalsOne).accepted_self

theorem comparatorMultiple (h : BehindColumn front back) : Continues .comparatorMultiple front := by
  have hrun : run (pattern .comparatorMultiple) (byteLength (front ++ Gap.space.chars))
      (['i', 'n'] ++ ['(', '1', ')']) = some ⟨['i', 'n'], _, ['(', '1', ')']⟩ :=
    run_comparatorMultiple (.oneOf ['i', 'n'] rfl) _ _
  exact of_run nofun .space hrun rfl (h.awaits_comparison.reaches inListOfOne).accepted_self

theorem condition (h : AwaitsCondition front) : Continues .condition front := by
  have hrun : run (pattern .condition) (byteLength (front ++ Gap.none.chars))
      (['a', '=', '1'] ++ []) = some ⟨['a', '=', '1'], _, []⟩ :=
    run_condition columnEqualsOne _ (columnEqualsOne.comparison.fits_of_stops .nil)
  exact of_run nofun .none hrun rfl (h.reaches columnEqualsOne).accepted_self

theorem column (h : AwaitsCondition front) : Continues .column front := by
  have hrun : run (pattern .column) (byteLength (front ++ Gap.none.chars))
      (['a'] ++ ['=', '1']) = some ⟨['a'], _, ['=', '1']⟩ :=
    run_column _ (by decide) (List.all_eq_true.1 (by decide)) (Stops.cons_iff.2 (by decide))
  exact of_run nofun .none hrun rfl (h.reaches columnEqualsOne).accepted_self

theorem filter : Continues .filter [] := by
  have hrun : run (pattern .filter) (byteLength ([] ++ Gap.none.chars)) (['a', '=', '1'] ++ []) =
      some ⟨['a', '=', '1'], _, []⟩ := run_filter ⟨.none, columnEqualsOne, [], .none⟩
  exact of_run nofun .none hrun rfl (awaitsCondition_nil.reaches columnEqualsOne).accepted_self

theorem connector (h : BehindBlank front) : Continues .connector front := by
  have hrun : run (pattern .connector) (byteLength (front ++ Gap.none.chars))
      (['o', 'r'] ++ [' ', 'a', '=', '1']) = some ⟨['o', 'r'], _, [' ', 'a', '=', '1']⟩ :=
    run_connector (k := .or) rfl (Stops.cons_iff.2 (by decide)) _
  have hcondition : AwaitsCondition (front ++ ['o', 'r'] ++ [' ']) :=
    h.awaitsCondition (k := .or) rfl .space (by decide)
  refine of_run nofun .none hrun rfl ?_
  have haccepted := (hcondition.reaches columnEqualsOne).accepted_self
  rw [List.append_assoc, List.append_assoc] at haccepted
  exact haccepted

end Continues

/-! ### Where the grammar tries its rules -/

namespace Grammar

open Pattern Spelling

variable {α : Type} {chars : α → List Char} {goal : List Char → Prop}

theorem leads_blanks :
    Leads (fun front _ => Awaits chars goal front) (fun front _ => Awaits chars goal front)
      blanks := by
  intro front back m h hm
  obtain ⟨gap, hgap, -⟩ := exists_gap_of_run_blanks hm
  rw [hgap]
  exact h.append_gap gap

theorem silent_blanks : Silent blanks :=
  .star (.one _)

theorem silent_blanks1 : Silent blanks1 :=
  .seq (.one _) silent_blanks

theorem tries_item : Tries Continues (fun front _ => OffersItem front) item :=
  show Tries _ _ (alt itemString (alt itemBoolean itemNumber)) from
    .alt (.leaf fun _ _ => Continues.itemString)
      (.alt (.leaf fun _ _ => Continues.itemBoolean) (.leaf fun _ _ => Continues.itemNumber))

/-! #### Lists -/

theorem leads_item : Leads (fun front _ => Awaits Item.chars ItemsEnd front)
    (fun front _ => ItemsEnd front) item := by
  intro front back m h hm
  obtain ⟨i, -, hi⟩ := exists_item_of_run hm
  rw [hi]
  exact h.reaches i

theorem leads_nextItem :
    Leads (fun front _ => ItemsEnd front) (fun front _ => ItemsEnd front) nextItem := by
  intro front back m h hm
  obtain ⟨n, hn⟩ := exists_nextItem_of_run hm
  rw [hn]
  exact h.append n

theorem tries_nextItem : Tries Continues (fun front _ => ItemsEnd front) nextItem := by
  have hblanks : Leads (fun front _ => ItemsEnd front) (fun front _ => ∃ before gap,
      ItemsEnd before ∧ front = before ++ Gap.chars gap) blanks := by
    intro front back m h hm
    obtain ⟨gap, hgap, -⟩ := exists_gap_of_run_blanks hm
    rw [hgap]
    exact ⟨front, gap, h, rfl⟩
  have hcomma : Leads (fun front _ => ∃ before gap, ItemsEnd before ∧
      front = before ++ Gap.chars gap) (fun front _ => Awaits Item.chars ItemsEnd front)
      (exactly ",") := by
    rintro front back m ⟨before, gap, h, rfl⟩ hm
    rw [(run_exactly_eq_some.1 hm).1]
    exact h.awaits_comma gap
  show Tries _ _ (seq blanks (seq (exactly ",") (seq blanks item)))
  refine .seq silent_blanks.tries hblanks (.seq (Silent.one _).tries hcomma
    (.seq silent_blanks.tries leads_blanks (tries_item.imp ?_)))
  exact fun front _ h => h.offersItem_list

theorem tries_itemList :
    Tries Continues (fun front _ => Awaits ItemList.chars ConditionsEnd front) itemList := by
  have hopen : Leads (fun front _ => Awaits ItemList.chars ConditionsEnd front)
      (fun front _ => Awaits Item.chars ItemsEnd front) (exactly "(") := by
    intro front back m h hm
    rw [(run_exactly_eq_some.1 hm).1]
    exact h.parenthesis
  have hend : Silent (seq blanks (exactly ")")) := .seq silent_blanks (.one _)
  refine .node (fun front _ => Continues.itemList) ?_
  show Tries _ _ (seq (exactly "(") (seq blanks (seq item (seq (star nextItem)
    (seq blanks (exactly ")"))))))
  refine .seq (Silent.one _).tries hopen (.seq silent_blanks.tries leads_blanks
    (.seq (tries_item.imp ?_) leads_item
      (.seq (tries_nextItem.star leads_nextItem) leads_nextItem.star hend.tries)))
  exact fun front _ h => h.offersItem_list

/-! #### Conditions -/

theorem leads_column : Leads (fun front _ => AwaitsCondition front) BehindColumn column := by
  intro front back m h hm
  obtain ⟨name, hname, hne, hword, hstop⟩ := exists_name_of_run_column hm
  rw [hname]
  refine ⟨front, name, .none, h, hne, hword, ?_, fun _ => hstop⟩
  rw [Gap.none, List.append_nil]

theorem leads_blanks_behindColumn : Leads BehindColumn BehindColumn blanks := by
  rintro front back m ⟨before, column, gap, h, hne, hword, rfl, hstop⟩ hm
  obtain ⟨gap', hgap, -⟩ := exists_gap_of_run_blanks hm
  have hback := text_append_rest hm
  rw [hgap] at hback ⊢
  refine ⟨before, column, gap.append gap', h, hne, hword, by simp [Gap.append], fun hnil => ?_⟩
  obtain ⟨hnil, hnil'⟩ := List.append_eq_nil_iff.1 hnil
  rw [← hback, hnil', List.nil_append] at hstop
  exact hstop hnil

theorem tries_singleValue : Tries Continues BehindColumn singleValue := by
  have hsymbol : Leads BehindColumn
      (fun front _ => Awaits (fun i : Item => ' ' :: i.chars) ConditionsEnd front)
      comparatorSingle := by
    intro front back m h hm
    obtain ⟨op, hop, -, hm⟩ := exists_operator_of_run hm
    rw [hm]
    exact h.awaits_item hop
  show Tries _ _ (seq comparatorSingle (seq blanks item))
  refine .seq (.leaf fun _ _ => Continues.comparatorSingle) hsymbol
    (.seq silent_blanks.tries leads_blanks (tries_item.imp ?_))
  exact fun front _ h => h.offersItem_single

theorem tries_multiValue : Tries Continues BehindColumn multiValue := by
  have hkeyword : Leads BehindColumn
      (fun front _ => Awaits ItemList.chars ConditionsEnd front) comparatorMultiple := by
    intro front back m h hm
    obtain ⟨k, hk⟩ := exists_keyword_of_run hm
    rw [← text_append_rest hm, hk] at h
    rw [hk]
    exact h.awaits_list
  show Tries _ _ (seq comparatorMultiple (seq blanks itemList))
  exact .seq (.leaf fun _ _ => Continues.comparatorMultiple) hkeyword
    (.seq silent_blanks.tries leads_blanks tries_itemList)

theorem tries_condition : Tries Continues (fun front _ => AwaitsCondition front) condition := by
  refine .node (fun front _ => Continues.condition) ?_
  show Tries _ _ (seq column (seq blanks (alt singleValue multiValue)))
  exact .seq (.leaf fun _ _ => Continues.column) leads_column
    (.seq silent_blanks.tries leads_blanks_behindColumn (.alt tries_singleValue tries_multiValue))

theorem leads_condition : Leads (fun front _ => AwaitsCondition front)
    (fun front _ => ConditionsEnd front) condition := by
  intro front back m h hm
  obtain ⟨c, -, hc⟩ := exists_condition_of_run hm
  rw [hc]
  exact h.reaches c

/-! #### Filters -/

theorem leads_nextCondition : Leads (fun front _ => ConditionsEnd front)
    (fun front _ => ConditionsEnd front) nextCondition := by
  intro front back m h hm
  obtain ⟨n, hn⟩ := exists_nextCondition_of_run hm
  rw [hn]
  exact h.append n

theorem tries_nextCondition : Tries Continues (fun front _ => ConditionsEnd front)
    nextCondition := by
  have hbefore : Leads (fun front _ => ConditionsEnd front) (fun front _ => BehindBlank front)
      blanks1 := by
    intro front back m h hm
    obtain ⟨gap, hgap, hne, -⟩ := exists_gap_of_run_blanks1 hm
    rw [hgap]
    exact ⟨front, gap, h, hne, rfl⟩
  have hkeyword : Leads (fun front _ => BehindBlank front)
      (fun front _ => ∀ gap : Gap, gap.chars ≠ [] → AwaitsCondition (front ++ gap.chars))
      connector := by
    intro front back m h hm
    obtain ⟨k, keyword, hkeyword, hk⟩ := exists_connector_of_run hm
    rw [hk]
    exact h.awaitsCondition hkeyword
  have hafter : Leads
      (fun front _ => ∀ gap : Gap, gap.chars ≠ [] → AwaitsCondition (front ++ gap.chars))
      (fun front _ => AwaitsCondition front) blanks1 := by
    intro front back m h hm
    obtain ⟨gap, hgap, hne, -⟩ := exists_gap_of_run_blanks1 hm
    rw [hgap]
    exact h gap hne
  show Tries _ _ (seq blanks1 (seq connector (seq blanks1 condition)))
  exact .seq silent_blanks1.tries hbefore (.seq (.leaf fun _ _ => Continues.connector) hkeyword
    (.seq silent_blanks1.tries hafter tries_condition))

/-- **A filter tries each rule only where it can go on with a filter.** -/
theorem tries_filterParts : Tries Continues (fun front _ => front = [])
    (sequence [blanks, condition, star nextCondition, blanks, endOfInput]) := by
  have hopening : Leads (fun front _ => front = []) (fun front _ => AwaitsCondition front)
      blanks := by
    rintro front back m rfl hm
    exact leads_blanks [] back m awaitsCondition_nil hm
  have hclosing : Leads (fun front _ => ConditionsEnd front)
      (fun front _ => Continues .endOfInput front) blanks := by
    intro front back m h hm
    obtain ⟨gap, hgap, -⟩ := exists_gap_of_run_blanks hm
    rw [hgap]
    exact h.accepted gap
  show Tries _ _ (seq blanks (seq condition (seq (star nextCondition) (seq blanks endOfInput))))
  exact .seq silent_blanks.tries hopening (.seq tries_condition leads_condition
    (.seq (tries_nextCondition.star leads_nextCondition) leads_nextCondition.star
      (.seq silent_blanks.tries hclosing (.leaf fun _ _ h => h))))

theorem tries_filter : Tries Continues (fun front _ => front = []) filter :=
  tries_filterParts.node fun _ _ h => h ▸ Continues.filter

/-- The rejection of a text is cut off where the text can go on. -/
theorem exists_rejection_eq {text : String} (h : run (pattern .filter) 0 text.toList = none) :
    ∃ (front back : List Char) (rules : List Rule), front ++ back = text.toList ∧
      rejection .filter text = ⟨.point (byteLength front), .after front, .expected rules⟩ ∧
      rules ≠ [] ∧ ∀ r ∈ rules, Continues r front := by
  have hwithin := tries_filter [] text.toList .origin rfl Frontier.within_origin
  have hne := tries_filterParts.rules_failures_node_ne_nil rfl h
  obtain ⟨report, hreport⟩ : ∃ f, failures filter 0 text.toList .origin = f := ⟨_, rfl⟩
  change (failures filter 0 text.toList .origin).Within Continues text.toList at hwithin
  change (failures filter 0 text.toList .origin).rules ≠ [] at hne
  rw [hreport] at hwithin hne
  obtain ⟨front, back, htext, hoffset, hrules⟩ := hwithin.place
  obtain ⟨r, hr⟩ := List.exists_mem_of_ne_nil _ hne
  refine ⟨front, back, Rule.inOrder report.rules, htext, ?_,
    List.ne_nil_of_mem (Rule.mem_inOrder.2 hr), fun r hr => hrules r (Rule.mem_inOrder.1 hr)⟩
  rw [rejection, Position.ofOffset]
  simp only [pattern, hreport, hoffset]
  rw [← htext, before_byteLength_append]

end Grammar

/-- **A rejected text is cut where it can go on.**  The text before the place that the fault
points at is the beginning of a filter, and each of the rules that are expected there, of
which there is at least one, can be next. -/
theorem continues_of_readFilter_eq_error {text : String} {fault : Fault}
    (h : Written.readFilter text = .error fault) :
    ∃ (front back : List Char) (rules : List Rule), front ++ back = text.toList ∧
      fault = .ofRejection ⟨.point (byteLength front), .after front, .expected rules⟩ text ∧
      rules ≠ [] ∧ (∃ more, Accepted (String.ofList (front ++ more))) ∧
      ∀ r ∈ rules, Continues r front := by
  obtain ⟨hrun, rfl⟩ := readFilter_eq_error.1 h
  obtain ⟨front, back, rules, htext, hrejection, hne, hrules⟩ := Grammar.exists_rejection_eq hrun
  obtain ⟨r, hr⟩ := List.exists_mem_of_ne_nil rules hne
  exact ⟨front, back, rules, htext, by rw [hrejection], hne, (hrules r hr).exists_accepted, hrules⟩

/-- A list that is not closed.  What is reported are the kinds of literals that its last one
is not. -/
theorem continues_of_readFilter_eq_error_openList :
    ∃ fault, Written.readFilter "ok = true and a in (1, 2" = .error fault ∧
      fault.cause = .malformed ⟨23, 24⟩ false ⟨1, 24⟩ (.expected [.itemString, .itemBoolean]) ∧
      ∃ (front back : List Char) (rules : List Rule),
        front ++ back = "ok = true and a in (1, 2".toList ∧
        fault = .ofRejection ⟨.point (byteLength front), .after front, .expected rules⟩
          "ok = true and a in (1, 2" ∧
        rules ≠ [] ∧ (∃ more, Accepted (String.ofList (front ++ more))) ∧
        ∀ r ∈ rules, Continues r front := by
  have h : Written.readFilter "ok = true and a in (1, 2" = .error
      ⟨.malformed ⟨23, 24⟩ false ⟨1, 24⟩ (.expected [.itemString, .itemBoolean]),
        "ok = true and a in (1, 2"⟩ := by
    decide +kernel
  exact ⟨_, h, rfl, continues_of_readFilter_eq_error h⟩

end ColumnFilter
