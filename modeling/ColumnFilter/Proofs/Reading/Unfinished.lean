import ColumnFilter.Proofs.Grammar.Reports
import ColumnFilter.Proofs.Reading.Blame
import ColumnFilter.Proofs.Reading.Expectation
import ColumnFilter.Proofs.Reading.Layout

/-!
# A text that breaks off behind a connector

A filter with a connector behind it lacks a condition.  This is not what is said of it: white
space at its end is trimmed, so the connector is the end of the text, the blank that has to
follow it is missed without a report, and the connector is given back.  What is left of the text
is then not its end, and this is what is reported, at the connector (`parse_of_dangling`).

All that was tried before has failed before the connector, if at all, since the conditions have
been matched to their ends (`Grammar.failsBefore_condition`).

There is a sentence for a filter that lacks a condition, but it is said of no text.  It asks for a
report that names conditions, and a condition begins with a column, which is what is named in its
place (`Grammar.spares_condition`).
-/

namespace ColumnFilter

open Text

namespace Grammar

open Pattern Spelling

variable {start limit : Nat} {cs rest : List Char}

/-! ### Phrases fail before their ends -/

theorem failsBefore_blanks : FailsBefore limit blanks start cs :=
  .of_silent silent_blanks

theorem failsBefore_item (h : start < limit) : FailsBefore limit item start cs :=
  show FailsBefore limit (alt itemString (alt itemBoolean itemNumber)) start cs from
    .alt (.leaf h) (.alt (.leaf h) (.leaf h))

theorem failsBefore_nextItem (n : NextItem) (start : Nat)
    (h : start + byteLength n.chars ≤ limit) :
    FailsBefore limit nextItem start (n.chars ++ rest) := by
  have hcomma : ∀ start cs, run (exactly ",") start ([','] ++ cs) = some ⟨[','], [], cs⟩ :=
    run_exactly_append ","
  have hbefore : Stops isBlank ([','] ++ (n.after.chars ++ (n.item.chars ++ rest))) :=
    Stops.cons_iff.2 (by decide)
  have hpos := byteLength_pos n.item.chars_ne_nil
  simp only [NextItem.chars, byteLength_append] at h
  show FailsBefore limit (seq blanks (seq (exactly ",") (seq blanks item))) start _
  simp only [NextItem.chars, List.append_assoc]
  refine .seq_of_some (run_blanks n.before start hbefore) failsBefore_blanks
    (.seq_of_some (hcomma ..) (.of_silent (.one _))
      (.seq_of_some (run_blanks n.after _ (n.item.stops_isBlank rest)) failsBefore_blanks
        (failsBefore_item ?_)))
  dsimp only
  omega

theorem failsBefore_itemList (l : ItemList) (start : Nat)
    (h : start + byteLength l.chars ≤ limit) :
    FailsBefore limit itemList start (l.chars ++ rest) := by
  have hopen : ∀ start cs, run (exactly "(") start (['('] ++ cs) = some ⟨['('], [], cs⟩ :=
    run_exactly_append "("
  have hend : Stops isBare (l.closing.chars ++ ([')'] ++ rest)) :=
    l.closing.stops (fun _ => isBare_eq_false_of_isBlank) fun _ => Stops.cons_iff.2 (by decide)
  have hclosing : Stops isBlank ([')'] ++ rest) := Stops.cons_iff.2 (by decide)
  have hstop : ∀ start, run nextItem start (l.closing.chars ++ ([')'] ++ rest)) = none :=
    run_nextItem_of_ne l.closing (by decide) (by decide)
  have hlast : ∀ start, FailsBefore limit nextItem start (l.closing.chars ++ ([')'] ++ rest)) := by
    intro start
    show FailsBefore limit (seq blanks (seq (exactly ",") (seq blanks item))) start _
    have hcomma : run (exactly ",") (start + byteLength l.closing.chars) ([')'] ++ rest) = none :=
      if_neg (by decide)
    exact .seq_of_some (run_blanks l.closing start hclosing) failsBefore_blanks
      (.seq_of_none hcomma (.of_silent (.one _)))
  have hothers := run_star_layOut (Stops isBare) consuming_nextItem
    (fun n rest => n.stops_isBare rest)
    (fun start n rest h => run_nextItem n start (n.item.fits_of_stops h)) hend hstop l.others
  have hfails := FailsBefore.star_layOut (Stops isBare) (fun n rest => n.stops_isBare rest)
    (fun start n rest h => ⟨_, run_nextItem n start (n.item.fits_of_stops h)⟩)
    (fun start n rest _ h => failsBefore_nextItem n start h) hend hstop hlast l.others
  have hfirst := follows_flatMap NextItem.stops_isBare hend l.others
  have hpos := byteLength_pos l.first.chars_ne_nil
  simp only [ItemList.chars, byteLength_append] at h
  refine .node (by omega) ?_
  show FailsBefore limit (seq (exactly "(") (seq blanks (seq item (seq (star nextItem)
    (seq blanks (exactly ")")))))) start _
  simp only [ItemList.chars, List.append_assoc]
  refine .seq_of_some (hopen ..) (.of_silent (.one _))
    (.seq_of_some (run_blanks l.opening _ (l.first.stops_isBlank _)) failsBefore_blanks
      (.seq_of_some (run_item l.first _ (l.first.fits_of_stops hfirst)) (failsBefore_item ?_)
        (.seq_of_some (hothers _) (hfails _ ?_)
          (.seq_of_some (run_blanks l.closing _ hclosing) failsBefore_blanks
            (.of_silent (.one _))))))
  · dsimp only
    omega
  · dsimp only
    omega

theorem failsBefore_comparison (c : Comparison) (start : Nat) (hfits : c.Fits rest)
    (h : start + byteLength c.chars ≤ limit) :
    FailsBefore limit (alt singleValue multiValue) start (c.chars ++ rest) := by
  cases c with
  | single op gap i takesOne whole =>
    have hne : gap.chars ++ i.chars ≠ [] := List.append_ne_nil_of_right_ne_nil _ i.chars_ne_nil
    have hsymbol : op.isLengthened (gap.chars ++ (i.chars ++ rest)) = false := by
      rw [← List.append_assoc, Operator.isLengthened_append hne, whole]
    have hitem : run item (start + byteLength op.symbol.toList + byteLength gap.chars)
        (i.chars ++ rest) = some ⟨i.chars, [i.tree _], rest⟩ := run_item i _ hfits
    have hpos := byteLength_pos i.chars_ne_nil
    simp only [Comparison.chars, Comparison.comparator, Comparison.gap, Comparison.valueChars,
      byteLength_append] at h
    show FailsBefore limit (alt (seq comparatorSingle (seq blanks item))
      (seq comparatorMultiple (seq blanks itemList))) start _
    simp only [Comparison.chars, Comparison.comparator, Comparison.gap, Comparison.valueChars,
      List.append_assoc]
    have hblanks := run_blanks gap (start + byteLength op.symbol.toList) (i.stops_isBlank rest)
    have hsingle := run_comparatorSingle takesOne hsymbol start
    have hrun : (run (seq comparatorSingle (seq blanks item)) start
        (op.symbol.toList ++ (gap.chars ++ (i.chars ++ rest)))).isSome = true := by
      rw [run_seq_of_some hsingle, run_seq_of_some hblanks, hitem]
      rfl
    obtain ⟨m, hm⟩ := Option.isSome_iff_exists.1 hrun
    refine .alt_of_some hm (.seq_of_some hsingle (.leaf (by omega))
      (.seq_of_some hblanks failsBefore_blanks (failsBefore_item ?_)))
    dsimp only
    omega
  | list keyword gap l =>
    have hlist : Stops isBlank (l.chars ++ rest) := Stops.cons_iff.2 (by decide)
    have hpos : 0 < byteLength l.chars := byteLength_pos (List.cons_ne_nil _ _)
    simp only [Comparison.chars, Comparison.comparator, Comparison.gap, Comparison.valueChars,
      byteLength_append] at h
    show FailsBefore limit (alt (seq comparatorSingle (seq blanks item))
      (seq comparatorMultiple (seq blanks itemList))) start _
    simp only [Comparison.chars, Comparison.comparator, Comparison.gap, Comparison.valueChars,
      List.append_assoc]
    refine .alt (.seq_of_none (run_comparatorSingle_of_keyword keyword ..) (.leaf (by omega)))
      (.seq_of_some (run_comparatorMultiple keyword ..) (.leaf (by omega))
        (.seq_of_some (run_blanks gap _ hlist) failsBefore_blanks
          (failsBefore_itemList l _ ?_)))
    dsimp only
    omega

theorem failsBefore_condition (c : Spelling.Condition) (start : Nat)
    (hfits : c.comparison.Fits rest) (h : start + byteLength c.chars ≤ limit) :
    FailsBefore limit condition start (c.chars ++ rest) := by
  have hpos := byteLength_pos c.column_ne_nil
  simp only [Spelling.Condition.chars, byteLength_append] at h
  refine .node (by omega) ?_
  show FailsBefore limit (seq column (seq blanks (alt singleValue multiValue))) start _
  simp only [Spelling.Condition.chars, List.append_assoc]
  refine .seq_of_some (run_column start c.column_ne_nil c.column_isWord (c.stops_isWordChar rest))
    (.leaf (by omega))
    (.seq_of_some (run_blanks c.gap _ (c.comparison.stops_isBlank rest)) failsBefore_blanks
      (failsBefore_comparison c.comparison _ hfits ?_))
  dsimp only
  omega

theorem failsBefore_nextCondition (n : NextCondition) (start : Nat) (hstop : Stops isBare rest)
    (h : start + byteLength n.chars ≤ limit) :
    FailsBefore limit nextCondition start (n.chars ++ rest) := by
  have hconnector := run_connector n.isKeyword
    (n.stops_isBare_after (n.condition.chars ++ rest)) (start + byteLength n.before.chars)
  simp only [NextCondition.chars, byteLength_append] at h
  show FailsBefore limit (seq blanks1 (seq connector (seq blanks1 condition))) start _
  simp only [NextCondition.chars, List.append_assoc]
  refine .seq_of_some (run_blanks1 n.before start n.before_ne_nil (n.stops_isBlank_keyword _))
    (.of_silent silent_blanks1) (.seq_of_some hconnector (.leaf_of_some hconnector)
      (.seq_of_some (run_blanks1 n.after _ n.after_ne_nil (n.condition.stops_isBlank rest))
        (.of_silent silent_blanks1) (failsBefore_condition n.condition _
          (n.condition.comparison.fits_of_stops hstop) ?_)))
  dsimp only
  omega

/-! ### Behind the last condition -/

/-- **What stands behind a filter and does not begin a further condition is not the end of the
text**, and this is all that is reported. -/
theorem failures_filter_of_tail {f : Spelling.Filter} {tail : List Char} (hne : tail ≠ [])
    (hblank : Stops isBlank tail) (hbare : Stops isBare (f.closing.chars ++ tail))
    (hstop : ∀ start, run nextCondition start (f.closing.chars ++ tail) = none)
    (hlast : ∀ start, FailsBefore (byteLength f.chars) nextCondition start
      (f.closing.chars ++ tail)) :
    run filter 0 (f.chars ++ tail) = none ∧
      failures filter 0 (f.chars ++ tail) .origin = ⟨byteLength f.chars, [.endOfInput]⟩ := by
  have hothers := run_star_layOut (Stops isBare) consuming_nextCondition
    (fun n rest => n.stops_isBare rest) (fun start n rest h => run_nextCondition n start h) hbare
    hstop f.others
  have hfails := FailsBefore.star_layOut (Stops isBare) (fun n rest => n.stops_isBare rest)
    (fun start n rest h => ⟨_, run_nextCondition n start h⟩)
    (fun start n rest hrest h => failsBefore_nextCondition n start hrest h) hbare hstop hlast
    f.others
  have hfirst := follows_flatMap NextCondition.stops_isBare hbare f.others
  have hfits := f.first.comparison.fits_of_stops hfirst
  have hopening := run_blanks f.opening 0 (f.first.stops_isBlank
    (f.others.flatMap NextCondition.chars ++ (f.closing.chars ++ tail)))
  have hcondition := run_condition f.first (0 + byteLength f.opening.chars) hfits
  have hplace : byteLength f.chars = 0 + byteLength f.opening.chars + byteLength f.first.chars +
      byteLength (f.others.flatMap NextCondition.chars) + byteLength f.closing.chars := by
    simp only [Spelling.Filter.chars, byteLength_append]
    omega
  have hpos : 0 < byteLength f.chars := byteLength_pos f.chars_ne_nil
  have hend : ∀ start, run endOfInput start tail = none := by
    intro start
    cases tail with
    | nil => exact absurd rfl hne
    | cons c cs => rfl
  have hchars : f.chars ++ tail = f.opening.chars ++ (f.first.chars ++
      (f.others.flatMap NextCondition.chars ++ (f.closing.chars ++ tail))) := by
    simp only [Spelling.Filter.chars, List.append_assoc]
  have hrun : run (seq blanks (seq condition (seq (star nextCondition) (seq blanks endOfInput)))) 0
      (f.chars ++ tail) = none := by
    rw [hchars, run_seq_of_some hopening, run_seq_of_some hcondition, run_seq_of_some (hothers _),
      run_seq_of_some (run_blanks f.closing _ hblank), hend]
    rfl
  have hreport : failures (seq blanks (seq condition (seq (star nextCondition)
      (seq blanks endOfInput)))) 0 (f.chars ++ tail) .origin =
        ⟨byteLength f.chars, [.endOfInput]⟩ := by
    rw [hchars, failures_seq_of_some hopening, failures_seq_of_some hcondition,
      failures_seq_of_some (hothers _), failures_seq_of_some (run_blanks f.closing _ hblank)]
    refine (failures_leaf_of_none (hend _)).trans ?_
    dsimp only
    rw [← hplace]
    refine Frontier.add_of_lt (failsBefore_blanks _ (hfails _ ?_ _
      (failsBefore_condition f.first _ hfits ?_ _ (failsBefore_blanks _ hpos))))
    · omega
    · omega
  refine ⟨Option.map_eq_none_iff.2 hrun, ?_⟩
  calc failures filter 0 (f.chars ++ tail) .origin
    _ = (Frontier.mk (byteLength f.chars) [.endOfInput]).close .filter 0 0 := by
      rw [← hreport]
      exact failures_node_of_none hrun
    _ = ⟨byteLength f.chars, [.endOfInput]⟩ := Frontier.close_of_lt hpos

/-- A connector that ends the text begins no condition: it is matched, and the blank behind it
is missed in silence. -/
theorem run_nextCondition_of_keyword {gap : Gap} (hgap : gap.chars ≠ []) {k : Connector}
    {keyword : List Char} (hkeyword : asciiLower keyword = k.keyword.toList) (start : Nat) :
    run nextCondition start (gap.chars ++ keyword) = none ∧
      ∀ limit, FailsBefore limit nextCondition start (gap.chars ++ keyword) := by
  have hblank : Stops isBlank keyword := by
    have := stops_isBlank_of_connector hkeyword []
    rwa [List.append_nil] at this
  have hconnector : ∀ start, run connector start keyword =
      some ⟨keyword, [.mk .connector start keyword []], []⟩ := by
    intro start
    have := run_connector hkeyword (.nil : Stops isBare []) start
    rwa [List.append_nil] at this
  have hspace : ∀ start, run blanks1 start [] = none := fun start => rfl
  constructor
  · show run (seq blanks1 (seq connector (seq blanks1 condition))) start _ = none
    rw [run_seq_of_some (run_blanks1 gap start hgap hblank), run_seq_of_some (hconnector _),
      run_seq_of_none (hspace _)]
    rfl
  · intro limit
    show FailsBefore limit (seq blanks1 (seq connector (seq blanks1 condition))) start _
    exact .seq_of_some (run_blanks1 gap start hgap hblank) (.of_silent silent_blanks1)
      (.seq_of_some (hconnector _) (.leaf_of_some (hconnector _))
        (.seq_of_none (hspace _) (.of_silent silent_blanks1)))

/-! ### Conditions are not reported -/

theorem spares_item : Spares .condition item :=
  show Spares .condition (alt itemString (alt itemBoolean itemNumber)) from
    .alt (.leaf nofun) (.alt (.leaf nofun) (.leaf nofun))

theorem spares_itemList : Spares .condition itemList := by
  have hblanks : Spares .condition blanks := .of_silent silent_blanks
  have hnext : Spares .condition nextItem :=
    show Spares .condition (seq blanks (seq (exactly ",") (seq blanks item))) from
      .seq hblanks (.seq (.of_silent (.one _)) (.seq hblanks spares_item))
  refine .node nofun ?_
  show Spares .condition (seq (exactly "(") (seq blanks (seq item (seq (star nextItem)
    (seq blanks (exactly ")"))))))
  exact .seq (.of_silent (.one _)) (.seq hblanks (.seq spares_item (.seq hnext.star
    (.seq hblanks (.of_silent (.one _))))))

/-- **A condition is never reported.**  It begins with a column, and what is behind the column is
reported where it fails. -/
theorem spares_condition : Spares .condition condition := by
  have hblanks : Spares .condition blanks := .of_silent silent_blanks
  have hname : Consuming (plus (one isWordChar)) := consuming_of_consumes rfl
  have hsingle : Reported singleValue :=
    show Reported (seq comparatorSingle (seq blanks (alt itemString (alt itemBoolean itemNumber))))
      from .seq (.leaf _ _) (.seq (.star _) (.alt (.leaf _ _)))
  show Spares .condition (node .condition (seq (leaf .column (plus (one isWordChar)))
    (seq blanks (alt (seq comparatorSingle (seq blanks item))
      (seq comparatorMultiple (seq blanks itemList))))))
  refine .node_leaf hname nofun ?_ (.seq (.star _) (.alt hsingle))
  exact .seq hblanks (.alt (.seq (.leaf nofun) (.seq hblanks spares_item))
    (.seq (.leaf nofun) (.seq hblanks spares_itemList)))

theorem spares_filter : Spares .condition filter := by
  have hblanks : Spares .condition blanks := .of_silent silent_blanks
  have hblanks1 : Spares .condition blanks1 := .of_silent silent_blanks1
  have hnext : Spares .condition nextCondition :=
    show Spares .condition (seq blanks1 (seq connector (seq blanks1 condition))) from
      .seq hblanks1 (.seq (.leaf nofun) (.seq hblanks1 spares_condition))
  refine .node nofun ?_
  show Spares .condition (seq blanks (seq condition (seq (star nextCondition)
    (seq blanks endOfInput))))
  exact .seq hblanks (.seq spares_condition (.seq hnext.star (.seq hblanks (.leaf nofun))))

end Grammar

/-! ### What is said of a text -/

/-- What is said of a filter that lacks a condition is not said of other things. -/
theorem Complaint.helpForRules_ne {rules : List Rule} (h : .condition ∉ rules) (atEnd : Bool) :
    helpForRules rules atEnd ≠
      some "Filter is incomplete. Add a condition after the connector." := by
  have hcontains : rules.contains .condition = false := by
    rw [Bool.eq_false_iff, Ne, List.contains_iff_mem]
    exact h
  rw [helpForRules, hcontains, Bool.false_and, if_neg Bool.false_ne_true]
  split_ifs <;> decide

theorem Written.help_ne_of_readFilter {text : String} {fault : Fault}
    (h : readFilter text = .error fault) {shown : Span} {atEnd : Bool} {position : Position}
    {complaint : Complaint} (hcause : fault.cause = .malformed shown atEnd position complaint) :
    complaint.help atEnd ≠
      some "Filter is incomplete. Add a condition after the connector." := by
  obtain ⟨-, rfl⟩ := readFilter_eq_error.1 h
  obtain ⟨-, -, -, rfl⟩ := Cause.malformed.inj hcause
  refine Complaint.helpForRules_ne (fun hmem => ?_) atEnd
  exact Grammar.spares_filter 0 text.toList .origin List.not_mem_nil (Rule.mem_inOrder.1 hmem)

/-- Where a filter fails before the end of the text, and what is expected there. -/
theorem Written.readFilter_of_failures {front back : List Char} {rules : List Rule}
    (hne : back ≠ []) (hrun : (Grammar.pattern .filter).run 0 (front ++ back) = none)
    (hreport : (Grammar.pattern .filter).failures 0 (front ++ back) .origin =
      ⟨byteLength front, rules⟩) :
    readFilter (String.ofList (front ++ back)) = .error
      ⟨.malformed ⟨byteLength front, byteLength front + 1⟩ false (.after front)
        (.expected (Rule.inOrder rules)), String.ofList (front ++ back)⟩ := by
  have hrejection : Grammar.rejection .filter (String.ofList (front ++ back)) =
      ⟨.point (byteLength front), .after front, .expected (Rule.inOrder rules)⟩ := by
    rw [Grammar.rejection, Position.ofOffset]
    simp only [String.toList_ofList, hreport, before_byteLength_append]
  have hpos := byteLength_pos hne
  have hlt : byteLength front < size (String.ofList (front ++ back)) := by
    rw [size, String.toList_ofList, byteLength_append]
    omega
  have hshown : (Place.point (byteLength front)).shown (size (String.ofList (front ++ back))) =
      ⟨byteLength front, byteLength front + 1⟩ :=
    if_pos hlt
  have hstop : decide (size (String.ofList (front ++ back)) ≤
      (Place.point (byteLength front)).stop) = false :=
    decide_eq_false (Nat.not_le.2 hlt)
  rw [← String.toList_ofList (l := front ++ back)] at hrun
  rw [readFilter, readBy_of_run_eq_none hrun, hrejection, Fault.ofRejection]
  dsimp only
  rw [hshown, hstop]

theorem Written.readFilter_dangling {f : Spelling.Filter} (hclosing : f.closing.chars ≠ [])
    {k : Connector} {keyword : List Char} (hkeyword : asciiLower keyword = k.keyword.toList) :
    readFilter (String.ofList (f.chars ++ keyword)) = .error
      ⟨.malformed ⟨byteLength f.chars, byteLength f.chars + 1⟩ false (.after f.chars)
        (.expected [.endOfInput]), String.ofList (f.chars ++ keyword)⟩ := by
  have hne := Grammar.ne_nil_of_connector hkeyword
  have hblank : Stops Grammar.isBlank keyword := by
    have := Grammar.stops_isBlank_of_connector hkeyword []
    rwa [List.append_nil] at this
  have hbare : Stops Grammar.isBare (f.closing.chars ++ keyword) :=
    f.closing.stops (fun _ => isBare_eq_false_of_isBlank) fun hnil => absurd hnil hclosing
  obtain ⟨hrun, hreport⟩ := Grammar.failures_filter_of_tail hne hblank hbare
    (fun start => (Grammar.run_nextCondition_of_keyword hclosing hkeyword start).1)
    (fun start => (Grammar.run_nextCondition_of_keyword hclosing hkeyword start).2 _)
  exact readFilter_of_failures hne hrun hreport

/-- **Nobody is told that a filter is incomplete.** -/
theorem Schema.help_ne_of_parse {s : Schema} {text : String} {fault : Fault}
    (h : s.parse text = .error fault) {shown : Span} {atEnd : Bool} {position : Position}
    {complaint : Complaint} (hcause : fault.cause = .malformed shown atEnd position complaint) :
    complaint.help atEnd ≠
      some "Filter is incomplete. Add a condition after the connector." := by
  rcases Schema.exists_of_parse_eq_error h with ⟨found, hfound, heq⟩ | ⟨w, hw, c, hc, hread⟩
  · exact Written.help_ne_of_readFilter hfound (heq.symm.trans hcause)
  · -- a condition that is refused is well formed
    obtain ⟨f, -, rfl⟩ := readFilter_eq_ok.1 hw
    obtain ⟨v, start, rfl⟩ := Spelling.Filter.exists_of_mem hc
    obtain ⟨r, hrefusal⟩ := Requirement.exists_refusal_of_readCondition hread
    rw [hcause] at hrefusal
    cases hrefusal

/-- Blanks behind a filter belong to it. -/
theorem Spelling.Filter.exists_closing_append (v : Spelling.Filter) {gap : List Char}
    (hgap : ∀ c ∈ gap, Grammar.isBlank c = true) (hne : gap ≠ []) :
    ∃ v' : Spelling.Filter, v'.chars = v.chars ++ gap ∧ v'.closing.chars ≠ [] := by
  refine ⟨{ v with closing := v.closing.append ⟨gap, hgap⟩ }, ?_,
    List.append_ne_nil_of_right_ne_nil _ hne⟩
  simp [Spelling.Filter.chars, Spelling.Gap.append]

/-- White space that is trimmed off behind a connector. -/
theorem Text.trim_dangling {text : String} (htrim : trim text = text) (hne : text ≠ "")
    {k : Connector} {keyword : List Char} (hkeyword : asciiLower keyword = k.keyword.toList)
    (gap : List Char) {white : List Char} (hwhite : IsWhite white) :
    trim (String.ofList (text.toList ++ gap ++ keyword ++ white)) =
      String.ofList (text.toList ++ gap ++ keyword) := by
  have hstart : Stops isWhiteSpace (text.toList ++ gap ++ keyword) := by
    have hends := (trimChars_eq_self_iff.1
      (String.ofList_injective (htrim.trans String.ofList_toList.symm))).1
    rw [List.append_assoc]
    exact .append_of_ne_nil (by simpa using hne) hends
  have hend : EndsBare (text.toList ++ gap ++ keyword) := by
    refine .append _ (.of_forall (Grammar.ne_nil_of_connector hkeyword) fun c hc => ?_)
    exact isWhiteSpace_eq_false_of_isWordChar
      (isWordChar_of_toLower (Grammar.isLower_toLower_of_connector hkeyword c hc))
  have hnone : IsWhite [] := List.forall_mem_nil _
  rw [trim, String.toList_ofList]
  exact congrArg String.ofList (hnone.trimChars_append hwhite hstart hend)

/-- **A filter that breaks off behind a connector is not said to be incomplete.**  The fault is at
the connector, and the end of the text is all that is expected there; and whatever the text, no
fault asks for the condition behind a connector. -/
theorem parse_of_dangling {s : Schema} {text : String} {f : Filter} (h : s.parse text = .ok f)
    (htrim : trim text = text) (hne : text ≠ "") {k : Connector} {keyword : List Char}
    (hkeyword : asciiLower keyword = k.keyword.toList) {gap : List Char}
    (hgap : ∀ c ∈ gap, Grammar.isBlank c = true) (hgap_ne : gap ≠ []) {white : List Char}
    (hwhite : IsWhite white) :
    s.parse (String.ofList (text.toList ++ gap ++ keyword ++ white)) = .error
      ⟨.malformed ⟨byteLength (text.toList ++ gap), byteLength (text.toList ++ gap) + 1⟩ false
          (.after (text.toList ++ gap)) (.expected [.endOfInput]),
        String.ofList (text.toList ++ gap ++ keyword)⟩ ∧
      ∀ text' fault shown atEnd position complaint, s.parse text' = .error fault →
        fault.cause = .malformed shown atEnd position complaint → complaint.help atEnd ≠
          some "Filter is incomplete. Add a condition after the connector." := by
  constructor
  · obtain ⟨v, rfl, -⟩ := Schema.exists_spelling_of_parse h htrim hne
    obtain ⟨v', hchars, hclosing⟩ := v.exists_closing_append hgap hgap_ne
    have hread := Written.readFilter_dangling hclosing hkeyword
    have htrim' := trim_dangling htrim hne hkeyword gap hwhite
    rw [Spelling.Filter.text, String.toList_ofList] at htrim' ⊢
    rw [hchars] at hread
    have hne' : ¬(String.ofList (v.chars ++ gap ++ keyword)).isEmpty = true := by
      rw [String.isEmpty_iff]
      intro hempty
      exact List.append_ne_nil_of_right_ne_nil _ (Grammar.ne_nil_of_connector hkeyword)
        (String.ofList_injective hempty)
    rw [← htrim'] at hne'
    rw [Schema.parse_of_not_isEmpty hne', htrim']
    unfold Schema.readTrimmed
    simp only [hread, Fault.withSource]
  · exact fun _ _ _ _ _ _ hparse hcause => Schema.help_ne_of_parse hparse hcause

/-- Blanks before the connector, and white space that is no blank behind it. -/
theorem parse_of_dangling_mixedCase :
    (Schema.ofColumns [⟨"n", .string⟩]).parse "n = 'or'\t AnD\u00A0\n" = .error
      ⟨.malformed ⟨10, 11⟩ false ⟨1, 11⟩ (.expected [.endOfInput]), "n = 'or'\t AnD"⟩ := by
  have hparse : (Schema.ofColumns [⟨"n", .string⟩]).parse "n = 'or'" =
      .ok ⟨[⟨"n", .equal, .single (.text "or")⟩], []⟩ := by
    decide +kernel
  have htrim : trim "n = 'or'" = "n = 'or'" := by decide +kernel
  have hkeyword : asciiLower "AnD".toList = Connector.and.keyword.toList := by decide
  have hgap : ∀ c ∈ "\t ".toList, Grammar.isBlank c = true :=
    List.all_eq_true.1 (show "\t ".toList.all Grammar.isBlank = true by decide)
  have hwhite : IsWhite "\u00A0\n".toList := by
    intro c hc
    simp only [String.reduceToList, List.mem_cons, List.not_mem_nil, or_false] at hc
    rcases hc with rfl | rfl <;> decide +kernel
  exact (parse_of_dangling hparse htrim (by decide) hkeyword hgap (by decide) hwhite).1

/-- A connector that ends a text is not said to lack a condition or a column. -/
theorem parse_dangling_and :
    (Schema.ofColumns [⟨"age", .number⟩]).accepts "age > 30" = true ∧
      ¬∃ shown atEnd position rules source,
        (Schema.ofColumns [⟨"age", .number⟩]).parse "age > 30 and" =
          .error ⟨.malformed shown atEnd position (.expected rules), source⟩ ∧
        (.condition ∈ rules ∨ .column ∈ rules) := by
  have hparse : (Schema.ofColumns [⟨"age", .number⟩]).parse "age > 30 and" =
      .error ⟨.malformed ⟨9, 10⟩ false ⟨1, 10⟩ (.expected [.endOfInput]), "age > 30 and"⟩ := by
    decide +kernel
  refine ⟨by decide +kernel, ?_⟩
  rintro ⟨shown, atEnd, position, rules, source, hfault, hrules⟩
  rw [hparse] at hfault
  cases hfault
  exact absurd hrules (by decide)

end ColumnFilter
