import ColumnFilter.Proofs.RoundTrip.Canonical

/-!
# Texts that no quotes keep apart

The notation has no escapes, so a text with both quotes in it ends where its own
quote first stands, and what follows is read as more of the filter.  Such a text
can therefore put conditions of its own into a filter
(`exists_parse_text_both_quotes`).

What stands before it is out of its reach (`parse_text_before`): the conditions
and connectors before it are read back, and so are the column and the operator
that it is a value for.  The reason is that reading never looks back.  The text
of a filter and the spelling that is found in it agree for as long as they
describe the same characters, and by `Spelling.Condition.eq_of_append_eq` two
spellings of the same characters are read alike.
-/

namespace ColumnFilter

open Text

/-- A condition with a quote for each of its texts. -/
def Condition.Quotable (c : Condition) : Prop :=
  ∀ t, Scalar.text t ∈ c.value.items → ¬('"' ∈ t.toList ∧ '\'' ∈ t.toList)

theorem Condition.isPlain_of_quotable {c : Condition} (h : c.Quotable)
    (hfinite : ∀ x, Scalar.number x ∈ c.value.items → x.isFinite = true) : c.isPlain = true := by
  rw [Condition.isPlain, List.all_eq_true]
  intro x hx
  cases x with
  | null => rfl
  | boolean b => rfl
  | number x => exact hfinite x hx
  | text t => exact isPlain_text_iff.2 (h t hx)

/-! ### One text, two spellings -/

namespace Spelling

variable {rest rest' : List Char}

/-- **Two conditions that a text begins with are written alike.** -/
theorem Condition.eq_of_append_eq {v d : Condition} (hv : v.comparison.Fits rest)
    (hd : d.comparison.Fits rest') (h : v.chars ++ rest = d.chars ++ rest') :
    (∀ start, v.written start = d.written start) ∧ rest = rest' := by
  have hmatch : ∀ start, (⟨v.chars, [v.tree start], rest⟩ : Match) =
      ⟨d.chars, [d.tree start], rest'⟩ := by
    intro start
    have hrun := Grammar.run_condition v start hv
    rw [h, Grammar.run_condition d start hd] at hrun
    exact (Option.some.inj hrun).symm
  refine ⟨fun start => ?_, congrArg Match.rest (hmatch 0)⟩
  have htree : v.tree start = d.tree start :=
    List.head_eq_of_cons_eq (congrArg Match.trees (hmatch start))
  have hwritten := v.ofTree_tree start
  rw [htree, d.ofTree_tree] at hwritten
  exact (Except.ok.inj hwritten).symm

/-- What follows the symbol of an operator does not change the operator. -/
theorem Comparison.operator_eq {c : Comparison} {op : Operator}
    (h : c.chars ++ rest = op.symbol.toList ++ ' ' :: rest') : c.operator = op := by
  have hspace : op.isLengthened (' ' :: rest') = false := op.isLengthened_space
  rw [Comparison.chars, List.append_assoc] at h
  cases c with
  | single op' gap item takesOne whole =>
    have hwhole : op'.isLengthened ((gap.chars ++ item.chars) ++ rest) = false := by
      rw [Operator.isLengthened_append
        (List.append_ne_nil_of_right_ne_nil _ item.chars_ne_nil), whole]
    have hrun := Grammar.run_comparatorSingle takesOne hwhole 0
    change op'.symbol.toList ++ ((gap.chars ++ item.chars) ++ rest) = _ at h
    rw [h] at hrun
    cases htakes : op.takesList with
    | false =>
      rw [Grammar.run_comparatorSingle htakes hspace 0] at hrun
      have hsymbol := congrArg Match.text (Option.some.inj hrun)
      show op' = op
      rw [← op'.ofSymbol_symbol, ← op.ofSymbol_symbol, String.toList_injective hsymbol]
    | true =>
      obtain ⟨k, hk, -⟩ := exists_keyword_chars htakes
      rw [← hk, Grammar.run_comparatorSingle_of_keyword k 0] at hrun
      cases hrun
  | list keyword gap l =>
    change keyword.chars ++ ((gap.chars ++ l.chars) ++ rest) = _ at h
    cases htakes : op.takesList with
    | false =>
      have hrun := Grammar.run_comparatorSingle htakes hspace 0
      rw [← h, Grammar.run_comparatorSingle_of_keyword keyword 0] at hrun
      cases hrun
    | true =>
      obtain ⟨k, hk, hop⟩ := exists_keyword_chars htakes
      have hrun := Grammar.run_comparatorMultiple keyword 0 ((gap.chars ++ l.chars) ++ rest)
      rw [h, ← hk, Grammar.run_comparatorMultiple k 0] at hrun
      have hchars : k.chars = keyword.chars := congrArg Match.text (Option.some.inj hrun)
      show keyword.operator = op
      rw [← keyword.ofSymbol_chars, ← hchars, k.ofSymbol_chars, hop]

/-- Column and operator are found before anything is known of the value. -/
theorem Condition.column_operator_eq {v : Condition} {c : ColumnFilter.Condition}
    (hword : ∀ ch ∈ c.column.toList, isWordChar ch = true)
    (h : v.chars ++ rest = c.chars ++ rest') :
    v.column = c.column.toList ∧ v.comparison.operator = c.operator := by
  simp only [Condition.chars, ColumnFilter.Condition.chars, List.append_assoc,
    List.cons_append] at h
  obtain ⟨hcolumn, h₁⟩ := eq_of_append_eq_append h v.column_isWord (v.stops_isWordChar rest) hword
    (Stops.cons_iff.2 (by decide))
  have hsymbol : ∀ tail, Stops Grammar.isBlank (c.operator.symbol.toList ++ tail) := by
    intro tail
    cases c.operator <;> exact Stops.cons_iff.2 (by decide)
  change v.gap.chars ++ _ = Gap.space.chars ++ _ at h₁
  obtain ⟨-, h₂⟩ := eq_of_append_eq_append h₁ v.gap.blank (v.comparison.stops_isBlank rest)
    Gap.space.blank (hsymbol _)
  exact ⟨hcolumn, Comparison.operator_eq h₂⟩

/-- A connector is found before anything is known of the condition that follows it. -/
theorem NextCondition.connector_eq {n : NextCondition} {k : Connector}
    (hstop : Stops Grammar.isBlank rest') (h : n.chars ++ rest = k.spaced ++ rest') :
    n.connector = k ∧ n.condition.chars ++ rest = rest' := by
  have hletters : ∀ {word : List Char} {k : Connector}, asciiLower word = k.keyword.toList →
      ∀ c ∈ word, Grammar.isBare c = true := by
    intro word k hword c hc
    exact isBare_of_toLower (Grammar.isLower_toLower_of_connector hword c hc)
  simp only [NextCondition.chars, Connector.spaced, List.append_assoc, List.cons_append,
    List.nil_append] at h
  have hblank : Stops Grammar.isBlank (k.keyword.toList ++ ' ' :: rest') :=
    Grammar.stops_isBlank_of_connector (asciiLower_keyword k) _
  change n.before.chars ++ _ = Gap.space.chars ++ _ at h
  obtain ⟨-, h₁⟩ := eq_of_append_eq_append h n.before.blank (n.stops_isBlank_keyword _)
    Gap.space.blank hblank
  obtain ⟨hword, h₂⟩ := eq_of_append_eq_append h₁ (hletters n.isKeyword)
    (n.stops_isBare_after _) (hletters (asciiLower_keyword k)) (Stops.cons_iff.2 (by decide))
  change n.after.chars ++ _ = Gap.space.chars ++ _ at h₂
  obtain ⟨-, h₃⟩ := eq_of_append_eq_append h₂ n.after.blank (n.condition.stops_isBlank rest)
    Gap.space.blank hstop
  refine ⟨?_, h₃⟩
  have hname : n.connector.keyword = k.keyword :=
    String.toList_injective (by rw [← n.isKeyword, hword, asciiLower_keyword])
  exact Option.some.inj (by
    rw [← Connector.ofKeyword?_keyword, hname, Connector.ofKeyword?_keyword])

end Spelling

/-! ### Filters -/

open Spelling

theorem Filter.exists_joined_eq (c : Condition) (cs : List Condition) (ks : List Connector) :
    ∃ rest, joined (c :: cs) ks = c.chars ++ rest := by
  cases cs with
  | nil => exact ⟨[], (List.append_nil _).symm⟩
  | cons d ds =>
    cases ks with
    | nil => exact ⟨_, rfl⟩
    | cons k ks => exact ⟨_, List.append_assoc ..⟩

theorem Filter.stops_isBlank_joined {s : Schema} {c : Condition} (hc : c.Consistent s)
    (cs : List Condition) (ks : List Connector) : Stops Grammar.isBlank (joined (c :: cs) ks) := by
  obtain ⟨hne, hword⟩ := hc.isWordChar_column
  obtain ⟨rest, hrest⟩ := exists_joined_eq c cs ks
  rw [hrest, Condition.chars, List.append_assoc]
  refine .append_of_ne_nil hne fun ch hch => ?_
  exact isBlank_eq_false_of_isBare (isBare_of_isWordChar (hword ch (List.mem_of_head? hch)))

/-- What is read from canonical text begins with the conditions before the first that has no
quotes for one of its texts. -/
theorem exists_readConditions_before {s : Schema} {closing : Gap} {c : Condition}
    {after : List Condition} {before : List Condition} (hbefore : ∀ d ∈ before, d.isPlain = true) :
    ∀ {v : Spelling.Condition} {others : List NextCondition} {start place : Nat}
      {ks : List Connector} {ds : List Condition},
      ks.length + 1 = (before ++ c :: after).length →
      (∀ d ∈ before ++ c :: after, d.Consistent s) →
      v.chars ++ (others.flatMap NextCondition.chars ++ closing.chars) =
        Filter.joined (before ++ c :: after) ks →
      List.Forall₂ (fun w d => s.readCondition w = .ok d)
        (v.written start :: layOut NextCondition.chars
          (fun start n => n.condition.written (n.conditionStart start)) place others) ds →
      ∃ c' after', ds = before ++ c' :: after' ∧ c'.column = c.column ∧ c'.operator = c.operator ∧
        (others.map (·.connector)).take before.length = ks.take before.length := by
  -- by induction on the conditions before, each of which takes a piece off both texts
  induction before with
  | nil =>
    intro v others start place ks ds _ hconsistent htext hread
    have hc := hconsistent c (List.mem_cons_self ..)
    obtain ⟨rest, hrest⟩ := Filter.exists_joined_eq c after ks
    obtain ⟨hcolumn, hop⟩ := Condition.column_operator_eq hc.isWordChar_column.2
      (htext.trans hrest)
    cases hread with
    | @cons _ c' _ after' hc' _ =>
      obtain ⟨hresolve, hop', -⟩ := Schema.readCondition_eq_ok.1 hc'
      have hname : (v.written start).column.text = c.column := by
        rw [Condition.written, hcolumn, String.ofList_toList]
      rw [hname, hc.resolve_eq] at hresolve
      rw [v.operator_written, hop] at hop'
      exact ⟨c', after', rfl, (Option.some.inj hresolve).symm, hop', rfl⟩
  | cons d before ih =>
    intro v others start place ks ds hlength hconsistent htext hread
    obtain ⟨u, hchars, hu⟩ := exists_condition_chars (hconsistent d (List.mem_cons_self ..))
      (hbefore d (List.mem_cons_self ..))
    obtain ⟨e, es, htail⟩ : ∃ e es, before ++ c :: after = e :: es := by
      cases before with
      | nil => exact ⟨c, after, rfl⟩
      | cons e es => exact ⟨e, es ++ c :: after, rfl⟩
    cases ks with
    | nil => rw [List.cons_append, htail] at hlength; cases hlength
    | cons k ks =>
      have hjoined : Filter.joined (d :: before ++ c :: after) (k :: ks) =
          u.chars ++ (k.spaced ++ Filter.joined (before ++ c :: after) ks) := by
        rw [List.cons_append, htail, hchars, ← List.append_assoc]
        rfl
      have hspaced : ∀ tail, Stops Grammar.isBare (k.spaced ++ tail) :=
        fun tail => Stops.cons_iff.2 (by decide)
      obtain ⟨hwritten, hrest⟩ := Condition.eq_of_append_eq
        (v.comparison.fits_of_stops (stops_isBare_others closing others))
        (u.comparison.fits_of_stops (hspaced _)) (htext.trans hjoined)
      have hconsistent' : ∀ d ∈ before ++ c :: after, d.Consistent s :=
        fun e he => hconsistent e (List.mem_cons_of_mem d he)
      have hstop : Stops Grammar.isBlank (Filter.joined (before ++ c :: after) ks) := by
        rw [htail]
        exact Filter.stops_isBlank_joined (hconsistent' e (htail ▸ List.mem_cons_self ..)) es ks
      cases others with
      | nil =>
        -- the blanks at the end of the text would have to be a connector
        have hmem : ∀ ch ∈ k.keyword.toList, ch ∈ closing.chars := by
          intro ch hch
          rw [List.flatMap_nil, List.nil_append] at hrest
          rw [hrest]
          simp [Connector.spaced, hch]
        cases k with
        | and => exact absurd (closing.blank 'a' (hmem 'a' (by decide))) (by decide)
        | or => exact absurd (closing.blank 'o' (hmem 'o' (by decide))) (by decide)
      | cons n others =>
        rw [List.flatMap_cons, List.append_assoc] at hrest
        obtain ⟨hconnector, hnext⟩ := NextCondition.connector_eq hstop hrest
        cases hread with
        | @cons _ d' _ ds' hd' hds' =>
          rw [hwritten, hu] at hd'
          obtain rfl := Except.ok.inj hd'
          obtain ⟨c', after', rfl, hcolumn, hop, hconnectors⟩ :=
            ih (fun e he => hbefore e (List.mem_cons_of_mem d he)) (Nat.succ.inj hlength)
              hconsistent' hnext hds'
          refine ⟨c', after', rfl, hcolumn, hop, ?_⟩
          rw [List.map_cons, List.length_cons, List.take_succ_cons, List.take_succ_cons,
            hconnector, hconnectors]

/-- **A text changes nothing that stands before it.**  If there are quotes for every text, the
canonical text of a filter is read back.  Otherwise what is read, if anything, begins with the
conditions and connectors before the first text without quotes, and with its column and
operator. -/
theorem parse_text_before {s : Schema} {f : Filter}
    (hlength : f.connectors.length = f.conditions.length - 1)
    (hconsistent : ∀ c ∈ f.conditions, c.Consistent s)
    (hfinite : ∀ c ∈ f.conditions, ∀ x, Scalar.number x ∈ c.value.items → x.isFinite = true) :
    ((∀ c ∈ f.conditions, c.Quotable) → s.parse f.text = .ok f) ∧
      ∀ g, s.parse f.text = .ok g → ∀ before c after, f.conditions = before ++ c :: after →
        (∀ d ∈ before, d.Quotable) → ∃ c' after', g.conditions = before ++ c' :: after' ∧
          c'.column = c.column ∧ c'.operator = c.operator ∧
          g.connectors.take before.length = f.connectors.take before.length := by
  obtain ⟨conditions, connectors⟩ := f
  cases conditions with
  | nil =>
    obtain rfl := List.length_eq_zero_iff.1 hlength
    exact ⟨fun _ => rfl, fun g _ before c after hsplit => by simp at hsplit⟩
  | cons d ds =>
    have hfits : Filter.Consistent s ⟨d :: ds, connectors⟩ :=
      ⟨congrArg (· + 1) hlength, hconsistent⟩
    constructor
    · intro hquotable
      refine parse_text hfits (List.all_eq_true.2 fun c hc => ?_)
      exact Condition.isPlain_of_quotable (hquotable c hc) (hfinite c hc)
    · intro g hread before c after hsplit hquotable
      have hplain : ∀ e ∈ before, e.isPlain = true := by
        intro e he
        have hmem : e ∈ d :: ds := by
          rw [show d :: ds = before ++ c :: after from hsplit]
          exact List.mem_append_left _ he
        exact Condition.isPlain_of_quotable (hquotable e he) (hfinite e hmem)
      rw [hfits.parse_text_eq_readTrimmed] at hread
      obtain ⟨w, htext, hconditions, hconnectors⟩ := Schema.readTrimmed_eq_ok.1 hread
      have hchars : w.opening.chars ++ (w.first.chars ++ (w.others.flatMap NextCondition.chars ++
          w.closing.chars)) = [] ++ Filter.joined (d :: ds) connectors :=
        String.ofList_injective htext
      -- canonical text begins with a column, so no blanks were passed over
      obtain ⟨-, hjoined⟩ := eq_of_append_eq_append hchars w.opening.blank
        (w.first.stops_isBlank _) (fun _ h => (List.not_mem_nil h).elim)
        (Filter.stops_isBlank_joined (hconsistent d (List.mem_cons_self ..)) ds connectors)
      rw [Schema.readConditions_eq_ok, Written.Filter.conditions, Spelling.Filter.written,
        map_layOut] at hconditions
      have hjoined' := hjoined.trans (congrArg (Filter.joined · connectors) hsplit)
      obtain ⟨c', after', hg, hcolumn, hop, htake⟩ := exists_readConditions_before hplain
        (by rw [← hsplit]; exact hfits.length_connectors)
        (fun e he => hconsistent e (hsplit ▸ he)) hjoined' hconditions
      refine ⟨c', after', hg, hcolumn, hop, ?_⟩
      rw [← hconnectors]
      exact htake

/-- The condition before the text is read back, and so are the column and the operator. -/
theorem parse_text_before_second :
    ∃ g, (Schema.ofColumns [⟨"ok", .boolean⟩, ⟨"name", .string⟩]).parse (Filter.text
        ⟨[⟨"ok", .notEqual, .single (.boolean true)⟩,
          ⟨"name", .contains, .single (.text "a\" or name = \"'b")⟩], [.and]⟩) = .ok g ∧
      ∃ c' after', g.conditions = [⟨"ok", .notEqual, .single (.boolean true)⟩] ++ c' :: after' ∧
        c'.column = "name" ∧ c'.operator = .contains ∧
        g.connectors.take 1 = [.and] := by
  have hread : (Schema.ofColumns [⟨"ok", .boolean⟩, ⟨"name", .string⟩]).parse (Filter.text
      ⟨[⟨"ok", .notEqual, .single (.boolean true)⟩,
        ⟨"name", .contains, .single (.text "a\" or name = \"'b")⟩], [.and]⟩) =
      .ok ⟨[⟨"ok", .notEqual, .single (.boolean true)⟩, ⟨"name", .contains, .single (.text "a")⟩,
        ⟨"name", .equal, .single (.text "'b")⟩], [.and, .or]⟩ := by
    decide +kernel
  refine ⟨_, hread, (parse_text_before rfl ?_ ?_).2 _ hread [_] _ [] rfl ?_⟩
  · intro c hc
    simp only [List.mem_cons, List.not_mem_nil, or_false] at hc
    rcases hc with rfl | rfl
    · exact ⟨by decide +kernel, by decide +kernel, .boolean, by decide +kernel, by decide +kernel⟩
    · exact ⟨by decide +kernel, by decide +kernel, .string, by decide +kernel, by decide +kernel⟩
  · intro c hc x hx
    simp only [List.mem_cons, List.not_mem_nil, or_false] at hc
    rcases hc with rfl | rfl <;> cases List.mem_singleton.1 hx
  · intro d hd t ht
    obtain rfl := List.mem_singleton.1 hd
    cases List.mem_singleton.1 ht

/-- A single text is read as two conditions. -/
theorem exists_parse_text_both_quotes :
    Filter.Consistent (Schema.ofColumns [⟨"name", .string⟩])
        ⟨[⟨"name", .equal, .single (.text "a\" and name = \"'b")⟩], []⟩ ∧
      ∃ g, (Schema.ofColumns [⟨"name", .string⟩]).parse (Filter.text
          ⟨[⟨"name", .equal, .single (.text "a\" and name = \"'b")⟩], []⟩) = .ok g ∧
        g ≠ ⟨[⟨"name", .equal, .single (.text "a\" and name = \"'b")⟩], []⟩ := by
  refine ⟨⟨rfl, fun c hc => ?_⟩,
    ⟨[⟨"name", .equal, .single (.text "a")⟩, ⟨"name", .equal, .single (.text "'b")⟩], [.and]⟩,
    by decide +kernel, by decide +kernel⟩
  obtain rfl := List.mem_singleton.1 hc
  exact ⟨by decide +kernel, by decide +kernel, .string, by decide +kernel, by decide +kernel⟩

end ColumnFilter
