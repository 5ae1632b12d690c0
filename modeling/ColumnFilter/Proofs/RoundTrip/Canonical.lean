import ColumnFilter.Proofs.RoundTrip.Weight

/-!
# Which canonical texts are read back

`parse_text_sameValue_iff` says for which filters canonical text is no loss: of
all filters that fit a schema, the plain ones.  Filters that were parsed fit
their schema, but for the spelling of their columns: a declared name is put in
the place of the word that was typed, and it need not be a word itself.
`parse_text_of_parse` is what that leaves of the stability of canonical text.
-/

namespace ColumnFilter

open Text

/-! ### Columns under two spellings -/

namespace Schema

variable {s : Schema} {name column : String}

theorem resolve_congr (h : sameIgnoringCase name column = true) :
    s.resolve name = s.resolve column := by
  have heq : lower name = lower column := eq_of_beq h
  simp only [resolve, sameIgnoringCase, heq]

theorem typeOf_congr (h : sameIgnoringCase name column = true) :
    s.typeOf name = s.typeOf column := by
  have heq : lower name = lower column := eq_of_beq h
  simp only [typeOf, sameIgnoringCase, heq]

end Schema

namespace Text

/-- The code points of white space. -/
def whiteSpaceCodes : List Nat :=
  [0x09, 0x0A, 0x0B, 0x0C, 0x0D, 0x20, 0x85, 0xA0, 0x1680, 0x2000, 0x2001, 0x2002, 0x2003, 0x2004,
    0x2005, 0x2006, 0x2007, 0x2008, 0x2009, 0x200A, 0x2028, 0x2029, 0x202F, 0x205F, 0x3000]

theorem mem_whiteSpaceCodes {c : Char} (h : isWhiteSpace c = true) :
    c.toNat ∈ whiteSpaceCodes := by
  simp only [isWhiteSpace, Bool.or_eq_true, Bool.and_eq_true, decide_eq_true_eq, beq_iff_eq] at h
  simp only [whiteSpaceCodes, List.mem_cons, List.not_mem_nil, or_false]
  omega

/-- White space has no case. -/
theorem lowerForm_of_isWhiteSpace {c : Char} (h : isWhiteSpace c = true)
    (before after : List Char) : lowerForm before c after = [c] := by
  have hall : ∀ n ∈ whiteSpaceCodes,
      Char.ofNat n ≠ capitalSigma ∧ lowerChar (Char.ofNat n) = [Char.ofNat n] := by
    decide +kernel
  obtain ⟨hsigma, hlower⟩ := hall c.toNat (mem_whiteSpaceCodes h)
  rw [Char.ofNat_toNat] at hsigma hlower
  rw [lowerForm, if_neg hsigma, hlower]

/-- What has the lower-case form of a word does not begin with white space. -/
theorem stops_of_sameIgnoringCase {name word : String} (hword : isWord word = true)
    (h : sameIgnoringCase name word = true) :
    name.toList ≠ [] ∧ Stops isWhiteSpace name.toList := by
  obtain ⟨hlower, hchars⟩ := lowerFrom_of_sameIgnoringCase hword h
  cases hname : name.toList with
  | nil =>
    rw [hname] at hlower
    have hnil : word.toList = [] := List.map_eq_nil_iff.1 hlower.symm
    rw [isWord, hnil] at hword
    cases hword
  | cons c cs =>
    refine ⟨List.cons_ne_nil _ _, Stops.cons_iff.2 (Bool.eq_false_iff.2 fun hc => ?_)⟩
    have hmem : c ∈ asciiLower word.toList := by
      rw [← hlower, hname, lowerFrom_cons, lowerForm_of_isWhiteSpace hc]
      exact List.mem_cons_self ..
    have hnot := isWhiteSpace_eq_false_of_isWordChar (hchars c hmem)
    rw [hc] at hnot
    cases hnot

end Text

/-! ### Filters that were read -/

theorem exists_denotes_of_mem {l : Spelling.ItemList} {start : Nat} {type : ColumnType} {x : Scalar}
    (h : x ∈ (l.putItems Spelling.Item.written start).map type.listItem) :
    ∃ i : Spelling.Item, i.Denotes x := by
  obtain ⟨j, hj, rfl⟩ := List.mem_map.1 h
  rw [Spelling.ItemList.putItems] at hj
  rcases List.mem_cons.1 hj with rfl | hj
  · exact ⟨l.first, ColumnType.denotes_listItem type l.first _⟩
  · obtain ⟨n, -, place, rfl⟩ := Spelling.exists_of_mem_layOut hj
    exact ⟨n.item, ColumnType.denotes_listItem type n.item _⟩

/-- What is read equals itself. -/
theorem sameValue_self_of_readCondition {s : Schema} {w : Spelling.Condition} {start : Nat}
    {c : Condition} (h : s.readCondition (w.written start) = .ok c) : c.sameValue c = true := by
  obtain ⟨-, -, type, -, hvalue⟩ := Schema.readCondition_eq_ok.1 h
  rw [Condition.sameValue, beq_self_eq_true, beq_self_eq_true, Bool.true_and, Bool.true_and]
  rcases Schema.readValue_written hvalue with
    ⟨i, place, x, -, -, haccepts, hx, hc⟩ | ⟨l, place, -, -, hc⟩
  · rw [hc]
    exact ColumnType.sameValue_self_of_denotes (ColumnType.denotes_of_scalar? haccepts hx)
  · rw [hc, Value.sameValue_list_iff, List.forall₂_same]
    intro x hx
    obtain ⟨i, hi⟩ := exists_denotes_of_mem hx
    exact ColumnType.sameValue_self_of_denotes hi

/-- The declared column of a condition that was read has the lower-case form of a word. -/
theorem exists_isWord_of_readCondition {s : Schema} {w : Spelling.Condition} {start : Nat}
    {c : Condition} (h : s.readCondition (w.written start) = .ok c) :
    ∃ word, isWord word = true ∧ sameIgnoringCase c.column word = true := by
  obtain ⟨hresolve, -⟩ := Schema.readCondition_eq_ok.1 h
  exact ⟨String.ofList w.column, w.isWord_column, Schema.sameIgnoringCase_of_resolve hresolve⟩

/-- A condition that was read asks of a declared column what its type allows. -/
theorem admits_of_readCondition {s : Schema} {w : Spelling.Condition} {start : Nat}
    {c : Condition} (h : s.readCondition (w.written start) = .ok c) :
    s.resolve c.column = some c.column ∧
      ∃ type, s.typeOf c.column = some type ∧ type.admits c.operator c.value = true := by
  obtain ⟨hresolve, hop, type, htype, hvalue⟩ := Schema.readCondition_eq_ok.1 h
  have hsame := Schema.sameIgnoringCase_of_resolve hresolve
  rw [w.operator_written] at hop
  refine ⟨(Schema.resolve_congr hsame).trans hresolve, type,
    (Schema.typeOf_congr hsame).trans htype, ?_⟩
  rcases Schema.readValue_written hvalue with
    ⟨i, place, x, -, hallows, -, hx, hc⟩ | ⟨l, place, -, hallows, hc⟩
  · rw [hc, hop, ColumnType.admits, hallows, Bool.true_and]
    exact ColumnType.fits_of_scalar? hx
  · rw [hc, hop, ColumnType.admits, hallows, Bool.true_and, Bool.and_eq_true, List.all_eq_true]
    refine ⟨rfl, fun x hx => ?_⟩
    obtain ⟨j, -, rfl⟩ := List.mem_map.1 hx
    exact ColumnType.fitsList_listItem hallows j

/-- A condition that was read is consistent, if its declared column is a word. -/
theorem consistent_of_readCondition {s : Schema} {w : Spelling.Condition} {start : Nat}
    {c : Condition} (h : s.readCondition (w.written start) = .ok c)
    (hword : isWord c.column = true) : c.Consistent s :=
  ⟨hword, (admits_of_readCondition h).1, (admits_of_readCondition h).2⟩

/-- What a parsed filter is made of: one connector in every gap, and conditions that were read. -/
theorem exists_readCondition_of_readTrimmed {s : Schema} {source : String} {f : Filter}
    (h : s.readTrimmed source = .ok f) :
    f.connectors.length + 1 = f.conditions.length ∧
      ∀ c ∈ f.conditions, ∃ (w : Spelling.Condition) (start : Nat),
        s.readCondition (w.written start) = .ok c := by
  obtain ⟨w, -, hconditions, hconnectors⟩ := Schema.readTrimmed_eq_ok.1 h
  rw [Schema.readConditions_eq_ok] at hconditions
  constructor
  · rw [← hconnectors, ← hconditions.length_eq, ← w.connectors_written, Written.Filter.connectors,
      Written.Filter.conditions, List.length_cons, List.length_map, List.length_map]
  · have hread : ∀ {ws cs}, List.Forall₂ (fun w c => s.readCondition w = .ok c) ws cs →
        ∀ c ∈ cs, ∃ w ∈ ws, s.readCondition w = .ok c := by
      intro ws cs hall
      induction hall with
      | nil => exact fun _ hc => (List.not_mem_nil hc).elim
      | @cons w d ws ds hd _ ih =>
        intro c hc
        rcases List.mem_cons.1 hc with rfl | hc
        · exact ⟨w, List.mem_cons_self .., hd⟩
        · obtain ⟨w', hw', hc⟩ := ih c hc
          exact ⟨w', List.mem_cons_of_mem w hw', hc⟩
    intro c hc
    obtain ⟨_, hw, hc⟩ := hread hconditions c hc
    obtain ⟨d, start, rfl⟩ := Spelling.Filter.exists_of_mem hw
    exact ⟨d, start, hc⟩

theorem sameValue_self_of_readTrimmed {s : Schema} {source : String} {f : Filter}
    (h : s.readTrimmed source = .ok f) : f.sameValue f = true := by
  rw [Filter.sameValue_iff, List.forall₂_same]
  refine ⟨fun c hc => ?_, rfl⟩
  obtain ⟨w, start, hread⟩ := (exists_readCondition_of_readTrimmed h).2 c hc
  exact sameValue_self_of_readCondition hread

/-- A plain filter equals itself. -/
theorem Filter.sameValue_self_of_isPlain {f : Filter} (h : f.isPlain = true) :
    f.sameValue f = true := by
  have hscalar : ∀ {x : Scalar}, x.isPlain = true → x.sameValue x = true := by
    intro x hx
    cases x with
    | number x => exact Number.sameValue_self hx
    | _ => exact beq_self_eq_true _
  rw [Filter.sameValue_iff, List.forall₂_same]
  refine ⟨fun c hc => ?_, rfl⟩
  have hitems : ∀ x ∈ c.value.items, x.isPlain = true :=
    List.all_eq_true.1 (List.all_eq_true.1 h c hc)
  rw [Condition.sameValue, beq_self_eq_true, beq_self_eq_true, Bool.true_and, Bool.true_and]
  cases hv : c.value with
  | single x =>
    rw [hv] at hitems
    exact hscalar (hitems x (List.mem_singleton_self x))
  | list xs =>
    rw [hv] at hitems
    rw [Value.sameValue_list_iff, List.forall₂_same]
    exact fun x hx => hscalar (hitems x hx)

/-! ### Canonical text -/

/-- **Canonical text is read back if and only if the filter is plain.** -/
theorem parse_text_sameValue_iff {s : Schema} {f : Filter} (h : f.Consistent s) :
    ((∃ g, s.parse f.text = .ok g ∧ g.sameValue f = true) ↔ f.isPlain = true) ∧
      (s.parse f.text = .ok f ↔ f.isPlain = true) := by
  have honly : ∀ g, s.parse f.text = .ok g → g.sameValue f = true → f.isPlain = true := by
    intro g hread hsame
    rw [h.parse_text_eq_readTrimmed] at hread
    exact (isPlain_of_readTrimmed hread hsame).2
  constructor
  · constructor
    · rintro ⟨g, hread, hsame⟩
      exact honly g hread hsame
    · exact fun hplain => ⟨f, parse_text h hplain, Filter.sameValue_self_of_isPlain hplain⟩
  · refine ⟨fun hread => honly f hread ?_, parse_text h⟩
    rw [h.parse_text_eq_readTrimmed] at hread
    exact sameValue_self_of_readTrimmed hread

/-- A text with both quotes in it has no literal. -/
theorem parse_text_sameValue_iff_bothQuotes :
    Filter.Consistent (Schema.ofColumns [⟨"name", .string⟩])
        ⟨[⟨"name", .equal, .single (.text "a\"b'c")⟩], []⟩ ∧
      ¬∃ g, (Schema.ofColumns [⟨"name", .string⟩]).parse
          (Filter.text ⟨[⟨"name", .equal, .single (.text "a\"b'c")⟩], []⟩) = .ok g ∧
        g.sameValue ⟨[⟨"name", .equal, .single (.text "a\"b'c")⟩], []⟩ = true := by
  have h : Filter.Consistent (Schema.ofColumns [⟨"name", .string⟩])
      ⟨[⟨"name", .equal, .single (.text "a\"b'c")⟩], []⟩ := by
    refine ⟨rfl, fun c hc => ?_⟩
    obtain rfl := List.mem_singleton.1 hc
    exact ⟨by decide +kernel, by decide +kernel, .string, by decide +kernel, by decide +kernel⟩
  refine ⟨h, fun hread => ?_⟩
  exact absurd ((parse_text_sameValue_iff h).1.1 hread) (by decide +kernel)

/-- A parsed filter is the empty one, or its text without the white space around it was read. -/
theorem Schema.parse_eq_ok {s : Schema} {text : String} {f : Filter} :
    s.parse text = .ok f ↔
      if (trim text).isEmpty then f = .empty else s.readTrimmed (trim text) = .ok f := by
  rw [parse]
  split
  · exact ⟨fun h => (Except.ok.inj h).symm, fun h => h ▸ rfl⟩
  · exact Iff.rfl

/-- A trimmed text that is accepted is a spelling of its filter, if there is any text. -/
theorem Schema.exists_spelling_of_parse {s : Schema} {text : String} {f : Filter}
    (h : s.parse text = .ok f) (htrim : trim text = text) (hne : text ≠ "") :
    ∃ v : Spelling.Filter, v.text = text ∧
      s.readConditions v.written.conditions = .ok f.conditions ∧ v.connectors = f.connectors := by
  rw [Schema.parse_eq_ok, htrim, if_neg (by simpa using hne)] at h
  exact Schema.readTrimmed_eq_ok.1 h

/-- What the canonical text of a filter that was read tells of the filter. -/
theorem isPlain_of_parse_text {s : Schema} {source : String} {f : Filter}
    (h : s.readTrimmed source = .ok f) (hread : s.parse f.text = .ok f) :
    (∀ c ∈ f.conditions, isWord c.column = true) ∧ f.isPlain = true := by
  obtain ⟨hlength, hconditions⟩ := exists_readCondition_of_readTrimmed h
  rw [s.parse_text_eq_readTrimmed] at hread
  · exact isPlain_of_readTrimmed hread (sameValue_self_of_readTrimmed h)
  · intro hnil
    rw [hnil] at hlength
    cases hlength
  · intro c hc
    obtain ⟨w, start, hc⟩ := hconditions c hc
    obtain ⟨word, hword, hsame⟩ := exists_isWord_of_readCondition hc
    exact stops_of_sameIgnoringCase hword hsame

/-- **The canonical text of a plain parsed filter over columns named by words is read back.** -/
theorem parse_text_of_parse {s : Schema} {text : String} {f : Filter}
    (h : s.parse text = .ok f) :
    ((∀ c ∈ f.conditions, isWord c.column = true) → f.isPlain = true →
        s.parse f.text = .ok f) ∧
      (s.parse f.text = .ok f → (∀ c ∈ f.conditions, isWord c.column = true) ∧
        ∀ c ∈ f.conditions, ∀ t, Scalar.text t ∈ c.value.items →
          ¬('"' ∈ t.toList ∧ '\'' ∈ t.toList)) := by
  rw [Schema.parse_eq_ok] at h
  split at h
  · subst h
    exact ⟨fun _ _ => rfl, fun _ => ⟨fun _ hc => (List.not_mem_nil hc).elim,
      fun _ hc => (List.not_mem_nil hc).elim⟩⟩
  · constructor
    · intro hwords hplain
      obtain ⟨hlength, hconditions⟩ := exists_readCondition_of_readTrimmed h
      refine parse_text ⟨hlength, fun c hc => ?_⟩ hplain
      obtain ⟨w, start, hread⟩ := hconditions c hc
      exact consistent_of_readCondition hread (hwords c hc)
    · intro hread
      obtain ⟨hwords, hplain⟩ := isPlain_of_parse_text h hread
      refine ⟨hwords, fun c hc t ht => isPlain_text_iff.1 ?_⟩
      exact List.all_eq_true.1 (List.all_eq_true.1 hplain c hc) _ ht

/-- Columns in another case, and an unquoted text with a quote in it. -/
theorem parse_text_of_parse_bareList :
    ∃ f, (Schema.ofColumns [⟨"ok", .boolean⟩, ⟨"name", .string⟩]).parse
        "OK!=NULL AND Name  not IN(a\"b,null)" = .ok f ∧
      (Schema.ofColumns [⟨"ok", .boolean⟩, ⟨"name", .string⟩]).parse f.text = .ok f := by
  have h : (Schema.ofColumns [⟨"ok", .boolean⟩, ⟨"name", .string⟩]).parse
      "OK!=NULL AND Name  not IN(a\"b,null)" =
        .ok ⟨[⟨"ok", .notEqual, .single .null⟩,
          ⟨"name", .noneOf, .list [.text "a\"b", .null]⟩], [.and]⟩ := by
    decide +kernel
  exact ⟨_, h, (parse_text_of_parse h).1 (by decide +kernel) (by decide +kernel)⟩

/-- Without quotes a list may hold a text with both of them, a declared name may be no word
while its lower-case form is one, and a literal may be too great for a finite number. -/
theorem exists_parse_text_ne :
    (∃ f, (Schema.ofColumns [⟨"name", .string⟩]).parse "name in (a\"b'c)" = .ok f ∧
      (Schema.ofColumns [⟨"name", .string⟩]).parse f.text ≠ .ok f) ∧
    (∃ f, (Schema.ofColumns [⟨"\u212a", .boolean⟩]).parse "k = true" = .ok f ∧
      (Schema.ofColumns [⟨"\u212a", .boolean⟩]).parse f.text ≠ .ok f) ∧
    (∃ f, (Schema.ofColumns [⟨"age", .number⟩]).parse "age > 1e400" = .ok f ∧
      (Schema.ofColumns [⟨"age", .number⟩]).parse f.text ≠ .ok f) := by
  refine ⟨⟨⟨[⟨"name", .oneOf, .list [.text "a\"b'c"]⟩], []⟩, ?_, ?_⟩,
    ⟨⟨[⟨"\u212a", .equal, .single (.boolean true)⟩], []⟩, ?_, ?_⟩,
    ⟨⟨[⟨"age", .greater, .single (.number (.infinite false))⟩], []⟩, ?_, ?_⟩⟩ <;> decide +kernel

end ColumnFilter
