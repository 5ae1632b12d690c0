import ColumnFilter.Proofs.RoundTrip.Typing
import ColumnFilter.Proofs.Spelling.Reading
import ColumnFilter.Proofs.Text.LowerCase

/-!
# Reading conditions one after the other

A condition is read if its column is found with a type and its value is read
(`readCondition_eq_ok`).  The conditions of a text are read from left to right,
and the first that cannot be read ends it.  So conditions before another row of
them add what they are read as (`readConditions_append_of_ok`), and a text that
follows the grammar is read as its conditions are (`parse_of_readFilter`).
-/

namespace ColumnFilter

namespace Spelling

theorem Filter.chars_ne_nil (f : Filter) : f.chars ≠ [] := by
  have hfirst : f.first.chars ≠ [] := List.append_ne_nil_of_left_ne_nil f.first.column_ne_nil _
  exact List.append_ne_nil_of_right_ne_nil _ (List.append_ne_nil_of_left_ne_nil hfirst _)

/-- A list stands where the operator takes one, and one literal elsewhere. -/
theorem Condition.value_written_cases (w : Condition) (start : Nat) :
    (∃ (i : Item) (place : Nat), (w.written start).value = .single (i.written place) ∧
      (w.written start).operator.takesList = false) ∨
    (∃ (l : ItemList) (place : Nat), (w.written start).value = l.written place ∧
      (w.written start).operator.takesList = true) := by
  have hvalue : (w.written start).value = w.comparison.value (w.valueStart start) := rfl
  rw [w.operator_written, hvalue]
  cases w.comparison with
  | single op gap item takesOne whole => exact .inl ⟨item, _, rfl, takesOne⟩
  | list keyword gap l => exact .inr ⟨l, _, rfl, by cases keyword <;> rfl⟩

end Spelling

/-! ### Columns in lower case -/

namespace Text

theorem sameIgnoringCase_lower (s t : String) :
    sameIgnoringCase s (lower t) = sameIgnoringCase s t := by
  rw [sameIgnoringCase, sameIgnoringCase, lower_lower]

end Text

theorem similarNames_lower (word : String) (known : List String) :
    similarNames (Text.lower word) known = similarNames word known := by
  rw [similarNames, similarNames, Text.lower_lower]

namespace Schema

theorem resolve_lower (s : Schema) (column : String) :
    s.resolve (Text.lower column) = s.resolve column := by
  simp only [resolve, Text.sameIgnoringCase_lower]

theorem typeOf_lower (s : Schema) (column : String) :
    s.typeOf (Text.lower column) = s.typeOf column := by
  simp only [typeOf, Text.lower_lower, Text.sameIgnoringCase_lower]

/-- A column is looked up in lower case, which is no other look-up than the one in its own case. -/
theorem readCondition_eq (s : Schema) (w : Written.Condition) :
    s.readCondition w = match s.resolve w.column.text with
      | none => .error (.unknownColumn w.column (similarNames w.column.text s.names))
      | some name =>
        match s.typeOf w.column.text with
        | none => .error (.untypedColumn name w.column)
        | some type =>
          match readValue name type w with
          | .error cause => .error cause
          | .ok value => .ok ⟨name, w.operator, value⟩ := by
  rw [← s.resolve_lower w.column.text, ← s.typeOf_lower w.column.text,
    ← similarNames_lower w.column.text]
  rfl

/-! ### What a condition is read as -/

theorem readValue_single_eq_ok {name : String} {type : ColumnType} {c : Written.Condition}
    {i : Written.Item} {v : Value} (hc : c.value = .single i) :
    readValue name type c = .ok v ↔ type.allowsSingle c.operator = true ∧
      type.accepts i = true ∧ ∃ x, type.scalar? i = some x ∧ v = .single x := by
  rw [readValue, hc]
  dsimp only
  cases type.allowsSingle c.operator with
  | false => simp
  | true =>
    cases type.accepts i with
    | false => simp
    | true => cases type.scalar? i <;> simp [eq_comm]

theorem readValue_list_eq_ok {name : String} {type : ColumnType} {c : Written.Condition}
    {whole : Lexeme} {items : List Written.Item} {v : Value} (hc : c.value = .list whole items) :
    readValue name type c = .ok v ↔ type.allowsList c.operator = true ∧
      Fragment.itemList.accepts whole.text = true ∧ v = .list (items.map type.listItem) := by
  rw [readValue, hc]
  dsimp only
  cases type.allowsList c.operator with
  | false => simp
  | true => cases Fragment.itemList.accepts whole.text <;> simp [eq_comm]

/-- **A list of a text is not refused for its form**: what was matched as a list in the text is
matched as one again. -/
theorem readValue_itemList_eq_ok {name : String} {type : ColumnType} {c : Written.Condition}
    {l : Spelling.ItemList} {start : Nat} {v : Value} (hc : c.value = l.written start) :
    readValue name type c = .ok v ↔ type.allowsList c.operator = true ∧
      v = .list ((l.putItems Spelling.Item.written start).map type.listItem) := by
  rw [readValue_list_eq_ok hc, and_iff_right l.accepts_itemList]

theorem readCondition_eq_ok {s : Schema} {w : Written.Condition} {c : Condition} :
    s.readCondition w = .ok c ↔ s.resolve w.column.text = some c.column ∧
      c.operator = w.operator ∧ ∃ type, s.typeOf w.column.text = some type ∧
        readValue c.column type w = .ok c.value := by
  obtain ⟨column, op, value⟩ := c
  rw [readCondition_eq]
  cases s.resolve w.column.text with
  | none => simp
  | some name =>
    cases s.typeOf w.column.text with
    | none => simp
    | some type =>
      dsimp only
      cases hv : readValue name type w with
      | error cause =>
        simp only [reduceCtorEq, Option.some.injEq, false_iff, not_and, not_exists]
        rintro rfl _ _ rfl
        simp [hv]
      | ok v =>
        simp only [Except.ok.injEq, Condition.mk.injEq, Option.some.injEq]
        constructor
        · rintro ⟨rfl, rfl, rfl⟩
          exact ⟨rfl, rfl, type, rfl, hv⟩
        · rintro ⟨rfl, rfl, _, rfl, hv'⟩
          rw [hv] at hv'
          exact ⟨rfl, rfl, Except.ok.inj hv'⟩

/-- Conditions are read one by one. -/
theorem readConditions_eq_ok {s : Schema} {ws : List Written.Condition} :
    ∀ {cs : List Condition}, s.readConditions ws = .ok cs ↔
      List.Forall₂ (fun w c => s.readCondition w = .ok c) ws cs := by
  induction ws with
  | nil =>
    intro cs
    rw [readConditions, List.forall₂_nil_left_iff, Except.ok.injEq, eq_comm]
  | cons w ws ih =>
    intro cs
    rw [readConditions, List.forall₂_cons_left_iff]
    cases hc : s.readCondition w with
    | error cause => simp
    | ok c =>
      cases hcs : s.readConditions ws with
      | error cause => simp [← ih, hcs]
      | ok cs' =>
        constructor
        · intro h
          obtain rfl := Except.ok.inj h
          exact ⟨c, cs', rfl, ih.1 hcs, rfl⟩
        · rintro ⟨d, ds, hd, hds, rfl⟩
          obtain rfl := Except.ok.inj hd
          obtain rfl := Except.ok.inj (hcs.symm.trans (ih.2 hds))
          rfl

end Schema

/-! ### Rows of conditions -/

namespace Schema

variable {s : Schema} {ws vs : List Written.Condition}

theorem exists_readConditions_iff :
    (∃ cs, s.readConditions ws = .ok cs) ↔ ∀ w ∈ ws, ∃ c, s.readCondition w = .ok c := by
  induction ws with
  | nil => simp [readConditions]
  | cons w ws ih =>
    rw [List.forall_mem_cons, ← ih, readConditions]
    cases s.readCondition w with
    | error cause => simp
    | ok c =>
      cases s.readConditions ws with
      | error cause => simp
      | ok cs => simp

/-- Conditions that are read are put in front of those that follow. -/
theorem readConditions_append_of_ok {cs : List Condition} (h : s.readConditions ws = .ok cs) :
    s.readConditions (ws ++ vs) = (s.readConditions vs).map (cs ++ ·) := by
  induction ws generalizing cs with
  | nil =>
    obtain rfl := Except.ok.inj h
    cases hvs : s.readConditions vs <;> simp [hvs, Except.map]
  | cons w ws ih =>
    rw [readConditions] at h
    rw [List.cons_append, readConditions]
    cases hw : s.readCondition w with
    | error cause => simp [hw] at h
    | ok c =>
      cases hws : s.readConditions ws with
      | error cause => simp [hw, hws] at h
      | ok cs' =>
        simp only [hw, hws, Except.ok.injEq] at h
        subst h
        simp only [ih hws]
        cases s.readConditions vs <;> rfl

/-- The first condition that cannot be read decides. -/
theorem readConditions_eq_error {w : Written.Condition} {cause : Cause}
    (hws : ∀ v ∈ ws, ∃ c, s.readCondition v = .ok c) (hw : s.readCondition w = .error cause) :
    s.readConditions (ws ++ w :: vs) = .error cause := by
  obtain ⟨cs, hcs⟩ := exists_readConditions_iff.2 hws
  rw [readConditions_append_of_ok hcs, readConditions, hw]
  rfl

/-- What some conditions are refused for is wrong with one of them. -/
theorem exists_of_readConditions_eq_error {cause : Cause} (h : s.readConditions ws = .error cause) :
    ∃ w ∈ ws, s.readCondition w = .error cause := by
  induction ws with
  | nil => cases h
  | cons w ws ih =>
    rw [readConditions] at h
    cases hw : s.readCondition w with
    | error found =>
      simp only [hw, Except.error.injEq] at h
      subst h
      exact ⟨w, List.mem_cons_self .., hw⟩
    | ok c =>
      cases hws : s.readConditions ws with
      | error found =>
        simp only [hw, hws, Except.error.injEq] at h
        subst h
        obtain ⟨v, hv, hcause⟩ := ih hws
        exact ⟨v, List.mem_cons_of_mem w hv, hcause⟩
      | ok cs =>
        simp only [hw, hws] at h
        cases h

theorem parse_of_not_isEmpty {text : String} (h : ¬(Text.trim text).isEmpty = true) :
    s.parse text = s.readTrimmed (Text.trim text) := by
  rw [parse]
  exact if_neg h

/-- **A text that follows the grammar is read as its conditions are.** -/
theorem parse_of_readFilter {text : String} {w : Written.Filter}
    (h : Written.readFilter (Text.trim text) = .ok w) :
    s.parse text = match s.readConditions w.conditions with
      | .error cause => .error ⟨cause, Text.trim text⟩
      | .ok cs => .ok ⟨cs, w.connectors⟩ := by
  obtain ⟨f, hf, -⟩ := readFilter_eq_ok.1 h
  have hne : ¬(Text.trim text).isEmpty = true := by
    rw [← hf, String.isEmpty_iff]
    intro hempty
    exact f.chars_ne_nil (String.ofList_injective hempty)
  rw [parse_of_not_isEmpty hne]
  unfold readTrimmed
  cases hconditions : s.readConditions w.conditions with
  | error cause => simp only [h, hconditions]
  | ok cs => simp only [h, hconditions]

/-- It is accepted if its conditions are read, and then nothing is added to them. -/
theorem parse_eq_ok_iff_of_readFilter {text : String} {w : Written.Filter} {f : Filter}
    (h : Written.readFilter (Text.trim text) = .ok w) : s.parse text = .ok f ↔
      s.readConditions w.conditions = .ok f.conditions ∧ f.connectors = w.connectors := by
  obtain ⟨conditions, connectors⟩ := f
  rw [parse_of_readFilter h]
  cases s.readConditions w.conditions with
  | error cause => simp
  | ok cs => simp [eq_comm]

/-- A text that does not follow the grammar is refused, unless it is white space alone. -/
theorem parse_of_readFilter_error {text : String} {found : Fault}
    (h : Written.readFilter (Text.trim text) = .error found) : s.parse text = .ok .empty ∨
      s.parse text = .error (found.withSource (Text.trim text)) := by
  by_cases hempty : (Text.trim text).isEmpty = true
  · exact .inl (if_pos hempty)
  · rw [parse_of_not_isEmpty hempty]
    unfold readTrimmed
    simp only [h, reduceCtorEq, or_true]

/-- A text that is accepted is read condition by condition. -/
theorem forall₂_readCondition_of_parse {text : String} {w : Written.Filter} {f : Filter}
    (hread : Written.readFilter (Text.trim text) = .ok w) (h : s.parse text = .ok f) :
    List.Forall₂ (fun c d => s.readCondition c = .ok d) w.conditions f.conditions := by
  rw [parse_eq_ok_iff_of_readFilter hread] at h
  exact readConditions_eq_ok.1 h.1

/-- A text is refused for its form, or for one of its conditions. -/
theorem exists_of_parse_eq_error {text : String} {fault : Fault} (h : s.parse text = .error fault) :
    (∃ found, Written.readFilter (Text.trim text) = .error found ∧ fault.cause = found.cause) ∨
      ∃ w, Written.readFilter (Text.trim text) = .ok w ∧
        ∃ c ∈ w.conditions, s.readCondition c = .error fault.cause := by
  cases hread : Written.readFilter (Text.trim text) with
  | error found =>
    rcases parse_of_readFilter_error hread with hempty | hparse
    · rw [hempty] at h
      cases h
    · rw [hparse] at h
      obtain rfl := Except.error.inj h
      exact .inl ⟨found, rfl, rfl⟩
  | ok w =>
    rw [parse_of_readFilter hread] at h
    cases hconditions : s.readConditions w.conditions with
    | ok cs =>
      rw [hconditions] at h
      cases h
    | error cause =>
      rw [hconditions] at h
      obtain rfl := Except.error.inj h
      exact .inr ⟨w, rfl, exists_of_readConditions_eq_error hconditions⟩

end Schema

end ColumnFilter
