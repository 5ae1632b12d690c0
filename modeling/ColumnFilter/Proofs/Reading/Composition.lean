import ColumnFilter.Proofs.Reading.Conditions
import ColumnFilter.Proofs.Reading.Joining
import ColumnFilter.Proofs.RoundTrip.Canonical

/-!
# Texts joined by a connector

What a text means does not depend on its neighbours.  If a connector is put
between two texts, the conditions of the first are followed by those of the
second, and what is wrong with a condition of the second is wrong with it in the
whole, only further right (`parse_join`).
-/

namespace ColumnFilter

open Text

namespace Cause

/-- The cause in a text that begins `distance` bytes later.  A line and a column stay what
they are: nothing but a text that does not follow the grammar has them. -/
def shift (distance : Nat) : Cause → Cause
  | malformed shown atEnd position complaint =>
    malformed (shown.shift distance) atEnd position complaint
  | unknownColumn column similar => unknownColumn (column.shift distance) similar
  | untypedColumn name column => untypedColumn name (column.shift distance)
  | incompatibleOperator name type operator column =>
    incompatibleOperator name type (operator.shift distance) (column.shift distance)
  | invalidValue type found => invalidValue type (found.shift distance)
  | internal message => internal message

variable (distance : Nat) (cause : Cause)

theorem message_shift : (cause.shift distance).message = cause.message := by
  cases cause <;> rfl

theorem code_shift : (cause.shift distance).code = cause.code := by
  cases cause <;> rfl

theorem help_shift : (cause.shift distance).help = cause.help := by
  cases cause <;> rfl

/-- Every place that is pointed at moves. -/
theorem labels_shift : (cause.shift distance).labels =
    cause.labels.map fun label => (label.1, label.2.shift distance) := by
  cases cause <;> simp [shift, labels, Lexeme.span_shift]

end Cause

/-! ### Conditions -/

namespace Schema

variable (distance : Nat) (s : Schema) {name : String} {type : ColumnType}

theorem readValue_shift (c : Written.Condition) : readValue name type (c.shift distance) =
    (readValue name type c).mapError (Cause.shift distance) := by
  have hop : (c.shift distance).operator = c.operator := rfl
  have hcause : Cause.incompatibleOperator name type (c.shift distance).comparator
      (c.shift distance).column =
        (Cause.incompatibleOperator name type c.comparator c.column).shift distance := rfl
  cases hvalue : c.value with
  | single item =>
    have hshift : (c.shift distance).value = .single (item.shift distance) := by
      rw [Written.Condition.shift, hvalue]
      rfl
    have haccepts : type.accepts (item.shift distance) = type.accepts item :=
      type.accepts_congr rfl
    have hscalar : type.scalar? (item.shift distance) = type.scalar? item :=
      type.scalar?_congr rfl
    simp only [readValue, hshift, hvalue, hop, hcause, haccepts, hscalar]
    by_cases hallows : type.allowsSingle c.operator = true
    · simp only [hallows, if_true]
      cases if type.accepts item then type.scalar? item else none with
      | none => rfl
      | some x => rfl
    · simp only [hallows]
      rfl
  | list whole items =>
    have hshift : (c.shift distance).value =
        .list (whole.shift distance) (items.map (Written.Item.shift distance)) := by
      rw [Written.Condition.shift, hvalue]
      rfl
    have hitems : (items.map (Written.Item.shift distance)).map type.listItem =
        items.map type.listItem := by
      rw [List.map_map]
      exact List.map_congr_left fun item _ => type.listItem_congr rfl
    have hwhole : (whole.shift distance).text = whole.text := rfl
    simp only [readValue, hshift, hvalue, hop, hcause, hitems, hwhole]
    by_cases hallows : type.allowsList c.operator = true
    · simp only [hallows, if_true]
      cases Fragment.itemList.accepts whole.text with
      | false => rfl
      | true => rfl
    · simp only [hallows]
      rfl

theorem readCondition_shift (c : Written.Condition) : s.readCondition (c.shift distance) =
    (s.readCondition c).mapError (Cause.shift distance) := by
  have htext : (c.shift distance).column.text = c.column.text := rfl
  have hop : (c.shift distance).operator = c.operator := rfl
  simp only [readCondition_eq, htext, hop]
  cases s.resolve c.column.text with
  | none => rfl
  | some name =>
    cases s.typeOf c.column.text with
    | none => rfl
    | some type =>
      simp only [readValue_shift]
      cases readValue name type c with
      | error cause => rfl
      | ok value => rfl

theorem readConditions_shift (cs : List Written.Condition) :
    s.readConditions (cs.map (Written.Condition.shift distance)) =
      (s.readConditions cs).mapError (Cause.shift distance) := by
  induction cs with
  | nil => rfl
  | cons c cs ih =>
    simp only [List.map_cons, readConditions, readCondition_shift, ih]
    cases s.readCondition c with
    | error cause => rfl
    | ok condition =>
      cases s.readConditions cs with
      | error cause => rfl
      | ok conditions => rfl

end Schema

/-! ### Texts -/

/-- Two texts with a connector between two spaces. -/
def Connector.join (k : Connector) (first second : String) : String :=
  first ++ String.ofList k.spaced ++ second

theorem Text.trim_join {first second : String} (k : Connector) (hfirst : first ≠ "")
    (hsecond : second ≠ "") (htrim : trim first = first) (htrim' : trim second = second) :
    trim (k.join first second) = k.join first second := by
  have hstart : Stops isWhiteSpace first.toList :=
    (trimChars_eq_self_iff.1 (String.ofList_injective (htrim.trans String.ofList_toList.symm))).1
  have hend : Stops isWhiteSpace second.toList.reverse :=
    (trimChars_eq_self_iff.1 (String.ofList_injective (htrim'.trans String.ofList_toList.symm))).2
  have hne : first.toList ≠ [] := by simpa using hfirst
  have hne' : second.toList.reverse ≠ [] := by simpa using hsecond
  rw [trim, trimChars_eq_self_iff.2, String.ofList_toList]
  rw [Connector.join, String.toList_append, String.toList_append, List.reverse_append]
  refine ⟨?_, .append_of_ne_nil hne' hend⟩
  rw [List.append_assoc]
  exact .append_of_ne_nil hne hstart

/-- **Texts are read independently of each other.**  The conditions of two texts with a
connector between them are those of the one and then those of the other; a fault of the second
is a fault of the whole, with every place moved to where the second begins. -/
theorem parse_join {s : Schema} {first second : String} {f : Filter} {w : Written.Filter}
    (k : Connector) (hne : first ≠ "") (htrim : trim first = first)
    (hfirst : s.parse first = .ok f) (htrim' : trim second = second)
    (hsecond : Written.readFilter second = .ok w) :
    (∀ g, s.parse second = .ok g → s.parse (k.join first second) =
      .ok ⟨f.conditions ++ g.conditions, f.connectors ++ k :: g.connectors⟩) ∧
    ∀ fault, s.parse second = .error fault → s.parse (k.join first second) =
      .error ⟨fault.cause.shift (size (first ++ String.ofList k.spaced)), k.join first second⟩ := by
  obtain ⟨v, hv, hconditions, hconnectors⟩ := Schema.exists_spelling_of_parse hfirst htrim hne
  obtain ⟨u, hu, rfl⟩ := readFilter_eq_ok.1 hsecond
  have hne' : second ≠ "" := by
    rw [← hu]
    intro hempty
    exact u.chars_ne_nil (String.ofList_injective hempty)
  have htext : (v.join k u).text = k.join first second := by
    rw [Spelling.Filter.text, v.chars_join, String.ofList_append, String.ofList_append,
      Connector.join, ← hv, ← hu]
    rfl
  have hjoin := Text.trim_join k hne hne' htrim htrim'
  have hread : Written.readFilter (trim (k.join first second)) = .ok (v.join k u).written := by
    rw [hjoin, ← htext]
    exact readFilter_text _
  have hdistance : byteLength (v.chars ++ k.spaced) = size (first ++ String.ofList k.spaced) := by
    rw [size, ← hv, Spelling.Filter.text, ← String.ofList_append, String.toList_ofList]
  have hparse := s.parse_of_readFilter (htrim'.symm ▸ hsecond)
  have hwhole := s.parse_of_readFilter hread
  rw [v.conditions_join, Schema.readConditions_append_of_ok hconditions,
    Schema.readConditions_shift, hdistance, hjoin, Spelling.Filter.connectors_written,
    v.connectors_join, hconnectors] at hwhole
  rw [hwhole, hparse, htrim', Spelling.Filter.connectors_written]
  cases s.readConditions u.written.conditions with
  | error cause =>
    refine ⟨fun g hg => (by cases hg), ?_⟩
    rintro fault ⟨⟩
    rfl
  | ok conditions =>
    refine ⟨?_, fun fault hfault => by cases hfault⟩
    rintro g ⟨⟩
    rfl

/-- A column that is not declared, thirteen bytes further right than in its own text. -/
theorem parse_join_unknownColumn :
    (Schema.ofColumns [⟨"ok", .boolean⟩]).parse "ko != 1" =
        .error ⟨.unknownColumn ⟨"ko", 0⟩ ["ok"], "ko != 1"⟩ ∧
      (Schema.ofColumns [⟨"ok", .boolean⟩]).parse (Connector.or.join "ok = true" "ko != 1") =
        .error ⟨.unknownColumn ⟨"ko", 13⟩ ["ok"], Connector.or.join "ok = true" "ko != 1"⟩ := by
  have hfirst : (Schema.ofColumns [⟨"ok", .boolean⟩]).parse "ok = true" =
      .ok ⟨[⟨"ok", .equal, .single (.boolean true)⟩], []⟩ := by
    decide +kernel
  have hsecond : Written.readFilter "ko != 1" = .ok
      ⟨⟨⟨"ko != 1", 0⟩, ⟨"ko", 0⟩, ⟨"!=", 3⟩, .single ⟨.number, ⟨"1", 6⟩⟩⟩, []⟩ := by
    decide +kernel
  have hfault : (Schema.ofColumns [⟨"ok", .boolean⟩]).parse "ko != 1" =
      .error ⟨.unknownColumn ⟨"ko", 0⟩ ["ok"], "ko != 1"⟩ := by
    decide +kernel
  have hdistance : size ("ok = true" ++ String.ofList Connector.or.spaced) = 13 := by decide +kernel
  have hjoin := (parse_join .or (by decide) (by decide +kernel) hfirst (by decide +kernel)
    hsecond).2 _ hfault
  rw [hdistance] at hjoin
  exact ⟨hfault, hjoin⟩

end ColumnFilter
