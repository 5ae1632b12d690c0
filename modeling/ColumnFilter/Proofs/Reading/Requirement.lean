import ColumnFilter.Proofs.Reading.Conditions
import ColumnFilter.Proofs.Reading.SingleValue
import ColumnFilter.Proofs.RoundTrip.Canonical
import ColumnFilter.Proofs.Text.LowerCase

/-!
# What is asked of a condition

Four things are asked of a condition that follows the grammar, one after the
other: its column is declared, the column has a type, the type allows the
operator, and a single value is a literal of the type.  Nothing is asked of the
literals of a list, and the list itself, matched with the grammar once more, is
never refused (`readValue_itemList_eq_ok`).

`Refusal` says what is found wrong if one of these requirements is not met.  A
text is accepted exactly if all of its conditions meet all of them, and
otherwise the first requirement that the first bad condition does not meet is
what is complained of (`parse_ok_iff_met_and_refusal`).
-/

namespace ColumnFilter

open Text

/-- What is asked of a condition. -/
inductive Requirement where
  | declared
  | typed
  | allowed
  | fitting
deriving DecidableEq, Repr

namespace Requirement

/-- The place of a requirement in the order in which they are asked. -/
def rank : Requirement → Nat
  | declared => 0
  | typed => 1
  | allowed => 2
  | fitting => 3

/-- Does a condition meet a requirement? -/
def Met (s : Schema) (c : Written.Condition) : Requirement → Prop
  | declared => ∃ name ∈ s.names, sameIgnoringCase name c.column.text = true
  | typed => ∃ entry ∈ s.types, sameIgnoringCase entry.1 c.column.text = true
  | allowed => ∀ type, s.typeOf c.column.text = some type → type.allows c.operator = true
  | fitting => c.operator.takesList = false → ∀ type, s.typeOf c.column.text = some type →
      ∀ item ∈ c.value.items, type.HasLiteral item.chars

end Requirement

/-- What is wrong with a condition that does not meet a requirement. -/
inductive Refusal (s : Schema) (c : Written.Condition) : Requirement → Cause → Prop where
  | undeclared :
      Refusal s c .declared (.unknownColumn c.column (similarNames c.column.text s.names))
  | untyped {name : String} : s.resolve c.column.text = some name →
      Refusal s c .typed (.untypedColumn name c.column)
  | disallowed {name : String} {type : ColumnType} : s.resolve c.column.text = some name →
      s.typeOf c.column.text = some type → type.allows c.operator = false →
      Refusal s c .allowed (.incompatibleOperator name type c.comparator c.column)
  | unfitting {type : ColumnType} {item : Written.Item} : s.typeOf c.column.text = some type →
      c.value = .single item → ¬type.HasLiteral item.chars →
      Refusal s c .fitting (.invalidValue type.expectedValue item.lexeme)

/-! ### Columns -/

namespace Schema

variable {s : Schema}

theorem isSome_resolve_iff {column : String} : (s.resolve column).isSome = true ↔
    ∃ name ∈ s.names, sameIgnoringCase name column = true :=
  List.find?_isSome

/-- A type is found under any key that has the lower-case form of the word. -/
theorem isSome_typeOf_iff {column : String} : (s.typeOf column).isSome = true ↔
    ∃ entry ∈ s.types, sameIgnoringCase entry.1 column = true := by
  rw [typeOf, Option.isSome_or, Option.isSome_map, Bool.or_eq_true, List.lookup_isSome_iff,
    List.find?_isSome]
  refine ⟨?_, .inr⟩
  rintro (⟨entry, hmem, hkey⟩ | hfound)
  · refine ⟨entry, hmem, ?_⟩
    rw [sameIgnoringCase, ← eq_of_beq hkey, lower_lower, beq_self_eq_true]
  · exact hfound

/-! ### Conditions -/

variable {name : String} {type : ColumnType} {c : Written.Condition}

theorem readValue_of_not_allows (h : type.allows c.operator = false) :
    readValue name type c = .error (.incompatibleOperator name type c.comparator c.column) := by
  rw [readValue]
  cases c.value with
  | single item => simp [ColumnType.allowsSingle, h]
  | list whole items => simp [ColumnType.allowsList, h]

section Single

variable {i : Spelling.Item} {place : Nat}

theorem exists_readValue_of_hasLiteral (hvalue : c.value = .single (i.written place))
    (hallows : type.allowsSingle c.operator = true) (h : type.HasLiteral i.chars) :
    ∃ v, readValue name type c = .ok v := by
  obtain ⟨haccepts, hscalar⟩ := (type.accepts_and_scalar?_iff i place).2 h
  obtain ⟨x, hx⟩ := Option.isSome_iff_exists.1 hscalar
  exact ⟨.single x, (readValue_single_eq_ok hvalue).2 ⟨hallows, haccepts, x, hx, rfl⟩⟩

theorem readValue_of_not_hasLiteral (hvalue : c.value = .single (i.written place))
    (hallows : type.allowsSingle c.operator = true) (h : ¬type.HasLiteral i.chars) :
    readValue name type c =
      .error (.invalidValue type.expectedValue (i.written place).lexeme) := by
  have hnone : (if type.accepts (i.written place) then type.scalar? (i.written place)
      else none) = none := by
    by_cases haccepts : type.accepts (i.written place) = true
    · rw [if_pos haccepts, Option.eq_none_iff_forall_ne_some]
      intro x hx
      exact h ((type.accepts_and_scalar?_iff i place).1 ⟨haccepts, hx ▸ rfl⟩)
    · rw [if_neg haccepts]
  rw [readValue, hvalue]
  simp only [hallows, if_true, hnone]

end Single

theorem readCondition_of_resolve (hresolve : s.resolve c.column.text = some name)
    (htype : s.typeOf c.column.text = some type) :
    s.readCondition c = (readValue name type c).map (⟨name, c.operator, ·⟩) := by
  rw [readCondition_eq, hresolve]
  simp only [htype]
  cases readValue name type c with
  | error cause => rfl
  | ok value => rfl

end Schema

namespace Requirement

variable {s : Schema} {w : Spelling.Condition} {start : Nat} {r : Requirement}

theorem exists_resolve (h : declared.Met s (w.written start)) :
    ∃ name, s.resolve (w.written start).column.text = some name :=
  Option.isSome_iff_exists.1 (Schema.isSome_resolve_iff.2 h)

theorem exists_typeOf (h : typed.Met s (w.written start)) :
    ∃ type, s.typeOf (w.written start).column.text = some type :=
  Option.isSome_iff_exists.1 (Schema.isSome_typeOf_iff.2 h)

/-- A condition that meets every requirement is read. -/
theorem exists_readCondition (h : ∀ r : Requirement, r.Met s (w.written start)) :
    ∃ c, s.readCondition (w.written start) = .ok c := by
  obtain ⟨name, hresolve⟩ := exists_resolve (h declared)
  obtain ⟨type, htype⟩ := exists_typeOf (h typed)
  have hallows := h allowed type htype
  suffices hvalue : ∃ v, Schema.readValue name type (w.written start) = .ok v by
    obtain ⟨v, hv⟩ := hvalue
    refine ⟨⟨name, (w.written start).operator, v⟩, ?_⟩
    rw [Schema.readCondition_of_resolve hresolve htype, hv]
    rfl
  rcases w.value_written_cases start with ⟨i, place, hvalue, hop⟩ | ⟨l, place, hvalue, hop⟩
  · have hliteral : type.HasLiteral i.chars := by
      rw [← i.chars_written place]
      exact h fitting hop type htype _ (hvalue ▸ List.mem_singleton_self _)
    refine Schema.exists_readValue_of_hasLiteral hvalue ?_ hliteral
    rw [ColumnType.allowsSingle, hop, hallows]
    rfl
  · refine ⟨_, (Schema.readValue_itemList_eq_ok hvalue).2 ⟨?_, rfl⟩⟩
    rw [ColumnType.allowsList, hop, hallows]
    rfl

/-- A condition is refused for the first requirement that it does not meet. -/
theorem exists_refusal (hnot : ¬r.Met s (w.written start))
    (hmet : ∀ q : Requirement, q.rank < r.rank → q.Met s (w.written start)) :
    ∃ cause, Refusal s (w.written start) r cause ∧
      s.readCondition (w.written start) = .error cause := by
  cases r with
  | declared =>
    have hresolve : s.resolve (w.written start).column.text = none := by
      rw [Option.eq_none_iff_forall_ne_some]
      intro name hname
      exact hnot (Schema.isSome_resolve_iff.1 (hname ▸ rfl))
    exact ⟨_, .undeclared, by rw [Schema.readCondition_eq, hresolve]⟩
  | typed =>
    obtain ⟨name, hresolve⟩ := exists_resolve (hmet declared (by decide))
    have htype : s.typeOf (w.written start).column.text = none := by
      rw [Option.eq_none_iff_forall_ne_some]
      intro type htype
      exact hnot (Schema.isSome_typeOf_iff.1 (htype ▸ rfl))
    refine ⟨_, .untyped hresolve, ?_⟩
    rw [Schema.readCondition_eq, hresolve]
    simp only [htype]
  | allowed =>
    obtain ⟨name, hresolve⟩ := exists_resolve (hmet declared (by decide))
    simp only [Met, not_forall, Bool.not_eq_true] at hnot
    obtain ⟨type, htype, hop⟩ := hnot
    refine ⟨_, .disallowed hresolve htype hop, ?_⟩
    rw [Schema.readCondition_of_resolve hresolve htype, Schema.readValue_of_not_allows hop]
    rfl
  | fitting =>
    obtain ⟨name, hresolve⟩ := exists_resolve (hmet declared (by decide))
    simp only [Met, not_forall] at hnot
    obtain ⟨hop, type, htype, item, hitem, hliteral⟩ := hnot
    have hallows := hmet allowed (by decide) type htype
    rcases w.value_written_cases start with ⟨i, place, hvalue, -⟩ | ⟨l, place, -, hlist⟩
    · rw [hvalue] at hitem
      obtain rfl := List.mem_singleton.1 hitem
      refine ⟨_, .unfitting htype hvalue hliteral, ?_⟩
      have hsingle : type.allowsSingle (w.written start).operator = true := by
        rw [ColumnType.allowsSingle, hop, hallows]
        rfl
      rw [i.chars_written] at hliteral
      rw [Schema.readCondition_of_resolve hresolve htype,
        Schema.readValue_of_not_hasLiteral hvalue hsingle hliteral]
      rfl
    · rw [hop] at hlist
      cases hlist

theorem exists_first_unmet {c : Written.Condition} (h : ¬r.Met s c) :
    ∃ q : Requirement, ¬q.Met s c ∧ ∀ p : Requirement, p.rank < q.rank → p.Met s c := by
  induction hn : r.rank using Nat.strong_induction_on generalizing r with
  | _ n ih =>
    by_cases hall : ∀ p : Requirement, p.rank < r.rank → p.Met s c
    · exact ⟨r, h, hall⟩
    · simp only [not_forall] at hall
      obtain ⟨p, hp, hnot⟩ := hall
      exact ih p.rank (hn ▸ hp) hnot rfl

theorem exists_readCondition_iff :
    (∃ c, s.readCondition (w.written start) = .ok c) ↔
      ∀ r : Requirement, r.Met s (w.written start) := by
  refine ⟨?_, exists_readCondition⟩
  rintro ⟨c, hc⟩ r
  by_contra hr
  obtain ⟨q, hq, hmet⟩ := exists_first_unmet hr
  obtain ⟨cause, -, hcause⟩ := exists_refusal hq hmet
  rw [hc] at hcause
  cases hcause

end Requirement

/-! ### Texts -/

/-- **A text is accepted if every condition meets every requirement**, and otherwise the
first one that is not met, in the first condition that does not meet all, is complained of. -/
theorem parse_ok_iff_met_and_refusal {s : Schema} {text : String} {w : Written.Filter}
    (h : Written.readFilter (trim text) = .ok w) :
    ((∃ f, s.parse text = .ok f) ↔ ∀ c ∈ w.conditions, ∀ r : Requirement, r.Met s c) ∧
      ∀ before c after, w.conditions = before ++ c :: after →
        (∀ d ∈ before, ∀ r : Requirement, r.Met s d) →
        ∀ r : Requirement, ¬r.Met s c → (∀ q : Requirement, q.rank < r.rank → q.Met s c) →
          ∃ cause, Refusal s c r cause ∧ s.parse text = .error ⟨cause, trim text⟩ := by
  obtain ⟨f, -, rfl⟩ := readFilter_eq_ok.1 h
  have hread : ∀ c ∈ f.written.conditions,
      ((∃ d, s.readCondition c = .ok d) ↔ ∀ r : Requirement, r.Met s c) := by
    intro c hc
    obtain ⟨w, start, rfl⟩ := Spelling.Filter.exists_of_mem hc
    exact Requirement.exists_readCondition_iff
  rw [Schema.parse_of_readFilter h]
  constructor
  · have hall : (∀ c ∈ f.written.conditions, ∃ d, s.readCondition c = .ok d) ↔
        ∀ c ∈ f.written.conditions, ∀ r : Requirement, r.Met s c :=
      forall₂_congr hread
    rw [← hall, ← Schema.exists_readConditions_iff]
    cases s.readConditions f.written.conditions <;> simp
  · intro before c after hsplit hbefore r hr hmet
    have hmem : ∀ d ∈ before, d ∈ f.written.conditions := by
      intro d hd
      rw [hsplit]
      exact List.mem_append_left _ hd
    have hc : c ∈ f.written.conditions := by simp [hsplit]
    obtain ⟨w, start, rfl⟩ := Spelling.Filter.exists_of_mem hc
    obtain ⟨cause, hrefusal, hcause⟩ := Requirement.exists_refusal hr hmet
    refine ⟨cause, hrefusal, ?_⟩
    rw [hsplit, Schema.readConditions_eq_error (fun d hd => (hread d (hmem d hd)).2 (hbefore d hd))
      hcause]

/-- An operator that its column does not allow, before a column that is not declared. -/
theorem parse_ok_iff_met_and_refusal_operator :
    Written.readFilter (trim "OK ? yes or age > 30") = .ok
        ⟨⟨⟨"OK ? yes", 0⟩, ⟨"OK", 0⟩, ⟨"?", 3⟩, .single ⟨.number, ⟨"yes", 5⟩⟩⟩,
          [(.or, ⟨⟨"age > 30", 12⟩, ⟨"age", 12⟩, ⟨">", 16⟩, .single ⟨.number, ⟨"30", 18⟩⟩⟩)]⟩ ∧
      ∃ cause, Refusal (Schema.ofColumns [⟨"ok", .boolean⟩])
          ⟨⟨"OK ? yes", 0⟩, ⟨"OK", 0⟩, ⟨"?", 3⟩, .single ⟨.number, ⟨"yes", 5⟩⟩⟩ .allowed cause ∧
        (Schema.ofColumns [⟨"ok", .boolean⟩]).parse "OK ? yes or age > 30" =
          .error ⟨cause, trim "OK ? yes or age > 30"⟩ := by
  have h : Written.readFilter (trim "OK ? yes or age > 30") = .ok
      ⟨⟨⟨"OK ? yes", 0⟩, ⟨"OK", 0⟩, ⟨"?", 3⟩, .single ⟨.number, ⟨"yes", 5⟩⟩⟩,
        [(.or, ⟨⟨"age > 30", 12⟩, ⟨"age", 12⟩, ⟨">", 16⟩, .single ⟨.number, ⟨"30", 18⟩⟩⟩)]⟩ := by
    decide +kernel
  refine ⟨h, (parse_ok_iff_met_and_refusal h).2 [] _ _ rfl (fun _ hd => (List.not_mem_nil hd).elim)
    .allowed ?_ ?_⟩
  · intro hallowed
    exact absurd (hallowed .boolean (by decide +kernel)) (by decide +kernel)
  · intro q hq
    cases q with
    | declared => exact ⟨"ok", by decide +kernel, by decide +kernel⟩
    | typed => exact ⟨("ok", .boolean), by decide +kernel, by decide +kernel⟩
    | allowed => exact absurd hq (by decide)
    | fitting => exact absurd hq (by decide)

end ColumnFilter
