import ColumnFilter.Proofs.Reading.Conditions
import ColumnFilter.Proofs.Reading.Isolation

/-!
# What is accepted and what has a value

A column first asks whether a literal is one of its type and then for the value of the
literal.  The two are written apart, and on columns of numbers they do not agree: the
digits of any script make a number that is accepted, but only those of ASCII make one
that has a value.  `ColumnType.isSome_scalar?_iff` says that there is no other
disagreement, and `Schema.exists_accepted_of_readCondition` that nothing becomes a single
value without being accepted.
-/

namespace ColumnFilter

open Text Spelling

namespace Literal

variable {cs : List Char}

/-- Of the characters of a literal only its digits are decimal digits. -/
theorem HasShape.isDigit_of_isDecimalDigit (h : HasShape Char.isDigit cs) {c : Char} (hc : c ∈ cs)
    (hdigit : isDecimalDigit c = true) : c.isDigit = true := by
  rcases h.isDigit_or_mem hc with hascii | hmark
  · exact hascii
  · rw [digitsApart_isDecimalDigit c hmark] at hdigit
    cases hdigit

end Literal

namespace ColumnType

variable {i : Item} {start : Nat}

theorem accepts_number_iff : number.accepts (i.written start) = true ↔
    i.chars = "null".toList ∨ Literal.HasShape isDecimalDigit i.chars := by
  rw [accepts, Bool.or_eq_true, Written.Item.isPlainNull_written_iff, Written.Item.isNumeric,
    i.chars_written, Literal.isSome_read?_iff Literal.digitsApart_isDecimalDigit]

/-- **What is accepted has a value**, unless it is a number with digits beyond ASCII. -/
theorem isSome_scalar?_iff {type : ColumnType} (h : type.accepts (i.written start) = true) :
    (type.scalar? (i.written start)).isSome = true ↔
      (type = .number → ∀ c ∈ i.chars, isDecimalDigit c = true → c.isDigit = true) := by
  have hliteral := type.accepts_and_scalar?_iff i start
  rw [and_iff_right h] at hliteral
  rw [hliteral]
  cases type with
  | string => exact iff_of_true (accepts_string_iff.1 h) (by rintro ⟨⟩)
  | boolean => exact iff_of_true (accepts_boolean_iff.1 h) (by rintro ⟨⟩)
  | number =>
    rw [HasLiteral]
    constructor
    · rintro (hnull | hshape) -
      · have hnone : ("null".toList.all fun c => !isDecimalDigit c) = true := by decide
        intro c hc hdigit
        rw [hnull] at hc
        have hc := List.all_eq_true.1 hnone c hc
        rw [hdigit] at hc
        cases hc
      · exact fun c => hshape.isDigit_of_isDecimalDigit
    · intro hascii
      exact (accepts_number_iff.1 h).imp_right fun hshape => hshape.mono (hascii rfl)

end ColumnType

/-- **A single value was a literal that its column accepts.** -/
theorem Schema.exists_accepted_of_readCondition {s : Schema} {c : Written.Condition}
    {d : Condition} (h : s.readCondition c = .ok d) {x : Scalar} (hx : d.value = .single x) :
    ∃ item type, c.value = .single item ∧ s.typeOf c.column.text = some type ∧
      type.accepts item = true ∧ type.scalar? item = some x := by
  obtain ⟨-, -, type, htype, hvalue⟩ := readCondition_eq_ok.1 h
  cases hc : c.value with
  | single item =>
    obtain ⟨-, haccepts, y, hy, hd⟩ := (readValue_single_eq_ok hc).1 hvalue
    obtain rfl := Value.single.inj (hx.symm.trans hd)
    exact ⟨item, type, rfl, htype, haccepts, hy⟩
  | list whole items =>
    obtain ⟨-, -, hd⟩ := (readValue_list_eq_ok hc).1 hvalue
    cases hx.symm.trans hd

/-- **Of the literals of a text that are accepted all have a value but the numbers with digits
beyond ASCII, and no others become single values**, whatever the schema. -/
theorem isSome_scalar?_iff_and_accepted {text : String} {w : Written.Filter}
    (hread : Written.readFilter text = .ok w) :
    (∀ c ∈ w.conditions, ∀ item ∈ c.value.items, ∀ type : ColumnType, type.accepts item = true →
      ((type.scalar? item).isSome = true ↔
        (type = .number → ∀ d ∈ item.chars, isDecimalDigit d = true → d.isDigit = true))) ∧
    ∀ (s : Schema) (source : String) (f : Filter), trim source = text → s.parse source = .ok f →
      List.Forall₂ (fun c d => ∀ x, d.value = .single x →
        ∃ item type, c.value = .single item ∧ s.typeOf c.column.text = some type ∧
          type.accepts item = true ∧ type.scalar? item = some x) w.conditions f.conditions := by
  constructor
  · intro c hc item hitem type haccepts
    obtain ⟨i, start, rfl⟩ := exists_item_of_readFilter hread hc hitem
    rw [i.chars_written]
    exact ColumnType.isSome_scalar?_iff haccepts
  · rintro s source f rfl hparse
    refine (Schema.forall₂_readCondition_of_parse hread hparse).imp fun c d hcd x hx => ?_
    exact Schema.exists_accepted_of_readCondition hcd hx

/-- A number with everything that may stand in it. -/
theorem isSome_scalar?_iff_and_accepted_number :
    ∃ w, Written.readFilter "age >= +1.5E-3" = .ok w ∧ ∃ c ∈ w.conditions,
      ∃ item ∈ c.value.items, ColumnType.number.accepts item = true ∧
        (ColumnType.number.scalar? item).isSome = true := by
  have hread : Written.readFilter "age >= +1.5E-3" = .ok ⟨⟨⟨"age >= +1.5E-3", 0⟩, ⟨"age", 0⟩,
      ⟨">=", 4⟩, .single ⟨.number, ⟨"+1.5E-3", 7⟩⟩⟩, []⟩ := by
    decide +kernel
  have haccepts : ColumnType.number.accepts ⟨.number, ⟨"+1.5E-3", 7⟩⟩ = true := by decide +kernel
  refine ⟨_, hread, _, List.mem_cons_self .., _, List.mem_singleton_self _, haccepts, ?_⟩
  rw [(isSome_scalar?_iff_and_accepted hread).1 _ (List.mem_cons_self ..) _
    (List.mem_singleton_self _) _ haccepts]
  have hascii : ("+1.5E-3".toList.all fun d => !isDecimalDigit d || d.isDigit) = true := by
    decide +kernel
  intro _ d hd hdigit
  have hd := List.all_eq_true.1 hascii d hd
  rwa [hdigit] at hd

/-- The Arabic digit three is accepted as a number, and it has no value. -/
theorem accepts_and_scalar?_eq_none :
    ∃ w, Written.readFilter "age = ٣" = .ok w ∧ ∃ c ∈ w.conditions, ∃ item ∈ c.value.items,
      ColumnType.number.accepts item = true ∧ ColumnType.number.scalar? item = none := by
  refine ⟨⟨⟨⟨"age = ٣", 0⟩, ⟨"age", 0⟩, ⟨"=", 4⟩, .single ⟨.number, ⟨"٣", 6⟩⟩⟩, []⟩, ?_, _,
    List.mem_cons_self .., _, List.mem_singleton_self _, ?_⟩
  · decide +kernel
  · decide +kernel

end ColumnFilter
