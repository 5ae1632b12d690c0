import ColumnFilter.Proofs.Json.Wholeness
import ColumnFilter.Proofs.Stored.RoundTrip

/-!
# Where both ways back agree

The strict way back knows forms that the lenient one does not: a record as an array of its
fields, and a connector as an object with a member `null`.  In a stored form that is
`WrittenOut` there are none of them.  Then the lenient way back finds what the strict one
accepts, level by level: literals, values, conditions, connectors, filters
(`Filter.ofAnyJson_of_ofJson?`).

A text has to be read as a value before the lenient way back can begin, and the strict one asks
for the form only.  So both accept the same text exactly if its form is whole
(`Filter.ofAnyStored?_of_ofStored?`).
-/

namespace ColumnFilter

open Json

/-! ### Lists and fields -/

theorem filterMap_of_mapM {α : Type} {read readAny : Json → Option α} {vs : List Json}
    {xs : List α} (hread : vs.mapM read = some xs)
    (h : ∀ v ∈ vs, ∀ x, read v = some x → readAny v = some x) : vs.filterMap readAny = xs := by
  induction vs generalizing xs with
  | nil =>
    rw [List.mapM_nil] at hread
    exact Option.some.inj hread
  | cons v vs ih =>
    rw [List.mapM_cons] at hread
    obtain ⟨x, hx, hread⟩ := Option.bind_eq_some_iff.1 hread
    obtain ⟨ys, hys, hread⟩ := Option.bind_eq_some_iff.1 hread
    obtain rfl := Option.some.inj hread
    have hv := h v (List.mem_cons_self ..) x hx
    rw [List.filterMap_cons_some hv, ih hys fun u hu => h u (List.mem_cons_of_mem v hu)]

theorem map_of_mapM {α : Type} {read : Json → Option α} {readAny : Json → α} {vs : List Json}
    {xs : List α} (hread : vs.mapM read = some xs)
    (h : ∀ v ∈ vs, ∀ x, read v = some x → readAny v = x) : vs.map readAny = xs := by
  rw [← List.filterMap_eq_map]
  exact filterMap_of_mapM hread fun v hv x hx => congrArg some (h v hv x hx)

section Fields

variable {α : Type} {absent x : α} {read : Json → Option α} {field : Option Json}

theorem getD_bind_of_fieldOr (h : fieldOr (some absent) read field = some x) :
    (field.bind read).getD absent = x := by
  cases field with
  | none => exact Option.some.inj h
  | some v =>
    have hread : read v = some x := h
    rw [Option.bind_some, hread, Option.getD_some]

theorem getD_map_of_fieldOr {readAny : Json → α} (h : fieldOr (some absent) read field = some x)
    (hread : ∀ v, read v = some x → readAny v = x) : (field.map readAny).getD absent = x := by
  cases field with
  | none => exact Option.some.inj h
  | some v => exact hread v h

/-- The items of a list that may be absent. -/
theorem exists_items_of_fieldOr {xs : List α} (h : fieldOr (some []) (list? read) field = some xs) :
    ∃ items, (field.bind array?).getD [] = items ∧ items.mapM read = some xs ∧
      ∀ item ∈ items, field = some (.array items) := by
  cases field with
  | none =>
    obtain rfl := Option.some.inj h
    exact ⟨[], rfl, List.mapM_nil, fun _ hitem => (List.not_mem_nil hitem).elim⟩
  | some v =>
    cases v with
    | array items => exact ⟨items, rfl, h, fun _ _ => rfl⟩
    | _ => cases h

end Fields

theorem member?_eq_getLast? (name : String) (members : List (String × Json)) :
    (object members).member? name = (membersNamed name members).getLast? := by
  rw [member?, membersNamed, List.getLast?_map, ← List.head?_reverse, ← List.filter_reverse,
    List.head?_filter]

/-- A field is the last member with its name, because there is no other. -/
theorem fieldsByName?_eq_some {members : List (String × Json)} {names : List String}
    {fields : List (Option Json)} (h : fieldsByName? members names = some fields) :
    fields = names.map fun name => (object members).member? name := by
  induction names generalizing fields with
  | nil => exact (Option.some.inj h).symm
  | cons name names ih =>
    rw [fieldsByName?] at h
    rw [List.map_cons, member?_eq_getLast?]
    split at h
    next hnamed =>
      obtain ⟨others, hothers, rfl⟩ := Option.map_eq_some_iff.1 h
      rw [hnamed, ih hothers]
      rfl
    next hnamed =>
      obtain ⟨others, hothers, rfl⟩ := Option.map_eq_some_iff.1 h
      rw [hnamed, ih hothers]
      rfl
    next => cases h

/-! ### Literals, values and conditions -/

theorem Scalar.ofAnyJson_of_ofJson? {v : Json} {s : Scalar} (h : ofJson? v = some s) :
    ofAnyJson v = s := by
  cases v with
  | null | boolean | number | text => exact Option.some.inj h
  | array | object | unreadable => cases h

theorem Value.ofAnyJson_of_ofJson? {v : Json} {x : Value} (h : ofJson? v = some x) :
    ofAnyJson v = x := by
  cases v with
  | array items =>
    obtain ⟨xs, hxs, rfl⟩ := Option.map_eq_some_iff.1 h
    exact congrArg list (map_of_mapM hxs fun _ _ _ => Scalar.ofAnyJson_of_ofJson?)
  | null | boolean | number | text =>
    obtain rfl := Option.some.inj h
    rfl
  | object | unreadable => cases h

theorem Condition.ofAnyJson_of_ofJson? {members : List (String × Json)} {c : Condition}
    (h : ofJson? (object members) = some c) : ofAnyJson (object members) = c := by
  rw [ofJson?] at h
  split at h
  next column operator value hfields =>
    have hnames := fieldsByName?_eq_some hfields
    simp only [fieldNames, List.map_cons, List.map_nil, List.cons.injEq, and_true] at hnames
    obtain ⟨hcolumn, hoperator, hvalue⟩ := hnames
    split at h
    next x op y hx hop hy =>
      obtain rfl := Option.some.inj h
      rw [ofAnyJson, ← hcolumn, ← hoperator, ← hvalue, getD_bind_of_fieldOr hx,
        getD_bind_of_fieldOr hop, getD_map_of_fieldOr hy fun _ => Value.ofAnyJson_of_ofJson?]
    next => cases h
  next => cases h

/-! ### Connectors and filters -/

theorem Connector.ofAnyJson?_of_ofJson? {s : String} {k : Connector}
    (h : ofJson? (.text s) = some k) : ofAnyJson? (.text s) = some k := by
  have hkeyword : k.keyword = s := by
    have hfound := List.find?_some (p := fun k : Connector => k.keyword == s) h
    simpa using hfound
  subst hkeyword
  exact ofKeyword?_keyword k

namespace Filter

/-- The filter and its conditions are written as objects, and its connectors as texts. -/
structure WrittenOut (v : Json) : Prop where
  isObject : ∃ members, v = .object members
  conditions : ∀ items, v.member? "conditions" = some (.array items) →
    ∀ item ∈ items, ∃ members, item = .object members
  connectors : ∀ items, v.member? "connectors" = some (.array items) →
    ∀ item ∈ items, ∃ s, item = .text s

/-- **The lenient way back finds what the strict one accepts.** -/
theorem ofAnyJson_of_ofJson? {v : Json} {f : Filter} (hv : WrittenOut v)
    (h : ofJson? v = some f) : ofAnyJson v = f := by
  obtain ⟨members, rfl⟩ := hv.isObject
  rw [ofJson?] at h
  split at h
  next conditions connectors hfields =>
    have hnames := fieldsByName?_eq_some hfields
    simp only [fieldNames, List.map_cons, List.map_nil, List.cons.injEq, and_true] at hnames
    obtain ⟨hconditions, hconnectors⟩ := hnames
    split at h
    next cs ks hcs hks =>
      obtain rfl := Option.some.inj h
      obtain ⟨citems, hcitems, hcread, hcfield⟩ := exists_items_of_fieldOr hcs
      obtain ⟨kitems, hkitems, hkread, hkfield⟩ := exists_items_of_fieldOr hks
      rw [ofAnyJson, ← hconditions, ← hconnectors, hcitems, hkitems]
      congr 1
      · refine map_of_mapM hcread fun item hitem c hc => ?_
        obtain ⟨ms, rfl⟩ :=
          hv.conditions citems (hconditions.symm.trans (hcfield item hitem)) item hitem
        exact Condition.ofAnyJson_of_ofJson? hc
      · refine filterMap_of_mapM hkread fun item hitem k hk => ?_
        obtain ⟨s, rfl⟩ :=
          hv.connectors kitems (hconnectors.symm.trans (hkfield item hitem)) item hitem
        exact Connector.ofAnyJson?_of_ofJson? hk
    next => cases h
  next => cases h

/-- **A text that the strict way back accepts is accepted by the lenient one with the same
filter**, exactly if the text is read as a value at all. -/
theorem ofAnyStored?_of_ofStored? {text : String} {v : Json} {f : Filter}
    (hform : Json.parseForm? text = some v) (hv : WrittenOut v) (h : ofStored? text = some f) :
    ofAnyJson v = f ∧ (∀ w, Json.parse? text = some w ↔ w = v ∧ v.WholeWithin Json.maxDepth) ∧
      (ofAnyStored? text = some f ↔ v.WholeWithin Json.maxDepth) := by
  rw [ofStored?, hform, Option.bind_some] at h
  have hfilter := ofAnyJson_of_ofJson? hv h
  have hparse : ∀ w, Json.parse? text = some w ↔ w = v ∧ v.WholeWithin Json.maxDepth := by
    intro w
    rw [parse?_eq_some_iff, hform, Option.some.injEq]
    constructor
    · rintro ⟨rfl, hwhole⟩
      exact ⟨rfl, hwhole⟩
    · rintro ⟨rfl, hwhole⟩
      exact ⟨rfl, hwhole⟩
  refine ⟨hfilter, hparse, ?_⟩
  rw [ofAnyStored?, Option.map_eq_some_iff]
  constructor
  · rintro ⟨w, hw, -⟩
    exact ((hparse w).1 hw).2
  · intro hwhole
    exact ⟨v, (hparse v).2 ⟨rfl, hwhole⟩, hfilter⟩

/-- A stored form with names and an operator that are unknown, and with fields that are absent. -/
theorem ofAnyStored?_of_ofStored?_unknown :
    ∃ v : Json, Json.parseForm? v.compact = some v ∧ WrittenOut v ∧
      ofStored? v.compact = some
        ⟨[⟨"a", .equal, .single (.number (Decimal.toNumber false ⟨2, 0⟩))⟩,
          ⟨"", .equal, .list [.text "x", .null]⟩], [.or]⟩ ∧
      ofAnyStored? v.compact = ofStored? v.compact := by
  let first : Json := .object [("variable", .text "a"), ("operator", .text "near"),
    ("value", .number (Decimal.toNumber false ⟨2, 0⟩)), ("note", .array [])]
  let second : Json := .object [("value", .array [.text "x", .null])]
  let v : Json := .object [("version", .boolean true), ("connectors", .array [.text "or"]),
    ("conditions", .array [first, second])]
  have hnumber : (Decimal.toNumber false ⟨2, 0⟩).ReadsBack := by decide +kernel
  have hfirst : first.Printable := .object (by
    simp [Printable.text, Printable.number hnumber, Printable.array])
  have hsecond : second.Printable := .object (by
    simp [Printable.text, Printable.null, Printable.array])
  have hv : v.Printable := .object (by
    simp [Printable.text, Printable.boolean, Printable.array, hfirst, hsecond])
  have hparse : Json.parse? v.compact = some v := parse?_compact hv (by decide)
  have hform := Json.parseForm?_of_parse? hparse
  have hwritten : WrittenOut v := by
    refine ⟨⟨_, rfl⟩, ?_, ?_⟩
    · intro items hitems item hitem
      have hconditions : v.member? "conditions" = some (.array [first, second]) := rfl
      obtain rfl := Json.array.inj (Option.some.inj (hconditions.symm.trans hitems))
      simp only [List.mem_cons, List.not_mem_nil, or_false] at hitem
      rcases hitem with rfl | rfl
      · exact ⟨_, rfl⟩
      · exact ⟨_, rfl⟩
    · intro items hitems item hitem
      have hconnectors : v.member? "connectors" = some (.array [.text "or"]) := rfl
      obtain rfl := Json.array.inj (Option.some.inj (hconnectors.symm.trans hitems))
      obtain rfl := List.mem_singleton.1 hitem
      exact ⟨_, rfl⟩
  have hstrict : ofStored? v.compact = some
      ⟨[⟨"a", .equal, .single (.number (Decimal.toNumber false ⟨2, 0⟩))⟩,
        ⟨"", .equal, .list [.text "x", .null]⟩], [.or]⟩ := by
    rw [ofStored?, hform]
    rfl
  have hwhole : v.WholeWithin Json.maxDepth := (parse?_eq_some_iff.1 hparse).2
  refine ⟨v, hform, hwritten, hstrict, ?_⟩
  rw [hstrict]
  exact (ofAnyStored?_of_ofStored? hform hwritten hstrict).2.2.2 hwhole

end Filter

end ColumnFilter
