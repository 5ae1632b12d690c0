import ColumnFilter.Filter.Stored
import ColumnFilter.Proofs.Json.Reading
import ColumnFilter.Proofs.RoundTrip.Consistent

/-!
# A stored filter is found again

Both ways back undo the stored form, level by level: literals, values,
conditions, connectors, filters.  Neither asks whether the filter is well formed,
so a list beside an operator for single values, an empty list or a connector too
many is kept as it is.  The stored form is `Printable` as soon as its numbers are
read back, and its brackets are four deep at most, so its text is read as that
form.
-/

namespace ColumnFilter

/-! ### The stored form is undone -/

theorem mapM_map_of_inverse {α : Type} {read : Json → Option α} {write : α → Json}
    (h : ∀ a, read (write a) = some a) (xs : List α) : (xs.map write).mapM read = some xs := by
  have hinverse : read ∘ write = fun a => (pure a : Option α) := funext h
  rw [List.mapM_map, hinverse, List.mapM_pure, List.map_id']
  rfl

theorem filterMap_map_of_inverse {α : Type} {read : Json → Option α} {write : α → Json}
    (h : ∀ a, read (write a) = some a) (xs : List α) : (xs.map write).filterMap read = xs := by
  have hinverse : read ∘ write = some := funext h
  rw [List.filterMap_map, hinverse, List.filterMap_some]

theorem map_map_of_inverse {α : Type} {read : Json → α} {write : α → Json}
    (h : ∀ a, read (write a) = a) (xs : List α) : (xs.map write).map read = xs := by
  have hinverse : read ∘ write = id := funext h
  rw [List.map_map, hinverse, List.map_id]

namespace Scalar

theorem ofAnyJson_toJson (s : Scalar) : ofAnyJson s.toJson = s := by
  cases s <;> rfl

end Scalar

namespace Value

theorem ofJson?_toJson (v : Value) : ofJson? v.toJson = some v := by
  cases v with
  | single item => cases item <;> rfl
  | list items =>
    show ((items.map Scalar.toJson).mapM Scalar.ofJson?).map list = some (list items)
    rw [mapM_map_of_inverse Scalar.ofJson?_toJson]
    rfl

theorem ofAnyJson_toJson (v : Value) : ofAnyJson v.toJson = v := by
  cases v with
  | single item => cases item <;> rfl
  | list items => exact congrArg list (map_map_of_inverse Scalar.ofAnyJson_toJson items)

end Value

namespace Operator

theorem ofTag_tag (op : Operator) : ofTag op.tag = op := by
  cases op <;> decide

end Operator

namespace Condition

theorem ofJson?_toJson (c : Condition) : ofJson? c.toJson = some c := by
  have hfields : c.toJson.fields? fieldNames =
      some [some (.text c.column), some (.text c.operator.tag), some c.value.toJson] := rfl
  rw [ofJson?, hfields]
  simp only [Json.fieldOr, Json.text?, operatorOfJson?, Option.map_some, Operator.ofTag_tag,
    Value.ofJson?_toJson]

theorem ofAnyJson_toJson (c : Condition) : ofAnyJson c.toJson = c := by
  have hcolumn : c.toJson.member? "variable" = some (.text c.column) := rfl
  have hoperator : c.toJson.member? "operator" = some (.text c.operator.tag) := rfl
  have hvalue : c.toJson.member? "value" = some c.value.toJson := rfl
  simp only [ofAnyJson, hcolumn, hoperator, hvalue, Json.text?, operatorOfJson?, Option.bind_some,
    Option.map_some, Option.getD_some, Operator.ofTag_tag, Value.ofAnyJson_toJson]

end Condition

namespace Connector

theorem ofJson?_toJson (k : Connector) : ofJson? k.toJson = some k := by
  cases k <;> decide

theorem ofAnyJson?_toJson (k : Connector) : ofAnyJson? k.toJson = some k :=
  ofKeyword?_keyword k

end Connector

namespace Filter

/-- **The strict way back undoes the stored form.** -/
theorem ofJson?_toJson (f : Filter) : ofJson? f.toJson = some f := by
  have hfields : f.toJson.fields? fieldNames =
      some [some (.array (f.conditions.map Condition.toJson)),
        some (.array (f.connectors.map Connector.toJson))] := rfl
  rw [ofJson?, hfields]
  simp only [Json.fieldOr, Json.list?, mapM_map_of_inverse Condition.ofJson?_toJson,
    mapM_map_of_inverse Connector.ofJson?_toJson]

/-- **The lenient way back undoes the stored form.** -/
theorem ofAnyJson_toJson (f : Filter) : ofAnyJson f.toJson = f := by
  have hconditions : f.toJson.member? "conditions" =
      some (.array (f.conditions.map Condition.toJson)) := rfl
  have hconnectors : f.toJson.member? "connectors" =
      some (.array (f.connectors.map Connector.toJson)) := rfl
  simp only [ofAnyJson, hconditions, hconnectors, Json.array?, Option.bind_some, Option.getD_some,
    map_map_of_inverse Condition.ofAnyJson_toJson,
    filterMap_map_of_inverse Connector.ofAnyJson?_toJson]

end Filter

/-! ### The text of the stored form -/

theorem Scalar.printable_toJson {s : Scalar} (h : ∀ x, s = number x → x.ReadsBack) :
    s.toJson.Printable := by
  cases s with
  | null => exact .null
  | boolean => exact .boolean
  | number x => exact .number (h x rfl)
  | text => exact .text

theorem Value.printable_toJson {v : Value} (h : ∀ x, Scalar.number x ∈ v.items → x.ReadsBack) :
    v.toJson.Printable := by
  cases v with
  | single item => exact Scalar.printable_toJson fun x hx => h x (List.mem_singleton.2 hx.symm)
  | list items =>
    refine .array fun w hw => ?_
    obtain ⟨s, hs, rfl⟩ := List.mem_map.1 hw
    exact Scalar.printable_toJson fun x hx => h x (hx ▸ hs)

theorem Condition.printable_toJson {c : Condition}
    (h : ∀ x, Scalar.number x ∈ c.value.items → x.ReadsBack) : c.toJson.Printable := by
  refine .object fun m hm => ?_
  simp only [List.mem_cons, List.not_mem_nil, or_false] at hm
  obtain rfl | rfl | rfl := hm
  · exact .text
  · exact .text
  · exact Value.printable_toJson h

theorem Filter.printable_toJson {f : Filter}
    (h : ∀ c ∈ f.conditions, ∀ x, Scalar.number x ∈ c.value.items → x.ReadsBack) :
    f.toJson.Printable := by
  refine .object fun m hm => ?_
  simp only [List.mem_cons, List.not_mem_nil, or_false] at hm
  obtain rfl | rfl := hm
  · refine .array fun w hw => ?_
    obtain ⟨c, hc, rfl⟩ := List.mem_map.1 hw
    exact Condition.printable_toJson (h c hc)
  · refine .array fun w hw => ?_
    obtain ⟨k, -, rfl⟩ := List.mem_map.1 hw
    exact .text

theorem Scalar.depth_toJson (s : Scalar) : s.toJson.depth = 0 := by
  cases s <;> rfl

theorem Value.depth_toJson (v : Value) : v.toJson.depth ≤ 1 := by
  cases v with
  | single item => exact Nat.le_trans (Nat.le_of_eq item.depth_toJson) (Nat.zero_le 1)
  | list items =>
    refine Json.depth_array_le fun w hw => ?_
    obtain ⟨s, -, rfl⟩ := List.mem_map.1 hw
    exact Nat.le_of_eq s.depth_toJson

theorem Condition.depth_toJson (c : Condition) : c.toJson.depth ≤ 2 := by
  refine Json.depth_object_le fun m hm => ?_
  simp only [List.mem_cons, List.not_mem_nil, or_false] at hm
  obtain rfl | rfl | rfl := hm
  · exact Nat.zero_le 1
  · exact Nat.zero_le 1
  · exact c.value.depth_toJson

theorem Filter.depth_toJson (f : Filter) : f.toJson.depth ≤ 4 := by
  refine Json.depth_object_le fun m hm => ?_
  simp only [List.mem_cons, List.not_mem_nil, or_false] at hm
  obtain rfl | rfl := hm
  · refine Json.depth_array_le fun w hw => ?_
    obtain ⟨c, -, rfl⟩ := List.mem_map.1 hw
    exact c.depth_toJson
  · refine Json.depth_array_le fun w hw => ?_
    obtain ⟨k, -, rfl⟩ := List.mem_map.1 hw
    exact Nat.zero_le 2

namespace Filter

theorem parse?_stored {f : Filter}
    (h : ∀ c ∈ f.conditions, ∀ x, Scalar.number x ∈ c.value.items → x.ReadsBack) :
    Json.parse? f.stored = some f.toJson :=
  Json.parse?_compact (printable_toJson h) (Nat.le_trans f.depth_toJson (by decide))

/-- **A stored filter is found again in both ways**, well formed or not, if each of its numbers
is read back. -/
theorem read_stored {f : Filter}
    (h : ∀ c ∈ f.conditions, ∀ x, Scalar.number x ∈ c.value.items → x.ReadsBack) :
    ofStored? f.stored = some f ∧ ofAnyStored? f.stored = some f := by
  have hparse := parse?_stored h
  constructor
  · rw [ofStored?, Json.parseForm?_of_parse? hparse]
    exact ofJson?_toJson f
  · rw [ofAnyStored?, hparse, Option.map_some, ofAnyJson_toJson]

theorem read_stored_irregular : ∃ f : Filter,
    f.stored = "\x7b\"conditions\":[\x7b\"variable\":\"say \\\"no\\\"\\n\\u0001\",\"operator\":" ++
      "\"eq\",\"value\":[21.0,null,true]\x7d,\x7b\"variable\":\"\",\"operator\":\"notin\"," ++
      "\"value\":[]\x7d,\x7b\"variable\":\"b\",\"operator\":\"in\",\"value\":-1.5\x7d]," ++
      "\"connectors\":[\"or\",\"and\",\"and\"]\x7d" ∧
    ofStored? f.stored = some f ∧ ofAnyStored? f.stored = some f := by
  refine ⟨⟨[⟨"say \"no\"\n\x01", .equal,
      .list [.number (Decimal.toNumber false ⟨21, 0⟩), .null, .boolean true]⟩,
    ⟨"", .noneOf, .list []⟩,
    ⟨"b", .oneOf, .single (.number (Decimal.toNumber true ⟨15, -1⟩))⟩],
    [.or, .and, .and]⟩, by decide +kernel, read_stored ?_⟩
  have hwhole : (Decimal.toNumber false ⟨21, 0⟩).ReadsBack := by decide +kernel
  have hfraction : (Decimal.toNumber true ⟨15, -1⟩).ReadsBack := by decide +kernel
  intro c hc x hx
  simp only [List.mem_cons, List.not_mem_nil, or_false] at hc
  obtain rfl | rfl | rfl := hc <;>
    simp only [Value.items, List.mem_cons, List.not_mem_nil, Scalar.number.injEq, reduceCtorEq,
      or_false] at hx
  · rw [hx]
    exact hwhole
  · rw [hx]
    exact hfraction

end Filter

end ColumnFilter
