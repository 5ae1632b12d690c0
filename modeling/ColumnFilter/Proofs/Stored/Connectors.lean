import ColumnFilter.Filter.Stored
import ColumnFilter.Proofs.RoundTrip.Gaps

/-!
# The connectors of any value

The lenient way back drops the items that are no connectors.  What is left is paired with the
gaps by its place, so a connector moves up by one gap for each item before it that is dropped
(`Filter.connectors_ofAnyJson`).  It stays in the gap of its item exactly if all items before
it are connectors, whatever the items behind it are.
-/

namespace ColumnFilter

/-- An element that is kept stands behind the ones before it that are kept. -/
theorem getElem?_filterMap_of_getElem? {α β : Type} {f : α → Option β} {xs : List α} {i : Nat}
    {x : α} {y : β} (hx : xs[i]? = some x) (hy : f x = some y) :
    (xs.filterMap f)[((xs.take i).filterMap f).length]? = some y := by
  obtain ⟨hi, rfl⟩ := List.getElem?_eq_some_iff.1 hx
  have hsplit : xs.filterMap f =
      (xs.take i).filterMap f ++ y :: (xs.drop (i + 1)).filterMap f := by
    rw [← List.filterMap_cons_some hy, ← List.drop_eq_getElem_cons hi, ← List.filterMap_append,
      List.take_append_drop]
  rw [hsplit, List.getElem?_append_right (Nat.le_refl _), Nat.sub_self]
  rfl

namespace Connector

/-- The item is the keyword of a connector, in any case. -/
def Spells (k : Connector) (item : Json) : Prop :=
  ∃ s, item = .text s ∧ Text.asciiLower s.toList = k.keyword.toList

theorem ofKeyword?_eq_some_iff {s : String} {k : Connector} :
    ofKeyword? s = some k ↔ Text.asciiLower s.toList = k.keyword.toList := by
  constructor
  · intro h
    have hfound := List.find?_some h
    rw [beq_iff_eq] at hfound
    rw [hfound, String.toList_ofList]
  · intro h
    rw [ofKeyword?, h, String.ofList_toList]
    cases k <;> decide

theorem ofAnyJson?_eq_some_iff {item : Json} {k : Connector} :
    ofAnyJson? item = some k ↔ k.Spells item := by
  constructor
  · intro h
    obtain ⟨s, hs, hkeyword⟩ := Option.bind_eq_some_iff.1 h
    cases item with
    | text t =>
      obtain rfl := Option.some.inj hs
      exact ⟨t, rfl, ofKeyword?_eq_some_iff.1 hkeyword⟩
    | _ => cases hs
  · rintro ⟨s, rfl, h⟩
    exact ofKeyword?_eq_some_iff.2 h

/-- How many of the first items are no connectors. -/
def dropped (items : List Json) (i : Nat) : Nat :=
  (items.take i).countP fun item => (ofAnyJson? item).isNone

theorem length_filterMap_add_dropped {items : List Json} {i : Nat} (h : i < items.length) :
    ((items.take i).filterMap ofAnyJson?).length + dropped items i = i := by
  have hcount := (items.take i).length_eq_countP_add_countP fun item => (ofAnyJson? item).isSome
  have hdropped : dropped items i =
      (items.take i).countP fun item => decide ¬(ofAnyJson? item).isSome = true :=
    List.countP_congr fun item _ => by simp
  rw [List.length_take, Nat.min_eq_left (Nat.le_of_lt h)] at hcount
  rw [List.length_filterMap_eq_countP, hdropped, ← hcount]

theorem dropped_eq_zero_iff {items : List Json} {i : Nat} :
    dropped items i = 0 ↔ ∀ item ∈ items.take i, ∃ k : Connector, k.Spells item := by
  rw [dropped, List.countP_eq_zero]
  refine forall₂_congr fun item _ => ?_
  rw [Option.isNone_iff_eq_none, ← Ne, Option.ne_none_iff_exists']
  exact exists_congr fun k => ofAnyJson?_eq_some_iff

end Connector

namespace Filter

open Connector

/-- **A connector moves up by the number of items before it that are dropped.**  It stands in the
gap of its item exactly if there are none.  The conditions are all there and in order, and
canonical text has the connector in the gap where it stands. -/
theorem connectors_ofAnyJson {v item : Json} {cs ks : List Json} {i : Nat} {k : Connector}
    (hconditions : v.member? "conditions" = some (.array cs))
    (hconnectors : v.member? "connectors" = some (.array ks))
    (hitem : ks[i]? = some item) (hspells : k.Spells item) :
    (ofAnyJson v).conditions = cs.map Condition.ofAnyJson ∧
      ∃ j, j + dropped ks i = i ∧ (ofAnyJson v).connectors[j]? = some k ∧
        (j = i ↔ ∀ other ∈ ks.take i, ∃ k' : Connector, k'.Spells other) ∧
        (j + 1 < cs.length → (ofAnyJson v).chars = ((ofAnyJson v).upTo j).chars ++ (k.spaced ++
          joined ((ofAnyJson v).behind j).conditions ((ofAnyJson v).behind j).connectors)) := by
  have hcs : (ofAnyJson v).conditions = cs.map Condition.ofAnyJson := by
    rw [ofAnyJson, hconditions]
    rfl
  have hks : (ofAnyJson v).connectors = ks.filterMap ofAnyJson? := by
    rw [ofAnyJson, hconnectors]
    rfl
  have hlt : i < ks.length := (List.getElem?_eq_some_iff.1 hitem).1
  have hsum := length_filterMap_add_dropped hlt
  have hconnector :
      (ofAnyJson v).connectors[((ks.take i).filterMap ofAnyJson?).length]? = some k := by
    rw [hks]
    exact getElem?_filterMap_of_getElem? hitem (ofAnyJson?_eq_some_iff.2 hspells)
  refine ⟨hcs, _, hsum, hconnector, ?_, ?_⟩
  · rw [← dropped_eq_zero_iff]
    omega
  · intro hgap
    rw [chars_eq_append (by rwa [hcs, List.length_map]), hconnector]
    rfl

/-- Of three connectors the second is none, so the third moves up by one gap. -/
theorem connectors_ofAnyJson_three :
    ∃ v : Json, ∃ cs ks : List Json, v.member? "conditions" = some (.array cs) ∧
      v.member? "connectors" = some (.array ks) ∧ ks[2]? = some (.text "OR") ∧
      Connector.or.Spells (.text "OR") ∧ (ofAnyJson v).connectors[1]? = some .or := by
  have hspells : Connector.or.Spells (.text "OR") := ⟨"OR", rfl, by decide⟩
  obtain ⟨-, j, hsum, hconnector, -, -⟩ := connectors_ofAnyJson (i := 2)
    (v := .object [("connectors", .array [.text "and", .null, .text "OR"]),
      ("conditions", .array [.null, .null, .null, .null])]) rfl rfl rfl hspells
  have hdropped : dropped [.text "and", .null, .text "OR"] 2 = 1 := rfl
  obtain rfl : j = 1 := by omega
  exact ⟨_, _, _, rfl, rfl, rfl, hspells, hconnector⟩

/-- A connector that stands behind another word comes before the conditions that it was between. -/
theorem connectors_ofAnyJson_moved :
    ∃ v : Json, ∃ cs ks : List Json, v.member? "conditions" = some (.array cs) ∧
      v.member? "connectors" = some (.array ks) ∧ 1 + 1 < cs.length ∧
      ks[1]? = some (.text "or") ∧ Connector.or.Spells (.text "or") ∧
      (ofAnyJson v).connectors[1]? = none ∧
      (ofAnyJson v).text = "a = null or b = nullc = null" := by
  refine ⟨.object [
      ("conditions", .array [.object [("variable", .text "a")], .object [("variable", .text "b")],
        .object [("variable", .text "c")]]),
      ("connectors", .array [.text "xor", .text "or"])], _, _, rfl, rfl, by decide, rfl,
    ⟨"or", rfl, by decide⟩, ?_, ?_⟩
  · decide +kernel
  · decide +kernel

end Filter

end ColumnFilter
