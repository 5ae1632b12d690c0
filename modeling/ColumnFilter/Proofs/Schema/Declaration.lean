import ColumnFilter.CommandLine.Command
import ColumnFilter.Proofs.Reading.Requirement
import ColumnFilter.Proofs.Text.LowerCase

/-!
# Schemas made by declarations

Two things are kept of a declaration under different keys: its name in the spelling
in which it came first, and its type under the lower-case form of the name, where the
last one counts.  `resolve_insert` and `typeOf_insert` say what one more declaration
changes, whatever the schema: a name is found if it was found before or is the new
one, and the new type is that of all names that equal the new one.  The second needs
`Text.lower_lower`, since keys are in lower case and are compared by their lower case.

`Records` is what a row of declarations leaves behind.  `records_ofColumns` proves it
of every schema that was made by declarations, as those of schema files and of command
lines are; under such a schema no column is found without its type.
-/

namespace ColumnFilter

open Text

namespace Text

variable {s t : String}

theorem sameIgnoringCase_iff : sameIgnoringCase s t = true ↔ lower s = lower t :=
  beq_iff_eq

theorem sameIgnoringCase_comm (s t : String) : sameIgnoringCase s t = sameIgnoringCase t s :=
  Bool.beq_comm

end Text

/-- One more element stays out if there is one like it. -/
theorem eraseDupsBy_concat {α : Type} (same : α → α → Bool) (xs : List α) (x : α) :
    (xs ++ [x]).eraseDupsBy same =
      if (xs.eraseDupsBy same).any (same x) then xs.eraseDupsBy same
      else xs.eraseDupsBy same ++ [x] := by
  suffices h : ∀ kept, List.eraseDupsBy.loop same (xs ++ [x]) kept =
      if (List.eraseDupsBy.loop same xs kept).any (same x) then List.eraseDupsBy.loop same xs kept
      else List.eraseDupsBy.loop same xs kept ++ [x] from h []
  induction xs with
  | nil =>
    intro kept
    simp only [List.nil_append, List.eraseDupsBy.loop, List.any_reverse]
    split <;> simp_all
  | cons y ys ih =>
    intro kept
    rw [List.cons_append, List.eraseDupsBy.loop, List.eraseDupsBy.loop]
    cases kept.any (same y) with
    | true => exact ih kept
    | false => exact ih (y :: kept)

namespace Schema

variable {s : Schema} {key : String} {type : ColumnType} {types : List (String × ColumnType)}

/-! ### One more declaration -/

theorem lookup_setType_of_ne {other : String} (h : other ≠ key) :
    (setType key type types).lookup other = types.lookup other := by
  have hother : (other == key) = false := beq_eq_false_iff_ne.2 h
  induction types with
  | nil => rw [setType, List.lookup_cons, hother]
  | cons entry rest ih =>
    obtain ⟨found, held⟩ := entry
    rw [setType]
    split
    next hkey =>
      obtain rfl : found = key := hkey
      rw [List.lookup_cons, List.lookup_cons, hother]
    next => rw [List.lookup_cons, List.lookup_cons, ih]

/-- Setting a type is not seen where its key is not looked for. -/
theorem find?_setType {p : String → Bool} (h : p key = false) :
    (setType key type types).find? (fun entry => p entry.1) =
      types.find? fun entry => p entry.1 := by
  induction types with
  | nil => simp [setType, h]
  | cons entry rest ih =>
    rw [setType]
    split
    next hkey =>
      rw [List.find?_cons_of_neg (by simp [h]), List.find?_cons_of_neg (by simp [hkey, h])]
    next => rw [List.find?_cons, List.find?_cons, ih]

/-- **A name is found in its first spelling.** -/
theorem resolve_insert (s : Schema) (column : Column) (name : String) :
    (s.insert column).resolve name = (s.resolve name).or
      (if sameIgnoringCase column.name name then some column.name else none) := by
  by_cases hsame : sameIgnoringCase column.name name = true
  · rw [if_pos hsame, resolve, insert]
    split
    next hfound =>
      rw [resolve_congr hsame] at hfound
      obtain ⟨found, hfound⟩ := Option.isSome_iff_exists.1 hfound
      show s.resolve name = _
      rw [hfound, Option.some_or]
    next =>
      rw [List.find?_append]
      exact congrArg _ (List.find?_cons_of_pos hsame)
  · rw [if_neg hsame, Option.or_none, resolve, insert]
    split
    next => rfl
    next =>
      have hnone : [column.name].find? (sameIgnoringCase · name) = none :=
        List.find?_cons_of_neg hsame
      rw [List.find?_append, hnone, Option.or_none]
      rfl

/-- **The last type counts**, for every spelling of the name, and for no other name. -/
theorem typeOf_insert (s : Schema) (column : Column) (name : String) :
    (s.insert column).typeOf name =
      if sameIgnoringCase column.name name then some column.type else s.typeOf name := by
  by_cases hsame : sameIgnoringCase column.name name = true
  · rw [if_pos hsame, ← typeOf_congr hsame, typeOf_insert_self]
  · have hkey : lower name ≠ lower column.name := fun h =>
      hsame (sameIgnoringCase_iff.2 h.symm)
    have hscan : sameIgnoringCase (lower column.name) name = false := by
      rw [Bool.eq_false_iff, Ne, sameIgnoringCase_iff, lower_lower]
      exact hkey.symm
    rw [if_neg hsame, typeOf, insert, lookup_setType_of_ne hkey,
      find?_setType (p := (sameIgnoringCase · name)) hscan]
    rfl

theorem names_insert (s : Schema) (column : Column) : (s.insert column).names =
    if s.names.any (sameIgnoringCase column.name) then s.names else s.names ++ [column.name] := by
  have hfound : (s.resolve column.name).isSome = s.names.any (sameIgnoringCase column.name) := by
    rw [Bool.eq_iff_iff, isSome_resolve_iff, List.any_eq_true]
    simp only [sameIgnoringCase_comm column.name]
  rw [insert, hfound]

/-! ### Rows of declarations -/

/-- What a schema keeps of the declarations that made it: the first spelling of every name, and
the last type. -/
structure Records (s : Schema) (columns : List Column) : Prop where
  names_apart : s.names.Pairwise fun name other => sameIgnoringCase name other = false
  names_eq : s.names = (columns.map (·.name)).eraseDupsBy sameIgnoringCase
  resolve_eq : ∀ name, s.resolve name =
    (columns.filter (sameIgnoringCase ·.name name)).head?.map (·.name)
  typeOf_eq : ∀ name, s.typeOf name =
    (columns.filter (sameIgnoringCase ·.name name)).getLast?.map (·.type)

namespace Records

variable {columns : List Column} {name : String}

theorem empty : Schema.empty.Records [] :=
  ⟨.nil, rfl, fun _ => rfl, fun _ => rfl⟩

theorem insert (h : s.Records columns) (column : Column) :
    (s.insert column).Records (columns ++ [column]) where
  names_apart := by
    rw [names_insert]
    split
    next => exact h.names_apart
    next hnew =>
      rw [List.pairwise_append]
      refine ⟨h.names_apart, List.pairwise_singleton .., fun name hname other hother => ?_⟩
      obtain rfl := List.mem_singleton.1 hother
      rw [sameIgnoringCase_comm, Bool.eq_false_iff]
      exact fun hsame => hnew (List.any_eq_true.2 ⟨name, hname, hsame⟩)
  names_eq := by
    rw [names_insert, h.names_eq, List.map_append, List.map_singleton, eraseDupsBy_concat]
  resolve_eq := by
    intro name
    rw [resolve_insert, h.resolve_eq, List.filter_append, List.head?_append, Option.map_or]
    cases hsame : sameIgnoringCase column.name name <;> simp [hsame]
  typeOf_eq := by
    intro name
    rw [typeOf_insert, h.typeOf_eq, List.filter_append, List.getLast?_append, Option.map_or]
    cases hsame : sameIgnoringCase column.name name <;> simp [hsame]

/-- **Declarations are recorded one after the other.** -/
theorem foldl_insert (h : s.Records columns) (more : List Column) :
    (more.foldl Schema.insert s).Records (columns ++ more) := by
  induction more generalizing s columns with
  | nil =>
    rw [List.append_nil]
    exact h
  | cons column more ih =>
    rw [List.append_cons]
    exact ih (h.insert column)

theorem isSome_resolve_iff (h : s.Records columns) : (s.resolve name).isSome = true ↔
    ∃ column ∈ columns, sameIgnoringCase column.name name = true := by
  rw [h.resolve_eq, Option.isSome_map, List.head?_filter, List.find?_isSome]

theorem isSome_typeOf_iff (h : s.Records columns) : (s.typeOf name).isSome = true ↔
    ∃ column ∈ columns, sameIgnoringCase column.name name = true := by
  rw [h.typeOf_eq, Option.isSome_map, List.getLast?_filter, List.find?_isSome]
  simp only [List.mem_reverse]

end Records

/-! ### Columns without a type -/

/-- No value is refused for a type that is missing. -/
theorem readValue_ne_untyped {name : String} {c : Written.Condition} (found : String)
    (column : Lexeme) : readValue name type c ≠ .error (.untypedColumn found column) := by
  intro h
  rw [readValue] at h
  split at h
  · split at h
    · split at h <;> cases h
    · cases h
  · split at h
    · split at h <;> cases h
    · cases h

theorem typeOf_eq_none_of_readCondition {c : Written.Condition} {name : String} {column : Lexeme}
    (h : s.readCondition c = .error (.untypedColumn name column)) :
    (s.resolve c.column.text).isSome = true ∧ s.typeOf c.column.text = none := by
  cases hresolve : s.resolve c.column.text with
  | none =>
    rw [readCondition_eq, hresolve] at h
    cases h
  | some declared =>
    refine ⟨rfl, ?_⟩
    cases htype : s.typeOf c.column.text with
    | none => rfl
    | some type =>
      rw [readCondition_of_resolve hresolve htype] at h
      cases hvalue : readValue declared type c with
      | error cause =>
        rw [hvalue] at h
        obtain rfl := Except.error.inj h
        exact absurd hvalue (readValue_ne_untyped name column)
      | ok v =>
        rw [hvalue] at h
        cases h

theorem readFilter_ne_untyped {text : String} {fault : Fault}
    (h : Written.readFilter text = .error fault) (name : String) (column : Lexeme) :
    fault.cause ≠ .untypedColumn name column := by
  obtain ⟨-, rfl⟩ := readFilter_eq_error.1 h
  rintro ⟨⟩

/-- **Under a schema made by declarations no column lacks its type.** -/
theorem Records.parse_ne_untyped {columns : List Column} (h : s.Records columns) {text : String}
    {fault : Fault} (hparse : s.parse text = .error fault) (name : String) (column : Lexeme) :
    fault.cause ≠ .untypedColumn name column := by
  intro huntyped
  rcases exists_of_parse_eq_error hparse with ⟨found, hread, hcause⟩ | ⟨w, -, c, -, hc⟩
  · exact readFilter_ne_untyped hread name column (hcause.symm.trans huntyped)
  · rw [huntyped] at hc
    obtain ⟨hresolve, htype⟩ := typeOf_eq_none_of_readCondition hc
    have hsome := h.isSome_typeOf_iff.2 (h.isSome_resolve_iff.1 hresolve)
    rw [htype] at hsome
    cases hsome

/-! ### Where declarations come from -/

theorem exists_ofColumns_of_ofFile? {text : String} (h : ofFile? text = some s) :
    ∃ columns, s = ofColumns columns := by
  obtain ⟨columns, -, hcolumns⟩ := Option.map_eq_some_iff.1 h
  exact ⟨columns, hcolumns.symm⟩

/-- The columns of a command line are declared behind those of its file. -/
theorem exists_ofColumns_of_schema? {declarations : CommandLine.Declarations}
    {input : Option String} (h : CommandLine.Command.schema? declarations input = some s) :
    ∃ columns, s = ofColumns (columns ++ declarations.columns) := by
  obtain ⟨base, hbase, rfl⟩ := Option.map_eq_some_iff.1 h
  suffices hcolumns : ∃ columns, base = ofColumns columns by
    obtain ⟨columns, rfl⟩ := hcolumns
    exact ⟨columns, (List.foldl_append ..).symm⟩
  split at hbase
  · exact ⟨[], (Option.some.inj hbase).symm⟩
  · obtain ⟨text, -, htext⟩ := Option.bind_eq_some_iff.1 hbase
    exact exists_ofColumns_of_ofFile? htext

end Schema

/-- **Every row of declarations is recorded.**  A name is found, and has a type, exactly if one
of the declared names equals it, in the first spelling and with the last type; so no text is
refused for a column without a type.  Schema files and command lines make their schemas so. -/
theorem records_ofColumns (columns : List Column) :
    (Schema.ofColumns columns).Records columns ∧
      (∀ name, ((Schema.ofColumns columns).resolve name).isSome =
          ((Schema.ofColumns columns).typeOf name).isSome ∧
        (((Schema.ofColumns columns).typeOf name).isSome = true ↔
          ∃ column ∈ columns, sameIgnoringCase column.name name = true)) ∧
      (∀ text fault, (Schema.ofColumns columns).parse text = .error fault →
        ∀ name column, fault.cause ≠ .untypedColumn name column) ∧
      (∀ text s, Schema.ofFile? text = some s → ∃ declared, s = Schema.ofColumns declared) ∧
      ∀ declarations input s, CommandLine.Command.schema? declarations input = some s →
        ∃ declared, s = Schema.ofColumns (declared ++ declarations.columns) := by
  have h : (Schema.ofColumns columns).Records columns := Schema.Records.empty.foldl_insert columns
  refine ⟨h, fun name => ⟨?_, h.isSome_typeOf_iff⟩, fun _ _ => h.parse_ne_untyped,
    fun _ _ => Schema.exists_ofColumns_of_ofFile?, fun _ _ _ => Schema.exists_ofColumns_of_schema?⟩
  rw [Bool.eq_iff_iff, h.isSome_resolve_iff, h.isSome_typeOf_iff]

/-- A name that is declared twice, and a text that is refused for the second type. -/
theorem records_ofColumns_declaredTwice :
    ∃ fault, (Schema.ofColumns [⟨"Age", .number⟩, ⟨"ÉTÉ", .string⟩, ⟨"AGE", .boolean⟩]).parse
        "age > 3" = .error fault ∧ (∀ name column, fault.cause ≠ .untypedColumn name column) ∧
      (Schema.ofColumns [⟨"Age", .number⟩, ⟨"ÉTÉ", .string⟩, ⟨"AGE", .boolean⟩]).Records
        [⟨"Age", .number⟩, ⟨"ÉTÉ", .string⟩, ⟨"AGE", .boolean⟩] := by
  have hparse : (Schema.ofColumns [⟨"Age", .number⟩, ⟨"ÉTÉ", .string⟩, ⟨"AGE", .boolean⟩]).parse
      "age > 3" = .error ⟨.incompatibleOperator "Age" .boolean ⟨">", 4⟩ ⟨"age", 0⟩, "age > 3"⟩ := by
    decide +kernel
  obtain ⟨hrecords, -, huntyped, -⟩ :=
    records_ofColumns [⟨"Age", .number⟩, ⟨"ÉTÉ", .string⟩, ⟨"AGE", .boolean⟩]
  exact ⟨_, hparse, huntyped _ _ hparse, hrecords⟩

/-- The second spelling is found as the first one, and has the type that came with it. -/
example :
    let s := Schema.ofColumns [⟨"Straße", .string⟩, ⟨"ÉTÉ", .number⟩, ⟨"été", .boolean⟩]
    s.names = ["Straße", "ÉTÉ"] ∧ s.resolve "Été" = some "ÉTÉ" ∧
      s.typeOf "Été" = some .boolean := by
  decide +kernel

end ColumnFilter
