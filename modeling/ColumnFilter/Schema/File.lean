import ColumnFilter.Json.Parse
import ColumnFilter.Json.Record
import ColumnFilter.Schema

/-!
# Schema files

A schema file is a JSON record with the field `columns`, a list of records with
the fields `name` and `type`.  No field may be absent, and what stands under
other names is passed over.
-/

namespace ColumnFilter

namespace ColumnType

/-- The type of a stored form, whose spelling must be exact. -/
def ofJson? (v : Json) : Option ColumnType :=
  v.caseName?.bind ofName?

end ColumnType

namespace Column

/-- The names of the fields of a column. -/
def fieldNames : List String :=
  ["name", "type"]

/-- The column of a stored form. -/
def ofJson? (v : Json) : Option Column :=
  match v.fields? fieldNames with
  | some [name, type] =>
    match Json.fieldOr none Json.text? name, Json.fieldOr none ColumnType.ofJson? type with
    | some name, some type => some ⟨name, type⟩
    | _, _ => none
  | _ => none

end Column

namespace Schema

/-- The columns of a stored form. -/
def columnsOfJson? (v : Json) : Option (List Column) :=
  match v.fields? ["columns"] with
  | some [columns] => Json.fieldOr none (Json.list? Column.ofJson?) columns
  | _ => none

/-- The schema that a file with this text declares. -/
def ofFile? (text : String) : Option Schema :=
  ((Json.parseForm? text).bind columnsOfJson?).map ofColumns

end Schema

end ColumnFilter
