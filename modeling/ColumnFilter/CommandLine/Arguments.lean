import ColumnFilter.Schema

/-!
# Arguments of the command line

The arguments after the name of a command are options and operands in any order.
Long options take their value after an equals sign or as the next argument;
short ones may be joined, and take the rest of the argument or the next one.
Everything after `--` is an operand.
-/

namespace ColumnFilter

namespace Column

/-- The column that `NAME:TYPE` declares; the name ends at the first colon. -/
def ofDeclaration? (text : String) : Option Column :=
  match text.toList.span (· != ':') with
  | (_, []) => none
  | (name, _ :: type) =>
    (ColumnType.ofSynonym? (String.ofList type)).map fun t =>
      ⟨String.ofList (Text.trimChars name), t⟩

end Column

namespace CommandLine

/-- An option that takes a value. -/
inductive ValueOption where
  /-- The declaration of a column. -/
  | column
  /-- The file with further declarations. -/
  | schema
deriving DecidableEq, Repr

/-- One part of the arguments. -/
inductive Argument where
  /-- The wish for more messages. -/
  | verbose
  /-- An option with its value. -/
  | option (name : ValueOption) (value : String)
  /-- An argument that belongs to no option. -/
  | operand (value : String)
deriving DecidableEq, Repr

/-- What a single argument holds, and the option that waits for the next one as its value. -/
structure Reading where
  /-- The parts that are complete. -/
  complete : List Argument
  /-- The option without its value. -/
  waiting : Option ValueOption
deriving DecidableEq, Repr

/-- An option whose value is the rest of its argument, if there is a rest. -/
def Reading.ofShort (name : ValueOption) : List Char → Reading
  | [] => ⟨[], some name⟩
  | '=' :: cs => ⟨[.option name (String.ofList cs)], none⟩
  | cs => ⟨[.option name (String.ofList cs)], none⟩

/-- The short options that are joined after one dash. -/
def readShort : List Char → Option Reading
  | [] => some ⟨[], none⟩
  | 'v' :: cs => (readShort cs).map fun r => ⟨.verbose :: r.complete, r.waiting⟩
  | 'c' :: cs => some (.ofShort .column cs)
  | 's' :: cs => some (.ofShort .schema cs)
  | _ => none

/-- The long option after two dashes. -/
def readLong (cs : List Char) : Option Reading :=
  let (name, value) := cs.span (· != '=')
  match String.ofList name, value with
  | "verbose", [] => some ⟨[.verbose], none⟩
  | "column", [] => some ⟨[], some .column⟩
  | "schema", [] => some ⟨[], some .schema⟩
  | "column", _ :: value => some ⟨[.option .column (String.ofList value)], none⟩
  | "schema", _ :: value => some ⟨[.option .schema (String.ofList value)], none⟩
  | _, _ => none

/-- What an argument in front of any `--` holds; a dash on its own is an operand. -/
def readArgument (arg : String) : Option Reading :=
  match arg.toList with
  | '-' :: '-' :: cs => readLong cs
  | '-' :: c :: cs => readShort (c :: cs)
  | _ => some ⟨[.operand arg], none⟩

/-- May the argument be the value of the option before it? -/
def isValue (arg : String) : Bool :=
  match arg.toList with
  | '-' :: _ :: _ => false
  | _ => true

/-- The parts of the arguments after the name of a command. -/
def readArguments : List String → Option (List Argument)
  | [] => some []
  | arg :: rest =>
    if arg = "--" then some (rest.map .operand)
    else match readArgument arg with
      | none => none
      | some ⟨complete, none⟩ => (readArguments rest).map (complete ++ ·)
      | some ⟨complete, some name⟩ =>
        match rest with
        | [] => none
        | value :: rest =>
          if isValue value then
            (readArguments rest).map fun more => complete ++ .option name value :: more
          else none

/-- The arguments that belong to no option. -/
def operands (args : List Argument) : List String :=
  args.filterMap fun
    | .operand value => some value
    | _ => none

/-- The values of an option. -/
def valuesOf (name : ValueOption) (args : List Argument) : List String :=
  args.filterMap fun
    | .option other value => if other = name then some value else none
    | _ => none

end CommandLine

end ColumnFilter
