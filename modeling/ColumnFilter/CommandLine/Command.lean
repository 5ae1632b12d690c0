import ColumnFilter.CommandLine.Arguments
import ColumnFilter.Filter.Stored
import ColumnFilter.Filter.Text
import ColumnFilter.Json.Print
import ColumnFilter.Reading
import ColumnFilter.Schema.File

/-!
# Commands

A filter can be checked, printed in its stored form, or rendered from it.  A
command says which input it needs, and its outcome is a function of the text of
that input: what is printed, and whether it succeeded.
-/

namespace ColumnFilter.CommandLine

/-- The declarations on a command line. -/
structure Declarations where
  /-- The file whose columns come first. -/
  schemaFile : Option String
  /-- The columns that are declared one by one. -/
  columns : List Column
deriving DecidableEq, Repr

/-- What is to be done. -/
inductive Command where
  /-- Says whether a text is a filter. -/
  | check (expression : String) (declarations : Declarations)
  /-- Prints the stored form of a filter text. -/
  | parse (expression : String) (declarations : Declarations)
  /-- Prints the text of a stored filter. -/
  | render (file : Option String)
deriving DecidableEq, Repr

/-- Where a command takes its input from. -/
inductive Source where
  /-- There is no input. -/
  | nothing
  /-- The file with a name. -/
  | file (name : String)
  /-- The standard input. -/
  | standardInput
deriving DecidableEq, Repr

/-- How a run ends. -/
inductive Status where
  | success
  | failure
  | usage
deriving DecidableEq, Repr

/-- What a run leaves behind. -/
structure Outcome where
  /-- How the run ends. -/
  status : Status
  /-- What is printed on the standard output. -/
  output : String
deriving DecidableEq, Repr

/-- The exit code of a status. -/
def Status.code : Status → Nat
  | success => 0
  | failure => 1
  | usage => 2

namespace Outcome

/-- A run that prints one line and succeeds. -/
def line (text : String) : Outcome :=
  ⟨.success, text ++ "\n"⟩

/-- A run that fails with nothing on the standard output. -/
def failed : Outcome :=
  ⟨.failure, ""⟩

/-- A run whose arguments make no sense. -/
def misused : Outcome :=
  ⟨.usage, ""⟩

end Outcome

/-- The declarations among the arguments, with at most one schema file and none without name. -/
def readDeclarations (args : List Argument) : Option Declarations :=
  match valuesOf .schema args, (valuesOf .column args).mapM Column.ofDeclaration? with
  | [], some columns => some ⟨none, columns⟩
  | [file], some columns => if file.isEmpty then none else some ⟨some file, columns⟩
  | _, _ => none

/-- The expression and the declarations of a command that has both. -/
def readExpression (args : List Argument) : Option (String × Declarations) :=
  match operands args, readDeclarations args with
  | [expression], some declarations => some (expression, declarations)
  | _, _ => none

/-- The file of a command that takes no more than that. -/
def readFile (args : List Argument) : Option (Option String) :=
  if (valuesOf .column args).isEmpty && (valuesOf .schema args).isEmpty then
    match operands args with
    | [] => some none
    | [file] => if file.isEmpty then none else some (some file)
    | _ => none
  else none

/-- The command with a name and arguments, among which `verbose` stands at most once. -/
def readCommand (name : String) (args : List String) : Option Command :=
  match readArguments args with
  | none => none
  | some args =>
    if 1 < args.count .verbose then none
    else match name with
      | "check" => (readExpression args).map fun (e, d) => .check e d
      | "parse" => (readExpression args).map fun (e, d) => .parse e d
      | "render" => (readFile args).map .render
      | _ => none

/-- Is the argument the wish for more messages? -/
def isVerbose (arg : String) : Bool :=
  arg == "-v" || arg == "--verbose"

/-- The command of a command line; `verbose` may stand once in front of its name as well. -/
def read : List String → Option Command
  | [] => none
  | arg :: args =>
    if isVerbose arg then
      match args with
      | [] => none
      | name :: args => readCommand name args
    else readCommand arg args

namespace Command

/-- The input that a command needs. -/
def source : Command → Source
  | check _ declarations | parse _ declarations =>
    match declarations.schemaFile with
    | none => .nothing
    | some file => .file file
  | render none => .standardInput
  | render (some file) => .file file

/-- The declared columns, given the text of the schema file if it could be read. -/
def schema? (declarations : Declarations) (input : Option String) : Option Schema :=
  let base := match declarations.schemaFile with
    | none => some Schema.empty
    | some _ => input.bind Schema.ofFile?
  base.map fun schema => declarations.columns.foldl Schema.insert schema

/-- The filter that an expression stands for, if the schema and the expression are in order. -/
def filter? (expression : String) (declarations : Declarations) (input : Option String) :
    Option Filter :=
  (schema? declarations input).bind fun schema => (schema.parse expression).toOption

/-- The outcome of a command, given its input if it could be read. -/
def run (input : Option String) : Command → Outcome
  | check expression declarations =>
    match filter? expression declarations input with
    | some _ => .line "valid"
    | none => .failed
  | parse expression declarations =>
    match filter? expression declarations input with
    | some filter => .line filter.toJson.indented
    | none => .failed
  | render _ =>
    match input.bind Filter.ofAnyStored? with
    | some filter => .line filter.text
    | none => .failed

end Command

end ColumnFilter.CommandLine
