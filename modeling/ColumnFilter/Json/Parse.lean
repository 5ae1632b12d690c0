import ColumnFilter.Json.Basic
import ColumnFilter.Json.Token

/-!
# JSON from tokens

Tokens are taken one at a time.  The arrays and objects that are open form a
stack, and what may come next depends on the state and the innermost of them
only.  A text is read as a value only if all its tokens stand for something and
the stack stays low.  Readers that pass parts of a text over ask no more than
that the text has the form of JSON.
-/

namespace ColumnFilter.Json

/-- An array or object that is still open. -/
inductive Frame where
  /-- An array, with the items before the current one. -/
  | array (items : List Json)
  /-- An object, with the members before the current one and the name of that. -/
  | object (members : List (Option String × Json)) (name : Option String)

/-- What has been read, and so what may come next. -/
inductive State where
  /-- A value has to come. -/
  | value (stack : List Frame)
  /-- An array has been opened: its first item or its end has to come. -/
  | firstItem (stack : List Frame)
  /-- An object has been opened: its first name or its end has to come. -/
  | firstName (stack : List Frame)
  /-- A further name has to come. -/
  | name (members : List (Option String × Json)) (stack : List Frame)
  /-- The colon after a name has to come. -/
  | colon (members : List (Option String × Json)) (name : Option String) (stack : List Frame)
  /-- A value is complete: a comma, an end or the end of the text has to come. -/
  | complete (value : Json) (stack : List Frame)

namespace State

/-- The state after the first token of a value, with at most `limit` arrays and objects open. -/
def beginValue (limit : Nat) (stack : List Frame) : Token → Option State
  | .null => some (complete .null stack)
  | .boolean b => some (complete (.boolean b) stack)
  | .number x => some (complete (x.elim .unreadable .number) stack)
  | .text s => some (complete (s.elim .unreadable .text) stack)
  | .openArray => if stack.length < limit then some (firstItem stack) else none
  | .openObject => if stack.length < limit then some (firstName stack) else none
  | _ => none

/-- The state after one more token. -/
def step (limit : Nat) : State → Token → Option State
  | value stack, t => beginValue limit stack t
  | firstItem stack, .closeArray => some (complete (.array []) stack)
  | firstItem stack, t => beginValue limit (.array [] :: stack) t
  | firstName stack, .closeObject => some (complete (.object []) stack)
  | firstName stack, .text s => some (colon [] s stack)
  | name members stack, .text s => some (colon members s stack)
  | colon members s stack, .colon => some (value (.object members s :: stack))
  | complete v (.array items :: stack), .comma => some (value (.array (items ++ [v]) :: stack))
  | complete v (.array items :: stack), .closeArray =>
    some (complete (.array (items ++ [v])) stack)
  | complete v (.object members s :: stack), .comma => some (name (members ++ [(s, v)]) stack)
  | complete v (.object members s :: stack), .closeObject =>
    some (complete (ofMembers (members ++ [(s, v)])) stack)
  | _, _ => none

/-- The state after some tokens. -/
def steps (limit : Nat) : State → List Token → Option State
  | state, [] => some state
  | state, t :: ts =>
    match step limit state t with
    | none => none
    | some next => steps limit next ts

/-- The value that has been read, if nothing is open. -/
def result? : State → Option Json
  | complete v [] => some v
  | _ => none

end State

/-- The value that tokens make up, with at most `limit` arrays and objects open at once. -/
def ofTokens? (limit : Nat) (ts : List Token) : Option Json :=
  ((State.value []).steps limit ts).bind State.result?

/-- The greatest number of arrays and objects that may be open at once in a text that is read. -/
def maxDepth : Nat :=
  127

/-- The value that a JSON text stands for; every part of the text has to stand for something. -/
def parse? (text : String) : Option Json :=
  (Token.readAll text.toList).bind fun ts =>
    if ts.all Token.isReadable then ofTokens? maxDepth ts else none

/-- The value of a text that has the form of JSON, whatever its parts stand for.

No more arrays and objects are open at once than there are tokens, so that is no
bound at all. -/
def parseForm? (text : String) : Option Json :=
  (Token.readAll text.toList).bind fun ts => ofTokens? ts.length ts

end ColumnFilter.Json
