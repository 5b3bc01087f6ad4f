import UnitCache.Json.Token

/-! JSON values and how they are read.

A text is read token by token with a stack of the arrays and objects that are still
open. Fields keep their order and may repeat. A string with half of a surrogate pair
is kept as a string without a text, so that a reader that does not ask for it need
not care. -/

namespace UnitCache

inductive Json where
  | null
  | bool (value : Bool)
  | number (text : String)
  | string (text : Option String)
  | array (items : List Json)
  | object (fields : List (Option String × Json))

namespace Json

/-- An open array or object, last part first, with the key whose value is being read. -/
inductive Frame where
  | item (before : List Json)
  | field (before : List (Option String × Json)) (key : Option String)

/-- What may come next. `first` says that nothing has been read since the bracket, so that it may be
closed again. -/
inductive Reading where
  | wantValue (stack : List Frame) (first : Bool)
  | wantKey (before : List (Option String × Json)) (stack : List Frame) (first : Bool)
  | wantColon (before : List (Option String × Json)) (key : Option String) (stack : List Frame)
  | afterItem (items : List Json) (stack : List Frame)
  | afterField (fields : List (Option String × Json)) (stack : List Frame)
  | done (value : Json)

namespace Reading

def finish (value : Json) : List Frame → Reading
  | [] => .done value
  | .item before :: stack => .afterItem (value :: before) stack
  | .field before key :: stack => .afterField ((key, value) :: before) stack

def start : Reading := .wantValue [] false

def next : Reading → Token → Option Reading
  | .wantValue stack first, token =>
    match token with
    | .null => some (finish .null stack)
    | .bool value => some (finish (.bool value) stack)
    | .number text => some (finish (.number text) stack)
    | .string text => some (finish (.string text) stack)
    | .openArray => some (.wantValue (.item [] :: stack) true)
    | .openObject => some (.wantKey [] stack true)
    | .closeArray =>
      match stack, first with
      | .item _ :: below, true => some (finish (.array []) below)
      | _, _ => none
    | _ => none
  | .wantKey before stack first, token =>
    match token with
    | .string text => some (.wantColon before text stack)
    | .closeObject => if first then some (finish (.object []) stack) else none
    | _ => none
  | .wantColon before key stack, .colon => some (.wantValue (.field before key :: stack) false)
  | .afterItem items stack, .comma => some (.wantValue (.item items :: stack) false)
  | .afterItem items stack, .closeArray => some (finish (.array items.reverse) stack)
  | .afterField fields stack, .comma => some (.wantKey fields stack false)
  | .afterField fields stack, .closeObject => some (finish (.object fields.reverse) stack)
  | _, _ => none

end Reading

def ofText? (text : String) : Option Json := do
  let all ← tokens text.toList
  match ← all.foldlM Reading.next Reading.start with
  | .done value => some value
  | _ => none

/-- A whole number of at most `bound`, written without sign, fraction and exponent. -/
def natural? (bound : Nat) : Json → Option Nat
  | .number text =>
    (Text.digits? text.toList).filter (· ≤ bound)
  | _ => none

def string? : Json → Option String
  | .string text => text
  | _ => none

def strings? : Json → Option (List String)
  | .array items => items.mapM string?
  | _ => none

end Json

end UnitCache
