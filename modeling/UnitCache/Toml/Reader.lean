import UnitCache.Text.Lines
import UnitCache.Toml.Value

/-! Reading TOML documents, version 1.0. -/

namespace UnitCache.Toml

/-- Reads from the front of a text and leaves the rest, or fails. -/
abbrev Reader := StateT (List Char) Option

namespace Reader

def satisfy (test : Char → Bool) : Reader Char := fun input =>
  match input with
  | char :: rest => if test char then some (char, rest) else none
  | [] => none

def char (expected : Char) : Reader Unit := do
  let _ ← satisfy (· = expected)

def word (expected : String) : Reader Unit := fun input =>
  (expected.toList.isPrefixOf? input).map ((), ·)

def takeWhile (test : Char → Bool) : Reader (List Char) := fun input =>
  some (input.takeWhile test, input.dropWhile test)

def takeWhile1 (test : Char → Bool) : Reader (List Char) := do
  let first ← satisfy test
  return first :: (← takeWhile test)

def atEnd : Reader Unit := fun input => if input.isEmpty then some ((), []) else none

def manyFrom {α : Type} (reader : Reader α) (input : List Char) : List α × List Char :=
  match reader input with
  | none => ([], input)
  | some (value, rest) =>
    if rest.length < input.length then
      let (values, rest) := manyFrom reader rest
      (value :: values, rest)
    else ([], input)
termination_by input.length

def many {α : Type} (reader : Reader α) : Reader (List α) := fun input =>
  some (manyFrom reader input)

def exactly (count : Nat) (test : Char → Bool) : Reader (List Char) := fun input =>
  let taken := input.take count
  if taken.length = count && taken.all test then some (taken, input.drop count) else none

/-- Digits in groups that single underscores may part. -/
def digitGroups (test : Char → Bool) : Reader (List Char) := do
  let first ← takeWhile1 test
  let more ← many (do char '_'; takeWhile1 test)
  return first ++ more.flatten

end Reader

open Reader

def isBlank (char : Char) : Bool := char = ' ' || char = '\t'

/-- Characters that may stand in a comment: all but controls other than the tab. -/
def isVisible (char : Char) : Bool := char = '\t' || (0x20 ≤ char.toNat && char.toNat ≠ 0x7f)

def blanks : Reader Unit := do
  let _ ← takeWhile isBlank

def newline : Reader Unit := char '\n' <|> word "\r\n"

def comment : Reader Unit := do
  char '#'
  let _ ← takeWhile isVisible

def spacing : Reader Unit := do
  blanks
  let _ ← many (do let _ ← optional comment; newline; blanks)

def lineEnd : Reader Unit := do
  blanks
  let _ ← optional comment
  newline <|> atEnd

def scalarChar (value : Nat) : Reader Char :=
  if value < 0xd800 || (0xe000 ≤ value && value < 0x110000) then pure (Char.ofNat value)
  else failure

def escape : Reader Char := do
  char '\\'
  match ← satisfy fun _ => true with
  | 'b' => pure '\x08'
  | 't' => pure '\t'
  | 'n' => pure '\n'
  | 'f' => pure '\x0c'
  | 'r' => pure '\r'
  | '"' => pure '"'
  | '\\' => pure '\\'
  | 'u' => do scalarChar ((Text.hex? (← exactly 4 fun char => (Text.hexDigit? char).isSome)).getD 0)
  | 'U' => do scalarChar ((Text.hex? (← exactly 8 fun char => (Text.hexDigit? char).isSome)).getD 0)
  | _ => failure

def isPlain (char : Char) : Bool := isVisible char && char ≠ '"' && char ≠ '\\'

def isLiteral (char : Char) : Bool := isVisible char && char ≠ '\''

def basicString : Reader String := do
  char '"'
  let parts ← many (takeWhile1 isPlain <|> (do return [← escape]))
  char '"'
  return String.ofList parts.flatten

def literalString : Reader String := do
  char '\''
  let text ← takeWhile isLiteral
  char '\''
  return String.ofList text

/-- One or two quotes that do not end a text over several lines. -/
def innerQuotes (quote : Char) : Reader (List Char) := do
  let run ← takeWhile1 (· = quote)
  if run.length ≤ 2 then pure run else failure

/-- The three quotes that end a text over several lines, after up to two that belong to it. -/
def closingQuotes (quote : Char) : Reader (List Char) := do
  let run ← takeWhile1 (· = quote)
  if 3 ≤ run.length && run.length ≤ 5 then pure (run.drop 3) else failure

/-- A line end in a text is a line feed. -/
def textNewline : Reader (List Char) := do
  newline
  return ['\n']

/-- A backslash at the end of a line skips all space up to the next character. -/
def lineContinuation : Reader (List Char) := do
  char '\\'
  blanks
  newline
  let _ ← many (takeWhile1 isBlank <|> textNewline)
  return []

def longBasicString : Reader String := do
  word "\"\"\""
  let _ ← optional newline
  let parts ← many (takeWhile1 isPlain <|> textNewline <|> lineContinuation <|>
    (do return [← escape]) <|> innerQuotes '"')
  let last ← closingQuotes '"'
  return String.ofList (parts.flatten ++ last)

def longLiteralString : Reader String := do
  word "'''"
  let _ ← optional newline
  let parts ← many (takeWhile1 isLiteral <|> textNewline <|> innerQuotes '\'')
  let last ← closingQuotes '\''
  return String.ofList (parts.flatten ++ last)

def anyString : Reader String :=
  longBasicString <|> basicString <|> longLiteralString <|> literalString

def isBareKeyChar (char : Char) : Bool := char.isAlphanum || char = '-' || char = '_'

def keyPart : Reader String := do
  blanks
  let part ← basicString <|> literalString <|>
    (do return String.ofList (← takeWhile1 isBareKeyChar))
  blanks
  return part

/-- Keys and values are nested less deep than this. -/
def depthLimit : Nat := 80

/-- A dotted key: the path before the last dot, and the part after it. -/
def key : Reader (List String × String) := do
  let first ← keyPart
  let rest ← many (do char '.'; keyPart)
  let parts := first :: rest
  if parts.length < depthLimit then return (parts.dropLast, parts.getLastD first) else failure

def sign : Reader Bool := do
  match ← optional (satisfy fun char => char = '+' || char = '-') with
  | some '-' => return true
  | _ => return false

def wholeDigits : Reader (List Char) := fun input =>
  match input with
  | '0' :: rest => some (['0'], rest)
  | _ => digitGroups Char.isDigit input

def bounded (value : Int) : Reader Value :=
  if -9223372036854775808 ≤ value && value ≤ 9223372036854775807 then pure (.integer value)
  else failure

def basedInteger (mark : String) (base : Nat) : Reader Value := do
  word mark
  let digits ← digitGroups fun char => (Text.hexDigit? char).any (· < base)
  bounded ((Text.valueIn? base digits).getD 0)

def decimalInteger : Reader Value := do
  let negative ← sign
  let value := Text.decimalValue (← wholeDigits)
  bounded (if negative then -value else value)

def integer : Reader Value :=
  basedInteger "0x" 16 <|> basedInteger "0o" 8 <|> basedInteger "0b" 2 <|> decimalInteger

/-- Whether `digits · 10 ^ power` rounds to no finite number of 64 bits. -/
def overflows (digits : List Char) (power : Int) : Bool :=
  let value := Text.decimalValue digits
  let magnitude := (Nat.toDigits 10 value).length + power
  let limit := Nat.pow 2 1024 - Nat.pow 2 970
  if value = 0 || magnitude < 300 then false
  else if 320 < magnitude then true
  else if 0 ≤ power then limit ≤ value * Nat.pow 10 power.toNat
  else limit * Nat.pow 10 (-power).toNat ≤ value

def exponent : Reader Int := do
  let _ ← satisfy fun char => char = 'e' || char = 'E'
  let negative ← sign
  let value := Text.decimalValue (← digitGroups Char.isDigit)
  return if negative then -value else value

/-- A float with a fraction or an exponent; positive ones must be finite. -/
def decimalFloat : Reader Value := do
  let negative ← sign
  let whole ← wholeDigits
  let fraction ← optional (do char '.'; digitGroups Char.isDigit)
  let power ← optional exponent
  if fraction.isNone && power.isNone then failure
  let places := fraction.getD []
  if !negative && overflows (whole ++ places) (power.getD 0 - places.length) then failure
  return .float

def specialFloat : Reader Value := do
  let _ ← sign
  word "inf" <|> word "nan"
  return .float

def number (count low high : Nat) : Reader Nat := do
  let value := Text.decimalValue (← exactly count Char.isDigit)
  if low ≤ value && value ≤ high then pure value else failure

def isLeapYear (year : Nat) : Bool := year % 4 = 0 && (year % 100 ≠ 0 || year % 400 = 0)

def daysIn (year month : Nat) : Nat :=
  if month = 2 then (if isLeapYear year then 29 else 28)
  else if month ∈ [4, 6, 9, 11] then 30
  else 31

def date : Reader Unit := do
  let year ← number 4 0 9999
  char '-'
  let month ← number 2 1 12
  char '-'
  let _ ← number 2 1 (daysIn year month)

def timeOfDay : Reader Unit := do
  let _ ← number 2 0 23
  char ':'
  let _ ← number 2 0 59
  char ':'
  let _ ← number 2 0 60
  let _ ← optional (do char '.'; takeWhile1 Char.isDigit)

def offset : Reader Unit :=
  (do let _ ← satisfy fun char => char = 'Z' || char = 'z') <|> do
    let _ ← satisfy fun char => char = '+' || char = '-'
    let _ ← number 2 0 23
    char ':'
    let _ ← number 2 0 59

def time : Reader Value :=
  (do
    date
    let _ ← optional (do
      let _ ← satisfy fun char => char = 'T' || char = 't' || char = ' '
      timeOfDay
      optional offset)
    return .time) <|> do
    timeOfDay
    return .time

def boolean : Reader Value :=
  (do word "true"; return .boolean true) <|> do
    word "false"
    return .boolean false

def simpleValue : Reader Value :=
  (do return .string (← anyString)) <|> boolean <|> time <|> decimalFloat <|> specialFloat <|>
    integer

def array (item : Reader Value) : Reader Value := do
  char '['
  spacing
  let items ← (do
    let first ← item
    spacing
    let rest ← many (do
      char ','
      spacing
      let next ← item
      spacing
      return next)
    let _ ← optional (char ',')
    spacing
    return first :: rest) <|> pure []
  char ']'
  return .array items

def pair (item : Reader Value) : Reader (List String × String × Value) := do
  let (path, last) ← key
  char '='
  blanks
  let value ← item
  blanks
  return (path, last, value)

def inlineTable (item : Reader Value) : Reader Value := do
  char '\x7b'
  blanks
  let pairs ← (do
    let first ← pair item
    let rest ← many (do char ','; pair item)
    return first :: rest) <|> pure []
  char '\x7d'
  let filled := pairs.foldlM
    (fun (table : Table) (path, last, value) => table.defineAt path last value)
    ⟨.closed, []⟩
  match filled with
  | some table => return table.value
  | none => failure

/-- A value whose brackets nest at most `depth` deep. -/
def value : (depth : Nat) → Reader Value
  | 0 => simpleValue
  | depth + 1 => simpleValue <|> array (value depth) <|> inlineTable (value depth)

def definition : Reader Statement := do
  let (path, last, value) ← pair (value (depthLimit - 1))
  return .define path last value

def tableHeader : Reader Statement := do
  char '['
  let (path, last) ← key
  char ']'
  return .openTable path last

def itemHeader : Reader Statement := do
  word "[["
  let (path, last) ← key
  word "]]"
  return .openItem path last

/-- A line of a document, which may hold no statement. -/
def line : Reader (Option Statement) := do
  blanks
  let statement ← optional (itemHeader <|> tableHeader <|> definition)
  lineEnd
  return statement

/-- The statements of a text, which a byte order mark may precede. -/
def statements? (text : String) : Option (List Statement) :=
  let chars := match text.toList with
    | '\ufeff' :: rest => rest
    | all => all
  match manyFrom line chars with
  | (lines, []) => some (lines.filterMap id)
  | _ => none

def ofText? (text : String) : Option Fields :=
  (statements? text).bind Document.ofStatements?

end UnitCache.Toml
