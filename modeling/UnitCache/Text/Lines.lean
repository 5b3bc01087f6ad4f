/-! Texts as they are read: their lines, the white space around them, and the numbers written in them
with digits. -/

namespace UnitCache.Text

/-- A line without the carriage return that ended it before its line feed. -/
def dropReturn (line : List Char) : List Char :=
  if line.getLast? = some '\r' then line.dropLast else line

/-- The lines of a text without their ends. A line ends with a line feed, which a carriage return
may precede; the last line needs no end, and then a carriage return belongs to it. -/
def lines (text : List Char) : List (List Char) :=
  match (text.splitOn '\n').reverse with
  | [] => []
  | last :: ended => ended.reverse.map dropReturn ++ (if last.isEmpty then [] else [last])

/-- Unicode's `White_Space` property. -/
def blankRanges : List (Nat × Nat) :=
  [(0x9, 0xd), (0x20, 0x20), (0x85, 0x85), (0xa0, 0xa0), (0x1680, 0x1680), (0x2000, 0x200a),
    (0x2028, 0x2029), (0x202f, 0x202f), (0x205f, 0x205f), (0x3000, 0x3000)]

def isBlank (char : Char) : Bool :=
  blankRanges.any fun (first, last) => first ≤ char.toNat && char.toNat ≤ last

def trimStart (chars : List Char) : List Char :=
  chars.dropWhile isBlank

def trimEnd (chars : List Char) : List Char :=
  (chars.reverse.dropWhile isBlank).reverse

def trim (chars : List Char) : List Char :=
  trimEnd (trimStart chars)

def decimalValue (chars : List Char) : Nat :=
  chars.foldl (fun value digit => 10 * value + (digit.toNat - '0'.toNat)) 0

def digits? (chars : List Char) : Option Nat :=
  if chars.isEmpty || !chars.all Char.isDigit then none else some (decimalValue chars)

/-- A number of at most `bound`, written with digits and perhaps a plus sign before them. -/
def unsigned? (bound : Nat) (chars : List Char) : Option Nat :=
  let body := match chars with
    | '+' :: rest => rest
    | all => all
  (digits? body).filter (· ≤ bound)

def hexDigit? (char : Char) : Option Nat :=
  if char.isDigit then some (char.toNat - '0'.toNat)
  else if 'a' ≤ char && char ≤ 'f' then some (char.toNat - 'a'.toNat + 10)
  else if 'A' ≤ char && char ≤ 'F' then some (char.toNat - 'A'.toNat + 10)
  else none

/-- The value of digits below `base`, which is at most sixteen. -/
def valueIn? (base : Nat) (chars : List Char) : Option Nat :=
  chars.foldlM (fun value char => (hexDigit? char).filter (· < base) |>.map (base * value + ·)) 0

def hex? (chars : List Char) : Option Nat := valueIn? 16 chars

end UnitCache.Text
