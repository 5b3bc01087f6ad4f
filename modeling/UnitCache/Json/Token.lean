import UnitCache.Text.Lines

/-! The tokens of a JSON text. -/

namespace UnitCache.Json

/-- A string token holds no text when one of its escapes is half of a surrogate pair. -/
inductive Token where
  | openArray
  | closeArray
  | openObject
  | closeObject
  | comma
  | colon
  | null
  | bool (value : Bool)
  | number (text : String)
  | string (text : Option String)
deriving DecidableEq

def isSpace (char : Char) : Bool :=
  char = ' ' || char = '\n' || char = '\t' || char = '\r'

/-- A part of a string: a character, or the UTF-16 unit that a `\u` escape names. -/
inductive Part where
  | char (char : Char)
  | unit (value : Nat)
deriving DecidableEq

def escaped? : Char → Option Char
  | '"' => some '"'
  | '\\' => some '\\'
  | '/' => some '/'
  | 'b' => some '\x08'
  | 'f' => some '\x0c'
  | 'n' => some '\n'
  | 'r' => some '\r'
  | 't' => some '\t'
  | _ => none

/-- The parts of a string up to its closing quote, and what follows the quote. -/
def readParts : List Char → Option (List Part × List Char)
  | [] => none
  | '"' :: rest => some ([], rest)
  | '\\' :: 'u' :: a :: b :: c :: d :: rest =>
    match Text.hex? [a, b, c, d], readParts rest with
    | some value, some (parts, after) => some (.unit value :: parts, after)
    | _, _ => none
  | '\\' :: letter :: rest =>
    match escaped? letter, readParts rest with
    | some char, some (parts, after) => some (.char char :: parts, after)
    | _, _ => none
  | char :: rest =>
    if char.toNat < 0x20 || char = '\\' then none
    else (readParts rest).map fun (parts, after) => (.char char :: parts, after)

/-- The text of a string's parts; `none` if half of a surrogate pair stands alone. -/
def joinParts : List Part → Option (List Char)
  | [] => some []
  | .char char :: rest => (joinParts rest).map (char :: ·)
  | .unit high :: rest =>
    if 0xd800 ≤ high && high < 0xdc00 then
      match rest with
      | .unit low :: rest =>
        if 0xdc00 ≤ low && low < 0xe000 then
          let code := 0x10000 + (high - 0xd800) * 0x400 + (low - 0xdc00)
          (joinParts rest).map (Char.ofNat code :: ·)
        else none
      | _ => none
    else if 0xdc00 ≤ high && high < 0xe000 then none
    else (joinParts rest).map (Char.ofNat high :: ·)

theorem length_readParts {chars after : List Char} {parts : List Part}
    (read : readParts chars = some (parts, after)) : after.length < chars.length := by
  fun_induction readParts chars generalizing parts after with
  | case1 => cases read
  | case2 rest => cases read; simp
  | case3 a b c d rest value parts' after' readRest found ih =>
    cases read
    have := ih readRest
    simp only [List.length_cons]
    omega
  | case4 => cases read
  | case5 letter rest _ char parts' after' readRest found ih =>
    cases read
    have := ih readRest
    simp only [List.length_cons]
    omega
  | case6 => cases read
  | case7 => cases read
  | case8 char rest _ _ _ _ ih =>
    obtain ⟨⟨parts', after'⟩, readRest, same⟩ := Option.map_eq_some_iff.mp read
    cases same
    have := ih readRest
    simp only [List.length_cons]
    omega

def isNumberChar (char : Char) : Bool :=
  char.isDigit || char = '-' || char = '+' || char = '.' || char = 'e' || char = 'E'

/-- What follows an exponent, if one stands first; `none` if it has no digits. -/
private def afterExponent : List Char → Option (List Char)
  | 'e' :: rest | 'E' :: rest =>
    let digits := match rest with
      | '+' :: digits | '-' :: digits => digits
      | digits => digits
    if digits.head?.any Char.isDigit then some (digits.dropWhile Char.isDigit) else none
  | rest => some rest

/-- What follows a fraction, if one stands first; `none` if it has no digits. -/
private def afterFraction : List Char → Option (List Char)
  | '.' :: digits =>
    if digits.head?.any Char.isDigit then some (digits.dropWhile Char.isDigit) else none
  | rest => some rest

/-- What follows the whole part of a number; `none` if there is none. -/
private def afterWhole : List Char → Option (List Char)
  | '0' :: rest => some rest
  | rest => if rest.head?.any Char.isDigit then some (rest.dropWhile Char.isDigit) else none

/-- Whether a text is a number: a whole part without leading zeros, then perhaps a fraction and an
exponent. -/
def isNumber (chars : List Char) : Bool :=
  let body := match chars with
    | '-' :: rest => rest
    | all => all
  (afterWhole body).bind afterFraction |>.bind afterExponent |>.any List.isEmpty

def punctuation? : Char → Option Token
  | '[' => some .openArray
  | ']' => some .closeArray
  | '\x7b' => some .openObject
  | '\x7d' => some .closeObject
  | ',' => some .comma
  | ':' => some .colon
  | _ => none

def word? (chars : List Char) : Option Token :=
  if chars = "null".toList then some .null
  else if chars = "true".toList then some (.bool true)
  else if chars = "false".toList then some (.bool false)
  else if isNumber chars then some (.number (String.ofList chars))
  else none

def isWordChar (char : Char) : Bool := char.isAlpha || isNumberChar char

def tokens (chars : List Char) : Option (List Token) :=
  match chars with
  | [] => some []
  | char :: rest =>
    if isSpace char then tokens rest
    else if char = '"' then
      match _read : readParts rest with
      | none => none
      | some (parts, after) =>
        (tokens after).map (.string ((joinParts parts).map String.ofList) :: ·)
    else
      match punctuation? char with
      | some token => (tokens rest).map (token :: ·)
      | none =>
        match word? (char :: rest.takeWhile isWordChar) with
        | none => none
        | some token => (tokens (rest.dropWhile isWordChar)).map (token :: ·)
termination_by chars.length
decreasing_by
  · simp
  · have := length_readParts ‹_›
    simp only [List.length_cons]
    omega
  · simp
  · have := (List.dropWhile_suffix (l := rest) isWordChar).length_le
    simp only [List.length_cons]
    omega

end UnitCache.Json
