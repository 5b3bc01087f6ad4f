import UnitCache.Text.Printable

/-! Texts as they are shown: between double quotes, with escapes for all that would not show, and on a
terminal, which is not to obey them. -/

namespace UnitCache.Text

def codePoint (char : Char) : List Char :=
  ['\\', 'u', '\x7b'] ++ Nat.toDigits 16 char.toNat ++ ['\x7d']

def escapeChar (char : Char) : List Char :=
  match char with
  | '\x00' => ['\\', '0']
  | '\t' => ['\\', 't']
  | '\r' => ['\\', 'r']
  | '\n' => ['\\', 'n']
  | '"' => ['\\', '"']
  | '\\' => ['\\', '\\']
  | _ => if isShown char then [char] else codePoint char

def quoted (text : String) : String :=
  String.ofList ('"' :: text.toList.flatMap escapeChar ++ ['"'])

def quotedList (texts : List String) : String :=
  "[" ++ ", ".intercalate (texts.map quoted) ++ "]"

/-- A character as it is written to a terminal. Bell, backspace, form feed, escape, delete and the
controls above them can start or be a command and are spelled; the other controls, line ends and
tabs among them, stay. -/
def terminalChar (char : Char) : List Char :=
  match char with
  | '\x07' => ['\\', 'x', '0', '7']
  | '\x08' => ['\\', 'x', '0', '8']
  | '\x0c' => ['\\', 'x', '0', 'c']
  | '\x1b' => ['\\', 'x', '1', 'b']
  | '\x7f' => ['\\', 'x', '7', 'f']
  | _ => if 0x80 ≤ char.toNat && char.toNat ≤ 0x9f then codePoint char else [char]

def forTerminal (text : String) : String :=
  String.ofList (text.toList.flatMap terminalChar)

end UnitCache.Text
