import UnitCache.Text.Lines

/-! Include directives in source text.

Each line is looked at on its own, less what stands inside a block comment. Both
branches of a condition count. -/

namespace UnitCache

/-- A quoted name is looked for beside the including file first. -/
inductive IncludeStyle where
  | quoted
  | angled
deriving DecidableEq, Inhabited

namespace IncludeStyle

def text : IncludeStyle → String
  | .quoted => "quoted"
  | .angled => "angled"

def closing : IncludeStyle → Char
  | .quoted => '"'
  | .angled => '>'

def ofOpening? : Char → Option IncludeStyle
  | '"' => some .quoted
  | '<' => some .angled
  | _ => none

end IncludeStyle

structure Inclusion where
  name : String
  style : IncludeStyle
deriving DecidableEq, Inhabited

/-- An include directive and its line, counted from one. -/
structure Directive extends Inclusion where
  line : Nat
deriving DecidableEq, Inhabited

namespace Directive

/-- The words that pull in another file; the first that fits counts. -/
def keywords : List String := ["include_next", "include", "import"]

def afterKeyword? (chars : List Char) : Option (List Char) :=
  keywords.findSome? fun keyword => keyword.toList.isPrefixOf? chars

/-- The nonempty name between an opening delimiter and the next closing one. -/
def delimited? : List Char → Option Inclusion
  | [] => none
  | opening :: rest =>
    match IncludeStyle.ofOpening? opening with
    | none => none
    | some style =>
      let name := rest.takeWhile (· ≠ style.closing)
      if name.isEmpty || name.length = rest.length then none
      else some ⟨String.ofList name, style⟩

/-- The inclusion that a line of code asks for, if it is an include directive. -/
def ofLine? (line : List Char) : Option Inclusion :=
  match Text.trimStart line with
  | '#' :: rest =>
    (afterKeyword? (Text.trimStart rest)).bind fun rest => delimited? (Text.trimStart rest)
  | _ => none

def afterComment? : List Char → Option (List Char)
  | '*' :: '/' :: rest => some rest
  | _ :: rest => afterComment? rest
  | [] => none

/-- Whether code ends inside a block comment. A line comment ends the line. -/
def endsInComment : (inside : Bool) → List Char → Bool
  | inside, [] => inside
  | false, '/' :: '*' :: rest => endsInComment true rest
  | false, '/' :: '/' :: _ => false
  | true, '*' :: '/' :: rest => endsInComment false rest
  | inside, _ :: rest => endsInComment inside rest

/-- The directives of lines, of which the first starts inside a block comment or not. -/
def ofLines (inside : Bool) (number : Nat) : List (List Char) → List Directive
  | [] => []
  | line :: rest =>
    match if inside then afterComment? line else some line with
    | none => ofLines true (number + 1) rest
    | some code =>
      let below := ofLines (endsInComment false code) (number + 1) rest
      match ofLine? code with
      | none => below
      | some inclusion => ⟨inclusion, number⟩ :: below

def ofText (text : String) : List Directive :=
  ofLines false 1 (Text.lines text.toList)

end Directive

end UnitCache
