/-! Command lines as a shell reads and writes them: words between blanks, with quotes. -/

namespace UnitCache.ShellWords

def isSeparator (char : Char) : Bool :=
  char = ' ' || char = '\t' || char = '\n'

/-- Whether a backslash takes the special meaning from a character between double quotes. -/
def isEscapedInDouble (char : Char) : Bool :=
  char = '$' || char = '\x60' || char = '"' || char = '\\'

/-- Where in a command line the reader is. Each word is held last character first. -/
inductive Place where
  | between
  | comment
  | word (read : List Char)
  | single (read : List Char)
  | double (read : List Char)

/-- What has been read of the word that starts or goes on here. -/
def Place.read : Place → List Char
  | .word read | .single read | .double read => read
  | _ => []

/-- The words from a place on. A quote or backslash that is left open makes the line unreadable. -/
def splitFrom : Place → List Char → Option (List String)
  | .between, [] => some []
  | .comment, [] => some []
  | .word read, [] => some [String.ofList read.reverse]
  | .single _, [] => none
  | .double _, [] => none
  | .comment, char :: rest => splitFrom (if char = '\n' then .between else .comment) rest
  | .single read, char :: rest =>
    splitFrom (if char = '\'' then .word read else .single (char :: read)) rest
  | .double read, '\\' :: char :: rest =>
    if char = '\n' then splitFrom (.double read) rest
    else if isEscapedInDouble char then splitFrom (.double (char :: read)) rest
    else splitFrom (.double (char :: '\\' :: read)) rest
  | .double read, char :: rest =>
    if char = '\\' then none
    else splitFrom (if char = '"' then .word read else .double (char :: read)) rest
  | place, '\\' :: char :: rest =>
    splitFrom (.word (if char = '\n' then place.read else char :: place.read)) rest
  | place, char :: rest =>
    if char = '\\' then none
    else if char = '"' then splitFrom (.double place.read) rest
    else if char = '\'' then splitFrom (.single place.read) rest
    else
      match place with
      | .word read =>
        if isSeparator char then (splitFrom .between rest).map (String.ofList read.reverse :: ·)
        else splitFrom (.word (char :: read)) rest
      | _ =>
        if isSeparator char then splitFrom .between rest
        else if char = '#' then splitFrom .comment rest
        else splitFrom (.word [char]) rest

/-- The words of a command line; `none` if its quoting is unbalanced. -/
def split (line : String) : Option (List String) :=
  splitFrom .between line.toList

/-- The ways in which a run of characters can be written. -/
structure Styles where
  plain : Bool
  single : Bool
  double : Bool
deriving DecidableEq

namespace Styles

def both (left right : Styles) : Styles :=
  ⟨left.plain && right.plain, left.single && right.single, left.double && right.double⟩

def isEmpty (styles : Styles) : Bool := !(styles.plain || styles.single || styles.double)

/-- How a character can be written inside a run. Shells disagree about `^` and `!`, and some give a
backslash between single quotes a meaning, so those are written in the one way that all read
alike. -/
def ofChar (char : Char) : Styles where
  plain := char.isAlphanum || char ∈ ['+', '-', '.', '/', ':', '@', ']', '_']
  single := char ≠ '\'' && char ≠ '^' && char ≠ '\\'
  double := char ≠ '\x60' && char ≠ '$' && char ≠ '!' && char ≠ '^'

def ofFirst (char : Char) : Styles :=
  if char = '^' then ⟨false, true, false⟩ else ofChar char

end Styles

def writeRun (styles : Styles) (run : List Char) : List Char :=
  if styles.plain then run
  else if styles.single then '\'' :: run ++ ['\'']
  else
    let escape := fun char => if isEscapedInDouble char then ['\\', char] else [char]
    '"' :: run.flatMap escape ++ ['"']

/-- Writes characters in runs that are each as long as one style allows. The current run is held
last character first. -/
def writeRuns (styles : Styles) (run : List Char) : List Char → List Char
  | [] => writeRun styles run.reverse
  | char :: rest =>
    let wider := styles.both (Styles.ofChar char)
    if wider.isEmpty then
      writeRun styles run.reverse ++ writeRuns (Styles.ofFirst char) [char] rest
    else writeRuns wider (char :: run) rest

/-- A word as one word of a command line; no shell can hold a NUL. -/
def quote? (word : String) : Option String :=
  if '\x00' ∈ word.toList then none
  else
    match word.toList with
    | [] => some "''"
    | first :: rest => some (String.ofList (writeRuns (Styles.ofFirst first) [first] rest))

def join? (words : List String) : Option String :=
  (words.mapM quote?).map (" ".intercalate ·)

def nulMessage : String := "cannot shell-quote string containing nul byte"

end UnitCache.ShellWords
