import UnitCache.IncludeFlag
import UnitCache.Path.Basic

/-! What a parser needs of a compiler's command line: neither the compiler and the input file nor
what only concerns output, and every include directory independent of where the compiler ran. -/

namespace UnitCache.CommandDatabase

/-- A directory as seen from the one the compiler ran in. -/
def absoluteDirectory (directory : Path) (text : String) : String :=
  (directory.join ⟨text⟩).normalize.text

def spellsInput (directory file : Path) (argument : String) : Bool :=
  argument.toList.head? ≠ some '-' && decide ((directory.join ⟨argument⟩).normalize.Same file)

/-- The arguments worth keeping of those that follow the compiler. -/
def keptArguments (directory file : Path) : List String → List String
  | [] => []
  | argument :: rest =>
    if argument = "-c" then keptArguments directory file rest
    else if argument = "-o" then
      match rest with
      | [] => []
      | _ :: rest => keptArguments directory file rest
    else if "-o".toList.isPrefixOf argument.toList then keptArguments directory file rest
    else
      match IncludeFlag.split? argument with
      | some (flag, text) =>
        if text = "" then
          match rest with
          | [] => [argument]
          | operand :: rest =>
            argument :: absoluteDirectory directory operand :: keptArguments directory file rest
        else
          (flag.spelling ++ absoluteDirectory directory text) :: keptArguments directory file rest
      | none =>
        if spellsInput directory file argument then keptArguments directory file rest
        else argument :: keptArguments directory file rest

/-- The arguments worth keeping of a command line, whose first word is the compiler. -/
def parserArguments (words : List String) (directory file : Path) : List String :=
  keptArguments directory file words.tail

end UnitCache.CommandDatabase
