import UnitCache.CommandDatabase.Arguments
import UnitCache.Disk.Basic
import UnitCache.FileRole
import UnitCache.Json.Basic
import UnitCache.ShellWords

/-! Databases of compile commands: how each file of a build is compiled.

A database is an ordered list of files, each with the arguments a parser needs. It is
read from a JSON array of entries, the first of which wins for a file. -/

namespace UnitCache

structure CompileCommand where
  directory : Path
  file : Path
  arguments : Option (List String)
  command : Option String
deriving DecidableEq

inductive CommandDatabaseError where
  | unreadable (path : Path) (cause : String)
  | malformed (reason : String)
  | missingCommand (file : Path)
  | unbalancedCommand (file : Path)
deriving DecidableEq

namespace CommandDatabaseError

def message : CommandDatabaseError → String
  | .unreadable path cause => "failed to read compile commands at " ++ path.text ++ ": " ++ cause
  | .malformed reason => "failed to parse compile commands: " ++ reason
  | .missingCommand file =>
    "compile command for " ++ file.text ++ " has neither `arguments` nor `command`"
  | .unbalancedCommand file => "unbalanced quoting in compile command for " ++ file.text

end CommandDatabaseError

namespace CompileCommand

/-- The value of a field that may be given once; the outer `none` if it is given twice. -/
private def field? (fields : List (String × Json)) (key : String) : Option (Option Json) :=
  match fields.filter fun field => field.1 = key with
  | [] => some none
  | [(_, value)] => some (some value)
  | _ => none

private def optionalStrings? : Option Json → Option (Option (List String))
  | none => some none
  | some .null => some none
  | some value => value.strings?.map some

private def optionalString? : Option Json → Option (Option String)
  | none => some none
  | some .null => some none
  | some value => value.string?.map some

private def ofParts? (directory file arguments command : Option Json) : Option CompileCommand := do
  return {
    directory := ⟨← (← directory).string?⟩
    file := ⟨← (← file).string?⟩
    arguments := ← optionalStrings? arguments
    command := ← optionalString? command }

/-- An entry is an object, of which other fields are ignored, or an array of its fields in order.
The command and the arguments may be left out. -/
def ofJson? : Json → Option CompileCommand
  | .object fields => do
    let named ← fields.mapM fun (key, value) => key.map (·, value)
    ofParts? (← field? named "directory") (← field? named "file") (← field? named "arguments")
      (← field? named "command")
  | .array items =>
    if items.length ≤ 4 then ofParts? items[0]? items[1]? items[2]? items[3]? else none
  | _ => none

def key (entry : CompileCommand) : Path :=
  (entry.directory.join entry.file).normalize

/-- The words of the command line. The list of arguments counts where both forms are given. -/
def words (entry : CompileCommand) : Except CommandDatabaseError (List String) :=
  match entry.arguments, entry.command with
  | some arguments, _ => .ok arguments
  | none, some command =>
    match ShellWords.split command with
    | some words => .ok words
    | none => .error (.unbalancedCommand entry.key)
  | none, none => .error (.missingCommand entry.key)

end CompileCommand

structure CommandDatabase where
  /-- The file it was loaded from, if any. -/
  origin : Option Path
  entries : List (Path × List String)
  /-- The arguments of files that are not listed. -/
  defaultArguments : List String
deriving DecidableEq

namespace CommandDatabase

instance : Inhabited CommandDatabase := ⟨⟨none, [], []⟩⟩

def lookup? (entries : List (Path × List String)) (file : Path) : Option (List String) :=
  (entries.find? fun entry => entry.1 = file).map Prod.snd

/-- The database entries for a list of commands. Each command must be readable, also one for a file
that is already listed. -/
def addCommands (entries : List (Path × List String)) :
    List CompileCommand → Except CommandDatabaseError (List (Path × List String))
  | [] => .ok entries
  | command :: rest =>
    match command.words with
    | .error error => .error error
    | .ok words =>
      if (lookup? entries command.key).isSome then addCommands entries rest
      else addCommands (entries ++
        [(command.key, parserArguments words command.directory command.key)]) rest

def ofCommands (commands : List CompileCommand) : Except CommandDatabaseError CommandDatabase :=
  (addCommands [] commands).map fun entries => ⟨none, entries, []⟩

def commandsOfText? (text : String) : Option (List CompileCommand) :=
  match Json.ofText? text with
  | some (.array items) => items.mapM CompileCommand.ofJson?
  | _ => none

def ofText (text : String) : Except CommandDatabaseError CommandDatabase :=
  match commandsOfText? text with
  | none => .error (.malformed "no array of compile commands")
  | some commands => ofCommands commands

/-- Loads the database from a file, which it remembers. -/
def ofFile (disk : Disk) (path : Path) : Except CommandDatabaseError CommandDatabase :=
  match disk.readText path with
  | .error error => .error (.unreadable path error.message)
  | .ok text => (ofText text).map fun commands => { commands with origin := some path }

def withDefaultArguments (commands : CommandDatabase) (arguments : List String) : CommandDatabase :=
  { commands with defaultArguments := arguments }

/-- Reads the entries again from the file they came from. A database without a file stays as it is,
as does one whose file can no longer be read. -/
def reread (commands : CommandDatabase) (disk : Disk) :
    CommandDatabase × Option CommandDatabaseError :=
  match commands.origin with
  | none => (commands, none)
  | some path =>
    match ofFile disk path with
    | .error error => (commands, some error)
    | .ok fresh => ({ commands with entries := fresh.entries }, none)

def size (commands : CommandDatabase) : Nat := commands.entries.length

def get? (commands : CommandDatabase) (path : Path) : Option (List String) :=
  lookup? commands.entries path.normalize

def compileArguments (commands : CommandDatabase) (path : Path) : List String :=
  (commands.get? path).getD commands.defaultArguments

/-- The listed files that can be parsed on their own, in order. -/
def listedSources (commands : CommandDatabase) : List Path :=
  (commands.entries.map Prod.fst).filter fun path => (FileRole.ofPath path).isSource

end CommandDatabase

end UnitCache
