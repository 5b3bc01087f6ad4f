/-! The command line of the program: global flags, a command, and the command's own arguments.

Global flags may stand before or after the command, and count there where they are given
last. Arguments are read from left to right, and the first that is wrong, or asks for the
version or for help, decides. -/

namespace UnitCache.CommandLine

inductive Format where
  | text
  | json
deriving DecidableEq, Inhabited

def Format.ofName? : String → Option Format
  | "text" => some .text
  | "json" => some .json
  | _ => none

structure GlobalFlags where
  quiet : Bool
  /-- How often more detail was asked for. -/
  verbose : Nat
  config : Option String
  compileCommands : Option String
deriving DecidableEq, Inhabited

inductive Command where
  | lookup (paths : List String) (format : Format)
  | sources (format : Format)
deriving DecidableEq

structure Invocation where
  flags : GlobalFlags
  command : Command
deriving DecidableEq

inductive Stop where
  | usage
  | version
  | help
deriving DecidableEq

/-- The parts of a command line that have arguments of their own. -/
inductive Level where
  | program
  | lookup
  | sources
deriving DecidableEq

def Level.ofName? : String → Option Level
  | "lookup" => some .lookup
  | "sources" => some .sources
  | _ => none

inductive Valued where
  | config
  | compileCommands
  | format
deriving DecidableEq

structure Given where
  quiet : Bool
  verbose : Nat
  config : Option String
  compileCommands : Option String
  format : Option Format
  paths : List String
deriving DecidableEq

namespace Given

def nothing : Given := ⟨false, 0, none, none, none, []⟩

instance : Inhabited Given := ⟨nothing⟩

/-- Gives an option a value, once. -/
def setValue (given : Given) (option : Valued) (value : String) : Except Stop Given :=
  match option with
  | .config =>
    if given.config.isSome then .error .usage else .ok { given with config := some value }
  | .compileCommands =>
    if given.compileCommands.isSome then .error .usage
    else .ok { given with compileCommands := some value }
  | .format =>
    match given.format, Format.ofName? value with
    | none, some format => .ok { given with format := some format }
    | _, _ => .error .usage

def setQuiet (given : Given) : Except Stop Given :=
  if given.quiet then .error .usage else .ok { given with quiet := true }

def addPath (given : Given) (level : Level) (path : String) : Except Stop Given :=
  if level = .lookup ∧ path ≠ "" then .ok { given with paths := given.paths ++ [path] }
  else .error .usage

/-- The global flags of a command, where those given before it hold unless they are given again. -/
def flags (given before : Given) : GlobalFlags where
  quiet := given.quiet || before.quiet
  verbose := if given.verbose = 0 then before.verbose else given.verbose
  config := given.config <|> before.config
  compileCommands := given.compileCommands <|> before.compileCommands

end Given

def Valued.ofLongName? (level : Level) : String → Option Valued
  | "config" => some .config
  | "compile-commands" => some .compileCommands
  | "format" => if level = .program then none else some .format
  | _ => none

/-- A flag by its long name, with the value that an equals sign attached to it. The second answer is
an option that still waits for its value. -/
def longFlag (level : Level) (given : Given) (name : String) (value : Option String) :
    Except Stop (Given × Option Valued) :=
  match Valued.ofLongName? level name, value with
  | some option, some value => (given.setValue option value).map (·, none)
  | some option, none => .ok (given, some option)
  | none, some _ => .error .usage
  | none, none =>
    if name = "quiet" then given.setQuiet.map (·, none)
    else if name = "verbose" then .ok ({ given with verbose := given.verbose + 1 }, none)
    else if name = "help" then .error .help
    else if name = "version" ∧ level = .program then .error .version
    else .error .usage

/-- A run of short flags. An option takes the rest of the run as its value, with or without an
equals sign, or waits for the next argument. -/
def shortFlags (level : Level) (given : Given) : List Char → Except Stop (Given × Option Valued)
  | [] => .ok (given, none)
  | 'q' :: rest =>
    match given.setQuiet with
    | .ok given => shortFlags level given rest
    | .error stop => .error stop
  | 'v' :: rest => shortFlags level { given with verbose := given.verbose + 1 } rest
  | 'h' :: _ => .error .help
  | 'V' :: _ => .error (if level = .program then .version else .usage)
  | 'f' :: rest =>
    if level = .program then .error .usage
    else
      match rest with
      | [] => .ok (given, some .format)
      | '=' :: value => (given.setValue .format (String.ofList value)).map (·, none)
      | value => (given.setValue .format (String.ofList value)).map (·, none)
  | _ => .error .usage

def flag (level : Level) (given : Given) : List Char → Except Stop (Given × Option Valued)
  | '-' :: '-' :: body =>
    let name := String.ofList (body.takeWhile (· ≠ '='))
    match body.dropWhile (· ≠ '=') with
    | [] => longFlag level given name none
    | _ :: value => longFlag level given name (some (String.ofList value))
  | '-' :: body => shortFlags level given body
  | _ => .error .usage

/-- A single `-` is a value like any other. -/
def isFlag (argument : String) : Bool :=
  argument.toList.head? = some '-' && argument ≠ "-"

/-- What one level is given by arguments up to the end, or up to the name of a command and what
follows it. -/
def readLevel (level : Level) (given : Given) (waiting : Option Valued) :
    List String → Except Stop (Given × Option (String × List String))
  | [] => if waiting.isSome then .error .usage else .ok (given, none)
  | argument :: rest =>
    if isFlag argument then
      if waiting.isSome then .error .usage
      else if argument = "--" then
        (rest.foldlM (fun (given : Given) path => given.addPath level path) given).map (·, none)
      else
        match flag level given argument.toList with
        | .error stop => .error stop
        | .ok (given, waiting) => readLevel level given waiting rest
    else
      match waiting with
      | some option =>
        match given.setValue option argument with
        | .error stop => .error stop
        | .ok given => readLevel level given none rest
      | none =>
        if level = .program then .ok (given, some (argument, rest))
        else
          match given.addPath level argument with
          | .error stop => .error stop
          | .ok given => readLevel level given none rest

def Level.command (level : Level) (given : Given) : Except Stop Command :=
  match level with
  | .program => .error .usage
  | .lookup =>
    if given.paths.isEmpty then .error .usage
    else .ok (.lookup given.paths (given.format.getD .text))
  | .sources => .ok (.sources (given.format.getD .text))

/-- Whether `help` may be followed by these arguments: by one name at most, of a command or its
own, because neither has commands below it. -/
def helpTopics : List String → Bool
  | [] => true
  | [topic] => (Level.ofName? topic).isSome || topic = "help"
  | _ => false

/-- The invocation that a list of arguments spells, the program's name not among them. -/
def Invocation.ofArguments (arguments : List String) : Except Stop Invocation := do
  match ← readLevel .program .nothing none arguments with
  | (_, none) => throw .usage
  | (before, some (name, rest)) =>
    match Level.ofName? name with
    | some level =>
      let (given, _) ← readLevel level .nothing none rest
      return ⟨given.flags before, ← level.command given⟩
    | none =>
      if name = "help" ∧ helpTopics rest then throw .help
      else throw .usage

end UnitCache.CommandLine
