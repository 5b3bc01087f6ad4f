import UnitCache.Disk.Basic
import UnitCache.Flags
import UnitCache.Path.Components
import UnitCache.Text.Lines
import UnitCache.Toml.Reader
import UnitCache.Verbosity

/-! The configuration of an index, read from the nearest `tuindex.toml`. -/

namespace UnitCache

structure IndexSettings where
  verbosity : Verbosity
  backgroundIndexing : Bool
  backgroundEditing : Bool
deriving DecidableEq

namespace IndexSettings

def default : IndexSettings := ⟨.quiet, false, false⟩

instance : Inhabited IndexSettings := ⟨default⟩

def flags (settings : IndexSettings) : IndexFlags :=
  (if settings.backgroundIndexing then .backgroundIndexing else .none) |||
    (if settings.backgroundEditing then .backgroundEditing else .none)

end IndexSettings

structure DatabaseSettings where
  /-- The compile commands, seen from the directory of the configuration. -/
  compileCommands : String
  /-- The arguments of source files that are not listed. -/
  defaultArguments : List String
deriving DecidableEq

namespace DatabaseSettings

def defaultCommands : String := "compile_commands.json"

def default : DatabaseSettings := ⟨defaultCommands, []⟩

instance : Inhabited DatabaseSettings := ⟨default⟩

end DatabaseSettings

structure Config where
  index : IndexSettings
  database : DatabaseSettings
deriving DecidableEq

inductive ConfigError where
  | unreadable (cause : String)
  | malformed (reason : String)
  | invalid (reason : String)
deriving DecidableEq

namespace ConfigError

def message : ConfigError → String
  | .unreadable cause => "failed to read configuration: " ++ cause
  | .malformed reason => "failed to parse configuration: " ++ reason
  | .invalid reason => "validation error: " ++ reason

end ConfigError

namespace Config

def default : Config := ⟨.default, .default⟩

instance : Inhabited Config := ⟨default⟩

def fileName : String := "tuindex.toml"

/-- The values that a section gives for its fields, in order. A section is a table, of which other
fields are ignored, or an array. A time counts as a table of something else. -/
def sectionValues? (names : List String) : Toml.Value → Option (List (Option Toml.Value))
  | .table _ fields => some (names.map (Toml.field? fields))
  | .array items | .tables items => some ((List.range names.length).map fun place => items[place]?)
  | .time => some (names.map fun _ => none)
  | _ => none

def verbosity? : Toml.Value → Option Verbosity
  | .integer value => if 0 ≤ value then (Verbosity.ofTier? value.toNat).toOption else none
  | _ => none

def boolean? : Toml.Value → Option Bool
  | .boolean value => some value
  | _ => none

def string? : Toml.Value → Option String
  | .string text => some text
  | _ => none

def strings? : Toml.Value → Option (List String)
  | .array items => items.mapM string?
  | _ => none

/-- The value of a field, or what stands for it if it is not given. -/
def fieldOr {α : Type} (read? : Toml.Value → Option α) (fallback : α) : Option Toml.Value → Option α
  | none => some fallback
  | some value => read? value

def indexSection? (given : Toml.Value) : Option IndexSettings := do
  match ← sectionValues? ["verbosity", "background_indexing", "background_editing"] given with
  | [verbosity, indexing, editing] =>
    return {
      verbosity := ← fieldOr verbosity? .quiet verbosity
      backgroundIndexing := ← fieldOr boolean? false indexing
      backgroundEditing := ← fieldOr boolean? false editing }
  | _ => none

def databaseSection? (given : Toml.Value) : Option DatabaseSettings := do
  match ← sectionValues? ["compile_commands", "default_args"] given with
  | [commands, arguments] =>
    return {
      compileCommands := ← fieldOr string? DatabaseSettings.defaultCommands commands
      defaultArguments := ← fieldOr strings? [] arguments }
  | _ => none

def ofFields? (fields : Toml.Fields) : Option Config := do
  return {
    index := ← fieldOr indexSection? .default (Toml.field? fields "index")
    database := ← fieldOr databaseSection? .default (Toml.field? fields "database") }

/-- What a configuration must not leave empty. -/
def validate (config : Config) : Except ConfigError Config :=
  if (Text.trim config.database.compileCommands.toList).isEmpty then
    .error (.invalid "database.compile_commands is empty")
  else if "" ∈ config.database.defaultArguments then
    .error (.invalid "database.default_args contains an empty argument")
  else .ok config

def ofText (text : String) : Except ConfigError Config :=
  match (Toml.ofText? text).bind ofFields? with
  | none => .error (.malformed "no configuration")
  | some config => config.validate

def ofFile (disk : Disk) (path : Path) : Except ConfigError Config :=
  match disk.readText path with
  | .error error => .error (.unreadable error.message)
  | .ok text => ofText text

/-- The configuration file in the nearest directory that has one, from a directory upwards as its
path is written. -/
def find? (disk : Disk) (start : Path) : Option Path :=
  start.ancestors.map (·.join ⟨fileName⟩) |>.find? disk.isFile

end Config

end UnitCache
