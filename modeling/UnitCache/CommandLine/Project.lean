import UnitCache.Cache.Request
import UnitCache.CommandLine.Arguments
import UnitCache.CommandDatabase.Basic
import UnitCache.Config
import UnitCache.Include.Engine

/-! The project a command works on: a configuration, a database, and a cache of include
closures. -/

namespace UnitCache.CommandLine

/-- A loaded configuration and the directory that its paths are seen from. -/
structure Project where
  config : Config
  directory : Path
deriving DecidableEq

namespace Project

def ofFile (disk : Disk) (path : Path) : Except String Project × List LogEntry :=
  match Config.ofFile disk path with
  | .error error => (.error ("failed to load " ++ path.text ++ ": " ++ error.message), [])
  | .ok config =>
    (.ok ⟨config, path.parent?.getD ⟨"."⟩⟩,
      [⟨.debug, "loaded configuration", [("path", path.text)]⟩])

/-- The configuration that the flags name, or else the nearest above the working directory, or else
the default. -/
def find (flags : GlobalFlags) (disk : Disk) : Except String Project × List LogEntry :=
  match disk.workingDirectory with
  | none => (.error FileError.notFound.message, [])
  | some location =>
    let here := Disk.pathOf location
    let path := match flags.config with
      | some path => some (here.join ⟨path⟩)
      | none => Config.find? disk here
    match path with
    | some path => ofFile disk path
    | none =>
      (.ok ⟨.default, here⟩, [⟨.debug, "no configuration file found; using defaults", []⟩])

/-- The flags name the database as seen from the working directory, the configuration as seen from
its own directory. -/
def databasePath (project : Project) (flags : GlobalFlags) : Path :=
  match flags.compileCommands with
  | some path => ⟨path⟩
  | none => project.directory.join ⟨project.config.database.compileCommands⟩

def database (project : Project) (flags : GlobalFlags) (disk : Disk) :
    Except String CommandDatabase × List LogEntry :=
  match CommandDatabase.ofFile disk (project.databasePath flags) with
  | .error error => (.error error.message, [])
  | .ok commands =>
    (.ok (commands.withDefaultArguments project.config.database.defaultArguments),
      [⟨.debug, "loaded compile commands", [("entries", toString commands.size)]⟩])

/-- Quiet wins; otherwise the more verbose of the configuration and the flags. -/
def verbosity (project : Project) (flags : GlobalFlags) : Verbosity :=
  if flags.quiet then .quiet
  else project.config.index.verbosity.max (.clamp flags.verbose)

/-- The database, found by way of the configuration, with both and what was logged. -/
def load (flags : GlobalFlags) (disk : Disk) :
    Except String (Project × CommandDatabase) × List LogEntry :=
  match find flags disk with
  | (.error message, logs) => (.error message, logs)
  | (.ok project, logs) =>
    match project.database flags disk with
    | (.error message, more) => (.error message, logs ++ more)
    | (.ok commands, more) => (.ok (project, commands), logs ++ more)

/-- A cache of include closures, with the configured flags set. -/
def cache (project : Project) (flags : GlobalFlags) : Cache IncludeEngine.engine :=
  (Cache.create (0 : Nat) (project.verbosity flags)).setIndexFlags
    project.config.index.flags

end Project

/-- What a cache sees of a database and the files on disk, without unsaved buffers. -/
def worldOf (commands : CommandDatabase) (disk : Disk) : World where
  compileArguments _ path := .ok (commands.compileArguments path)
  listedSources _ := .ok commands.listedSources
  buffers _ := .ok []
  modified _ := disk.modified
  disk := disk

end UnitCache.CommandLine
