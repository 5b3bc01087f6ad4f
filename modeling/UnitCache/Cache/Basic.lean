import UnitCache.Engine.Basic
import UnitCache.FileRole
import UnitCache.Verbosity

/-! The cache of parsed units: its state, its journal, and what surrounds it.

The journal tells every call made to the engine, every question put to a collaborator
and every log entry, in order. Units are told apart by serial numbers, which count
successful parses. -/

namespace UnitCache

inductive Collaborator where
  | database
  | buffers
deriving DecidableEq

def Collaborator.name : Collaborator → String
  | .database => "compilation database"
  | .buffers => "unsaved file provider"

/-- What can go wrong with a unit. Only an unavailable collaborator is told to the caller of a
request; failures of the engine are logged, or returned when they come of a disposal. -/
inductive CacheError where
  | parseFailed (path : Path) (cause : EngineFailure)
  | reparseFailed (path : Path) (cause : EngineFailure)
  | unavailable (collaborator : Collaborator) (reason : String)
  | disposeFailed (path : Path) (cause : EngineFailure)
deriving DecidableEq

namespace CacheError

def unavailableMessage (name reason : String) : String :=
  name ++ " unavailable: " ++ reason

def message : CacheError → String
  | .parseFailed path cause =>
    "error parsing translation unit " ++ path.text ++ ": " ++ cause.message
  | .reparseFailed path cause =>
    "error re-parsing translation unit " ++ path.text ++ ": " ++ cause.message
  | .unavailable collaborator reason => unavailableMessage collaborator.name reason
  | .disposeFailed path cause => "error disposing " ++ path.text ++ ": " ++ cause.message

end CacheError

/-- One thing that a cache did. -/
inductive Event where
  | openIndex (diagnostics : Bool)
  | closeIndex (flags : IndexFlags) (failure : Option EngineFailure)
  | readFlags
  | setFlags (flags : IndexFlags)
  | readEditingFlags
  | readReparseFlags (serial : Nat)
  | parse (request : ParseRequest) (outcome : Except EngineFailure Nat)
  | reparse (serial : Nat) (unsaved : List Buffer) (flags : ReparseFlags)
      (failure : Option EngineFailure)
  | dispose (serial : Nat) (failure : Option EngineFailure)
  | checkIncludes (serial : Nat) (path : Path)
  | askArguments (path : Path) (answer : Except String (List String))
  | askSources (answer : Except String (List Path))
  | askBuffers (answer : Except String (List Buffer))
  | askModified (path : Path) (answer : Except FileError Timestamp)
  | log (entry : LogEntry)

/-- What the collaborators of a cache answer while an operation runs. None has to answer the same
question alike twice: an answer may depend on all that the journal tells so far. -/
structure World where
  compileArguments : List Event → Path → Except String (List String)
  listedSources : List Event → Except String (List Path)
  buffers : List Event → Except String (List Buffer)
  modified : List Event → Path → Except FileError Timestamp
  disk : Disk

structure Entry (E : Engine) where
  path : Path
  arguments : List String
  /-- When the file had been written when it was read; `none` if that could not be told. -/
  modified : Option Timestamp
  serial : Nat
  unit : E.Parsed

/-- A unit handed to a caller, with the source file it belongs to. -/
structure ServedUnit (E : Engine) where
  path : Path
  serial : Nat
  unit : E.Parsed

structure Cache (E : Engine) where
  engine : E.State
  /-- The engine's index, until it is closed. -/
  index : Option E.Index
  entries : List (Entry E)
  verbosity : Verbosity
  /-- The number of units parsed so far. -/
  parsed : Nat
  journal : List Event

namespace Cache

variable {E : Engine}

def note (cache : Cache E) (event : Event) : Cache E :=
  { cache with journal := cache.journal ++ [event] }

def noteAll (cache : Cache E) (events : List Event) : Cache E :=
  { cache with journal := cache.journal ++ events }

def log (cache : Cache E) (level : LogLevel) (message : String) (fields : List (String × String)) :
    Cache E :=
  cache.note (.log ⟨level, message, fields⟩)

def report (cache : Cache E) (level : LogLevel) (error : CacheError) : Cache E :=
  cache.log level error.message []

/-- Opens an engine's index with nothing cached. The engine shows diagnostics above the quiet
tier. -/
def create (engine : E.State) (verbosity : Verbosity) : Cache E :=
  let (index, engine) := E.openIndex engine verbosity.aboveQuiet
  ⟨engine, some index, [], verbosity, 0, [.openIndex verbosity.aboveQuiet]⟩

def takeJournal (cache : Cache E) : List Event × Cache E :=
  (cache.journal, { cache with journal := [] })

def size (cache : Cache E) : Nat := cache.entries.length

def paths (cache : Cache E) : List Path := cache.entries.map Entry.path

/-- The entry of a path that is already absolute and normalized. -/
def entry? (cache : Cache E) (path : Path) : Option (Entry E) :=
  cache.entries.find? fun entry => entry.path = path

def get? (cache : Cache E) (disk : Disk) (path : Path) : Option (Entry E) :=
  cache.entry? (disk.absolute path)

def contains (cache : Cache E) (disk : Disk) (path : Path) : Bool :=
  (cache.get? disk path).isSome

def unitOf (entry : Entry E) : ServedUnit E := ⟨entry.path, entry.serial, entry.unit⟩

end Cache

end UnitCache
