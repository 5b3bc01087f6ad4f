import UnitCache.Engine.Basic
import UnitCache.Include.Closure

/-! An engine whose units are the include closures of source files. -/

namespace UnitCache

structure IncludeUnit where
  /-- Counts the units of an engine from one. A count in 64 bits tells the same up to 2 ^ 64 parses. -/
  id : Nat
  path : Path
  arguments : List String
  closure : Closure
  /-- Whether unresolved includes are reported. -/
  diagnostics : Bool
deriving DecidableEq

namespace IncludeUnit

/-- A warning for each include that leads nowhere. -/
def warnings (unit : IncludeUnit) : List LogEntry :=
  if unit.diagnostics then
    unit.closure.unresolved.map fun name =>
      ⟨.warn, "include not found", [("path", unit.path.text), ("include", name)]⟩
  else []

def includes (unit : IncludeUnit) (path : Path) : Bool :=
  path.normalize ∈ unit.closure.includes

end IncludeUnit

namespace IncludeEngine

structure Index where
  flags : IndexFlags
  diagnostics : Bool
deriving DecidableEq

/-- The status of a main file that cannot be read. -/
def unreadableStatus : Int := 1

/-- The argument that asks for a report of the directories searched. -/
def verboseArgument : String := "-v"

/-- The closure of a main file, or the failure to read it, and the report of the directories
searched. -/
def closureOf (files : VisibleFiles) (path : Path) (arguments : List String) :
    Except EngineFailure Closure × List LogEntry :=
  match files.text? path with
  | none => (.error ⟨unreadableStatus, "cannot read " ++ path.text⟩, [])
  | some _ =>
    let search := SearchDirectories.ofArguments (Closure.directoryOf path) arguments
    (.ok (Closure.ofMain files search path),
      if verboseArgument ∈ arguments then
        [⟨.info, "include search path", [("path", path.text), ("search", search.describe)]⟩]
      else [])

/-- Parses a file; only a success takes a number. -/
def parse (disk : Disk) (parsed : Nat) (index : Index) (request : ParseRequest) :
    ParseReply Nat IncludeUnit :=
  match closureOf ⟨disk, request.unsaved⟩ request.path request.arguments with
  | (.error error, logs) => ⟨.error error, parsed, logs⟩
  | (.ok closure, logs) =>
    let unit := ⟨parsed + 1, request.path, request.arguments, closure, index.diagnostics⟩
    ⟨.ok unit, parsed + 1, logs ++ IncludeUnit.warnings unit⟩

/-- Computes the closure of a unit again. A failure leaves the unit as it was. -/
def reparse (disk : Disk) (parsed : Nat) (unit : IncludeUnit) (unsaved : List Buffer) :
    ReparseReply Nat IncludeUnit :=
  match closureOf ⟨disk, unsaved⟩ unit.path unit.arguments with
  | (.error error, logs) => ⟨some error, unit, parsed, logs⟩
  | (.ok closure, logs) =>
    let fresh := { unit with closure }
    ⟨none, fresh, parsed, logs ++ fresh.warnings⟩

/-- The engine; its state is the number of units parsed so far. -/
def engine : Engine where
  State := Nat
  Index := Index
  Parsed := IncludeUnit
  openIndex parsed diagnostics := (⟨.none, diagnostics⟩, parsed)
  closeIndex parsed _ := (none, parsed)
  flags _ index := index.flags
  setFlags parsed index flags := ({ index with flags }, parsed)
  parse := parse
  reparse disk parsed unit unsaved _ := reparse disk parsed unit unsaved
  dispose parsed _ := (none, parsed)
  includes _ unit path := unit.includes path
  editingFlags _ := .editing
  reparseFlags _ _ := ⟨0⟩

end IncludeEngine

end UnitCache
