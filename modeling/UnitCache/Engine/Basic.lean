import UnitCache.Disk.Basic
import UnitCache.Log
import UnitCache.Flags
import UnitCache.Buffer

/-! What the cache asks of a parser.

An engine keeps a state of its own, opens one index, and parses units in it. Nothing
is assumed of how it answers: any parse, reparse or disposal may fail. -/

namespace UnitCache

structure EngineFailure where
  status : Int
  text : String
deriving DecidableEq, Inhabited

def EngineFailure.message (error : EngineFailure) : String :=
  "engine status " ++ toString error.status ++ ": " ++ error.text

structure ParseRequest where
  path : Path
  arguments : List String
  unsaved : List Buffer
  flags : ParseFlags
deriving DecidableEq

/-- What comes of a parse: a unit or a failure, the engine afterwards, and what it logged. -/
structure ParseReply (State Parsed : Type) where
  outcome : Except EngineFailure Parsed
  state : State
  logs : List LogEntry

/-- What comes of a reparse: the unit afterwards, also after a failure. -/
structure ReparseReply (State Parsed : Type) where
  failure : Option EngineFailure
  unit : Parsed
  state : State
  logs : List LogEntry

structure Engine where
  State : Type
  Index : Type
  Parsed : Type
  /-- Opens an index; the flag says whether the engine shows diagnostics of its own. -/
  openIndex : State → Bool → Index × State
  closeIndex : State → Index → Option EngineFailure × State
  flags : State → Index → IndexFlags
  setFlags : State → Index → IndexFlags → Index × State
  parse : Disk → State → Index → ParseRequest → ParseReply State Parsed
  reparse : Disk → State → Parsed → List Buffer → ReparseFlags → ReparseReply State Parsed
  dispose : State → Parsed → Option EngineFailure × State
  /-- Whether a unit includes the file at a path. -/
  includes : State → Parsed → Path → Bool
  editingFlags : State → ParseFlags
  reparseFlags : State → Parsed → ReparseFlags

end UnitCache
