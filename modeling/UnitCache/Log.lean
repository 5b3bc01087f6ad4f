/-! What is reported while work is done. -/

namespace UnitCache

inductive LogLevel where
  | error
  | warn
  | info
  | debug
deriving DecidableEq, Inhabited

namespace LogLevel

def name : LogLevel → String
  | .error => "ERROR"
  | .warn => "WARN"
  | .info => "INFO"
  | .debug => "DEBUG"

/-- Errors are the least verbose level. -/
def rank : LogLevel → Nat
  | .error => 0
  | .warn => 1
  | .info => 2
  | .debug => 3

end LogLevel

structure LogEntry where
  level : LogLevel
  message : String
  fields : List (String × String)
deriving DecidableEq, Inhabited

namespace LogEntry

def line (entry : LogEntry) : String :=
  entry.fields.foldl (fun text (key, value) => text ++ " " ++ key ++ "=" ++ value)
    (entry.level.name ++ " " ++ entry.message)

/-- Whether a log that shows everything up to `limit` shows the entry. -/
def passes (limit : LogLevel) (entry : LogEntry) : Bool :=
  entry.level.rank ≤ limit.rank

end LogEntry

end UnitCache
