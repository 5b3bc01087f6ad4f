import UnitCache.CommandLine.Report
import UnitCache.Text.Quoted

/-! Running a command line on the files of a disk. -/

namespace UnitCache.CommandLine

/-- What a run leaves: an exit code, the text of both outputs, and the log. -/
structure Outcome where
  exitCode : Nat
  output : String
  errors : List String
  logs : List LogEntry
deriving DecidableEq

/-- The log shows errors only when quiet, and otherwise more with every request for detail. -/
def logLimit (flags : GlobalFlags) : LogLevel :=
  if flags.quiet then .error
  else
    match flags.verbose with
    | 0 => .warn
    | 1 => .info
    | _ => .debug

/-- The entries that the log shows. A message may hold names of files, so it is made safe to show;
the fields stay as they are. -/
def shownLogs (flags : GlobalFlags) (logs : List LogEntry) : List LogEntry :=
  (logs.filter (LogEntry.passes (logLimit flags))).map fun entry =>
    { entry with message := Text.forTerminal entry.message }

def failed (message : String) (logs : List LogEntry) : Outcome :=
  ⟨1, "", ["error: " ++ message], logs⟩

def logsOf (journal : List Event) : List LogEntry :=
  journal.filterMap fun
    | .log entry => some entry
    | _ => none

/-- Shows the unit that serves each path. The run fails if a path has none. -/
def runLookup (flags : GlobalFlags) (disk : Disk) (paths : List Path) (format : Format) :
    Outcome :=
  match Project.load flags disk with
  | (.error message, logs) => failed message logs
  | (.ok (project, commands), logs) =>
    match PathReport.answerAll (project.cache flags) (worldOf commands disk) paths with
    | (.error error, cache) => failed error.message (logs ++ logsOf cache.close.2.journal)
    | (.ok reports, cache) =>
      let missing := PathReport.missing reports
      { exitCode := if missing = 0 then 0 else 1
        output := PathReport.render reports format
        errors :=
          if missing = 0 || flags.quiet then []
          else ["error: " ++ toString missing ++ " file(s) have no translation unit"]
        logs := logs ++ logsOf cache.close.2.journal }

def runSources (flags : GlobalFlags) (disk : Disk) (format : Format) : Outcome :=
  match Project.load flags disk with
  | (.error message, logs) => failed message logs
  | (.ok (_, commands), logs) =>
    match SourceReport.render (SourceReport.ofDatabase commands) format with
    | none => failed ShellWords.nulMessage logs
    | some output => ⟨0, output, [], logs⟩

def usage : String :=
  "Usage: tuindex [-q] [-v]... [--config <CONFIG>] [--compile-commands <COMPILE_COMMANDS>] " ++
    "lookup|sources ...\n"

def version : String := "tuindex 0.1.0\n"

/-- Runs a command line; the log holds what its own flags let through. -/
def run (arguments : List String) (disk : Disk) : Outcome :=
  match Invocation.ofArguments arguments with
  | .error .usage => ⟨2, "", [usage], []⟩
  | .error .help => ⟨0, usage, [], []⟩
  | .error .version => ⟨0, version, [], []⟩
  | .ok ⟨flags, command⟩ =>
    let outcome := match command with
      | .lookup paths format => runLookup flags disk (paths.map Path.mk) format
      | .sources format => runSources flags disk format
    { outcome with logs := shownLogs flags outcome.logs }

end UnitCache.CommandLine
