import UnitCache.CommandLine.Project
import UnitCache.Json.Printer

/-! What the commands report. -/

namespace UnitCache.CommandLine

structure PathReport where
  /-- The path as requested. -/
  path : Path
  /-- The source file whose unit serves the path, if any. -/
  unit : Option Path
  /-- The files that unit includes. -/
  includes : List Path
deriving DecidableEq

namespace PathReport

def ofUnit (path : Path) : Option (ServedUnit IncludeEngine.engine) → PathReport
  | none => ⟨path, none, []⟩
  | some found =>
    let unit : IncludeUnit := found.unit
    ⟨path, some found.path, unit.closure.includes⟩

def answerAll (cache : Cache IncludeEngine.engine) (world : World) :
    List Path → Except CacheError (List PathReport) × Cache IncludeEngine.engine
  | [] => (.ok [], cache)
  | path :: rest =>
    match cache.request world path with
    | (.error error, cache) => (.error error, cache)
    | (.ok found, cache) =>
      let (below, cache) := answerAll cache world rest
      (below.map (ofUnit path found :: ·), cache)

def text (report : PathReport) : String :=
  match report.unit with
  | none => report.path.text ++ ": no translation unit\n"
  | some unit =>
    report.path.text ++ " -> " ++ unit.text ++ "\n" ++
      String.join (report.includes.map fun file => "    " ++ file.text ++ "\n")

def json (report : PathReport) : Json :=
  .object [
    (some "path", .string (some report.path.text)),
    (some "translation_unit",
      match report.unit with
      | none => .null
      | some unit => .string (some unit.text)),
    (some "includes", .array (report.includes.map fun file => .string (some file.text)))]

def render (reports : List PathReport) : Format → String
  | .text => String.join (reports.map text)
  | .json => (Json.array (reports.map json)).pretty ++ "\n"

def missing (reports : List PathReport) : Nat :=
  (reports.filter fun report => report.unit.isNone).length

end PathReport

structure SourceReport where
  file : Path
  arguments : List String
deriving DecidableEq

namespace SourceReport

def ofDatabase (commands : CommandDatabase) : List SourceReport :=
  commands.listedSources.map fun file => ⟨file, commands.compileArguments file⟩

/-- The file and its arguments as words of a command line; the file is not quoted. -/
def text? (entry : SourceReport) : Option String :=
  (ShellWords.join? entry.arguments).map fun arguments =>
    if arguments = "" then entry.file.text ++ "\n"
    else entry.file.text ++ " " ++ arguments ++ "\n"

def json (entry : SourceReport) : Json :=
  .object [
    (some "file", .string (some entry.file.text)),
    (some "arguments", .array (entry.arguments.map fun argument => .string (some argument)))]

/-- The report on a list of files; `none` if an argument cannot be quoted. -/
def render (entries : List SourceReport) : Format → Option String
  | .text => (entries.mapM text?).map String.join
  | .json => some ((Json.array (entries.map json)).pretty ++ "\n")

end SourceReport

end UnitCache.CommandLine
