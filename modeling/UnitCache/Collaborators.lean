import UnitCache.Cache.Basic
import UnitCache.CommandDatabase.Basic

/-! Collaborators of a cache that can be changed between its operations.

A collaborator that is being changed while an operation runs cannot answer. -/

namespace UnitCache

/-- A database that answers from tables and fails where it is told to: for `args`, for `sources`, or
for the path as spelled. -/
structure TableDatabase where
  sources : List Path
  defaultArguments : List String
  arguments : List (Path × List String)
  failing : List String
deriving DecidableEq

namespace TableDatabase

def compileArguments (table : TableDatabase) (path : Path) : Except String (List String) :=
  if "args" ∈ table.failing ∨ path.text ∈ table.failing then .error "scripted args failure"
  else
    match table.arguments.find? fun entry => entry.1.Same path with
    | some (_, arguments) => .ok arguments
    | none => .ok table.defaultArguments

def listedSources (table : TableDatabase) : Except String (List Path) :=
  if "sources" ∈ table.failing then .error "scripted listing failure" else .ok table.sources

def setArguments (table : TableDatabase) (path : Path) (arguments : List String) : TableDatabase :=
  { table with
    arguments := table.arguments.filter (fun entry => !decide (entry.1.Same path)) ++
      [(path, arguments)] }

end TableDatabase

inductive Database where
  | commands (commands : CommandDatabase)
  | table (table : TableDatabase)

namespace Database

def compileArguments (database : Database) (path : Path) : Except String (List String) :=
  match database with
  | .commands listed => .ok (listed.compileArguments path)
  | .table listed => listed.compileArguments path

def listedSources (database : Database) : Except String (List Path) :=
  match database with
  | .commands listed => .ok listed.listedSources
  | .table listed => listed.listedSources

end Database

/-- Where the times of files come from: a table, in which a path may be denied, or the disk. -/
inductive FileTimes where
  | table (times : List (Path × Option Timestamp))
  | disk

namespace FileTimes

def modified (times : FileTimes) (disk : Disk) (path : Path) : Except FileError Timestamp :=
  match times with
  | .disk => disk.modified path
  | .table times =>
    match times.find? fun entry => entry.1.Same path with
    | some (_, some time) => .ok time
    | some (_, none) => .error (.denied "scripted denial")
    | none => .error .notFound

/-- Sets what a table says of a path; `none` forgets it. -/
def set (times : FileTimes) (path : Path) (time : Option (Option Timestamp)) : FileTimes :=
  match times with
  | .disk => .disk
  | .table times =>
    .table (times.filter (fun entry => !decide (entry.1.Same path)) ++ (time.map (path, ·)).toList)

end FileTimes

structure Held where
  database : Bool
  files : Bool
  buffers : Bool
deriving DecidableEq, Inhabited

structure Collaborators where
  database : Database
  times : FileTimes
  /-- Whether others can change the source of times. -/
  timesShared : Bool
  buffers : Buffers
  /-- Whether the cache sees the buffers at all. -/
  buffersShared : Bool
  buffersFail : Bool
  disk : Disk

namespace Collaborators

/-- What a cache gets to see while some collaborators are held. -/
def world (collaborators : Collaborators) (held : Held) : World where
  compileArguments _ path :=
    if held.database then .error "compilation database is being modified"
    else collaborators.database.compileArguments path
  listedSources _ :=
    if held.database then .error "compilation database is being modified"
    else collaborators.database.listedSources
  buffers _ :=
    if !collaborators.buffersShared then .ok []
    else if held.buffers then .error "unsaved files are being modified"
    else if collaborators.buffersFail then .error "scripted overlay failure"
    else .ok collaborators.buffers.toList
  modified _ path :=
    if held.files && collaborators.timesShared then .error (.busy "file system is being modified")
    else collaborators.times.modified collaborators.disk path
  disk := collaborators.disk

def setTime (collaborators : Collaborators) (path : Path) (time : Option (Option Timestamp)) :
    Collaborators :=
  match collaborators.times, time with
  | .disk, some (some seconds) =>
    { collaborators with disk := collaborators.disk.touch path seconds }
  | .disk, _ => collaborators
  | .table _, _ => { collaborators with times := collaborators.times.set path time }

end Collaborators

end UnitCache
