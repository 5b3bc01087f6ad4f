import UnitCache.Path.Basic

/-! Files as a process sees them: a tree without links, and a working directory.

A path is followed step by step from the root or the working directory. Each step
but the last must lead to a directory, and `..` leads to the directory above, so a
path that is equal after lexical normalization need not lead anywhere. -/

namespace UnitCache

/-- Seconds since the start of 1970. -/
abbrev Timestamp := Int

/-- The names that lead from the root to a file or directory. -/
abbrev Location := List String

/-- The names a path has after lexical normalization. -/
def Path.location (path : Path) : Location :=
  path.normalize.components.filterMap fun
    | .name text => some text
    | _ => none

inductive FileError where
  | notFound
  | denied (message : String)
  | notDirectory
  | isDirectory
  | nameTooLong
  | containsNul
  | notText
  | busy (message : String)
deriving DecidableEq

namespace FileError

def message : FileError → String
  | .notFound => "No such file or directory (os error 2)"
  | .denied message => message
  | .notDirectory => "Not a directory (os error 20)"
  | .isDirectory => "Is a directory (os error 21)"
  | .nameTooLong => "File name too long (os error 36)"
  | .containsNul => "file name contained an unexpected NUL byte"
  | .notText => "stream did not contain valid UTF-8"
  | .busy message => message

end FileError

/-- A directory, or a regular file with its text and time; a file whose bytes are not UTF-8 has no
text. -/
inductive Node where
  | directory
  | file (text : Option String) (modified : Timestamp)
deriving DecidableEq

/-- Every file and directory by its location. The root is a directory whether listed or not, and the
working directory is `none` once it is gone.

Files have times that anyone may set. A directory has the time at which something was last made or
deleted in it, by a clock that moves on with every such change. -/
structure Disk where
  nodes : List (Location × Node)
  workingDirectory : Option Location
  /-- The times of directories, the latest first. -/
  stamps : List (Location × Timestamp)
  clock : Timestamp
deriving DecidableEq

namespace Disk

def emptyAt (clock : Timestamp) : Disk := ⟨[], some [], [], clock⟩

def empty : Disk := emptyAt 0

instance : Inhabited Disk := ⟨empty⟩

/-- The longest name, and the longest path with its end mark, in bytes. -/
def longestName : Nat := 255
def longestPath : Nat := 4096

def node? (disk : Disk) (location : Location) : Option Node :=
  if location = [] then some .directory
  else (disk.nodes.find? fun entry => entry.1 = location).map Prod.snd

def follow (disk : Disk) : Location → Node → List (List Char) → Except FileError (Location × Node)
  | location, node, [] => .ok (location, node)
  | _, .file .., _ :: _ => .error .notDirectory
  | location, .directory, piece :: rest =>
    match Component.ofPiece? piece with
    | some .parent => disk.follow location.dropLast .directory rest
    | some (.name name) =>
      if longestName < name.utf8ByteSize then .error .nameTooLong
      else
        match disk.node? (location ++ [name]) with
        | none => .error .notFound
        | some node => disk.follow (location ++ [name]) node rest
    | _ => disk.follow location .directory rest

def resolve (disk : Disk) (path : Path) : Except FileError (Location × Node) :=
  if '\x00' ∈ path.text.toList then .error .containsNul
  else if longestPath ≤ path.text.utf8ByteSize then .error .nameTooLong
  else
    match path.text.toList with
    | [] => .error .notFound
    | '/' :: body => disk.follow [] .directory (Path.pieces body)
    | body =>
      match disk.workingDirectory with
      | none => .error .notFound
      | some location => disk.follow location .directory (Path.pieces body)

def isFile (disk : Disk) (path : Path) : Bool :=
  match disk.resolve path with
  | .ok (_, .file ..) => true
  | _ => false

def readText (disk : Disk) (path : Path) : Except FileError String :=
  match disk.resolve path with
  | .error error => .error error
  | .ok (_, .directory) => .error .isDirectory
  | .ok (_, .file none _) => .error .notText
  | .ok (_, .file (some text) _) => .ok text

/-- When a directory last changed; before its first change it has the time zero. -/
def stamp (disk : Disk) (location : Location) : Timestamp :=
  ((disk.stamps.find? fun entry => entry.1 = location).map Prod.snd).getD 0

/-- When a file was last written, or a directory last changed. -/
def modified (disk : Disk) (path : Path) : Except FileError Timestamp :=
  match disk.resolve path with
  | .error error => .error error
  | .ok (location, .directory) => .ok (disk.stamp location)
  | .ok (_, .file _ time) => .ok time

def pathOf (location : Location) : Path :=
  Path.ofComponents (.root :: location.map .name)

/-- A path as seen from the working directory, without `.` and `..` steps, so that every spelling of
a file is one path. Without a working directory, and for the empty path, the path alone counts. -/
def absolute (disk : Disk) (path : Path) : Path :=
  match disk.workingDirectory with
  | some location =>
    if path.text = "" then path.normalize else ((pathOf location).join path).normalize
  | none => path.normalize

/-- Stamps directories with the present time, and moves the clock on. -/
def stampNow (disk : Disk) (locations : List Location) : Disk :=
  { disk with
    stamps := locations.map (·, disk.clock) ++ disk.stamps
    clock := disk.clock + 1 }

/-- Puts a node at a location and makes the directories above it. What is new changes the directory
that it is made in, and a new directory has changed itself. -/
def put (disk : Disk) (location : Location) (node : Node) : Disk :=
  let above := (List.range location.length).map fun count => location.take count
  let missing := above.filter fun upper => (disk.node? upper).isNone
  let made := missing ++ if (disk.node? location).isNone then [location] else []
  let others := disk.nodes.filter fun entry => !decide (entry.1 = location)
  { disk.stampNow (made ++ made.map List.dropLast) with
    nodes := others ++ missing.map (·, .directory) ++ [(location, node)] }

/-- One step of a path whose directories are made where they are missing. -/
def makeStep (state : Disk × Location) (step : Component) : Disk × Location :=
  let (disk, location) := state
  match step with
  | .root => (disk, [])
  | .current => state
  | .parent => (disk, location.dropLast)
  | .name text =>
    let next := location ++ [text]
    (if (disk.node? next).isNone then disk.put next .directory else disk, next)

/-- Makes every directory that a path leads through, also one that a `..` leaves again, and tells
where the path leads. -/
def makeDirectories (disk : Disk) (path : Path) : Disk × Location :=
  path.components.foldl makeStep (disk, disk.workingDirectory.getD [])

/-- Makes a directory, or writes a file, and the directories that lead there. Neither takes the
place of the other, and the path must lead to what was written. -/
def write (disk : Disk) (path : Path) (node : Node) : Except FileError Disk :=
  match disk.resolve path, node with
  | .ok (_, .directory), .file .. => .error .isDirectory
  | .ok (_, .file ..), .directory => .error .notDirectory
  | _, _ =>
    let written := match node, path.parent?, path.fileName? with
      | .file .., some parent, some name =>
        let (made, location) := disk.makeDirectories parent
        made.put (location ++ [name]) node
      | _, _, _ => (disk.makeDirectories path).1
    match written.resolve path with
    | .error error => .error error
    | .ok (_, found) => if found = node then .ok written else .error .isDirectory

/-- Forgets a file, or a directory with what is below it, and changes the directory that it was in.
A working directory that is forgotten is gone. -/
def delete (disk : Disk) (path : Path) : Disk :=
  match disk.resolve path with
  | .error _ => disk
  | .ok (location, _) =>
    { disk.stampNow [location.dropLast] with
      nodes := disk.nodes.filter fun entry => !location.isPrefixOf entry.1
      workingDirectory := disk.workingDirectory.filter fun place => !location.isPrefixOf place }

def touch (disk : Disk) (path : Path) (time : Timestamp) : Disk :=
  match disk.resolve path with
  | .ok (location, .file text _) =>
    { disk with nodes := disk.nodes.map fun entry =>
        if entry.1 = location then (location, .file text time) else entry }
  | _ => disk

def enter (disk : Disk) (path : Path) : Disk :=
  match disk.resolve path with
  | .ok (location, .directory) => { disk with workingDirectory := some location }
  | _ => { disk with workingDirectory := none }

end Disk

end UnitCache
