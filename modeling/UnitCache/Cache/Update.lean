import UnitCache.Cache.Teardown

/-! Bringing the unit of one source file up to date.

A unit is used again while the arguments and the time of its file stay the same, reparsed
in place when only the time differs, and otherwise replaced by a fresh parse. -/

namespace UnitCache.Cache

variable {E : Engine}

def verboseArgument : String := "-v"

/-- When a file was last written. A file without a readable time has none. -/
def askModified (cache : Cache E) (world : World) (path : Path) : Option Timestamp × Cache E :=
  let answer := world.modified cache.journal path
  let cache := cache.note (.askModified path answer)
  match answer with
  | .ok time => (some time, cache)
  | .error .notFound => (none, cache.log .debug "file not found on disk" [("path", path.text)])
  | .error error =>
    (none, cache.log .warn ("cannot read modification time: " ++ error.message)
      [("path", path.text)])

/-- The arguments given to the engine for a unit's arguments. -/
def engineArguments (verbosity : Verbosity) (arguments : List String) : List String :=
  if verbosity.isHighest then arguments ++ [verboseArgument] else arguments

/-- Asks the engine for a unit and caches it, after the others. The path that is parsed has no entry. -/
def parseInto (cache : Cache E) (disk : Disk) (index : E.Index) (request : ParseRequest)
    (arguments : List String) (modified : Option Timestamp) : Bool × Cache E :=
  let reply := E.parse disk cache.engine index request
  let cache := { cache with engine := reply.state }
  match reply.outcome with
  | .ok unit =>
    let serial := cache.parsed + 1
    let entry : Entry E := ⟨request.path, arguments, modified, serial, unit⟩
    let cache := { cache with parsed := serial, entries := cache.entries ++ [entry] }
      |>.note (.parse request (.ok serial)) |>.noteAll (reply.logs.map .log)
    (true, cache.log .debug "parsed translation unit" [("path", request.path.text)])
  | .error cause =>
    let cache := cache.note (.parse request (.error cause)) |>.noteAll (reply.logs.map .log)
    (false, cache.report .error (.parseFailed request.path cause))

def askBuffers (cache : Cache E) (world : World) : Except String (List Buffer) × Cache E :=
  let answer := world.buffers cache.journal
  (answer, cache.note (.askBuffers answer))

/-- Parses a path that has no entry, with the buffers as they are now. The answer says whether there
is an entry afterwards. -/
def parseAfresh (cache : Cache E) (world : World) (path : Path) (arguments : List String)
    (modified : Option Timestamp) : Except CacheError Bool × Cache E :=
  match cache.askBuffers world with
  | (.error reason, cache) => (.error (.unavailable .buffers reason), cache)
  | (.ok unsaved, cache) =>
    match cache.index with
    | none =>
      (.ok false, cache.log .error "cannot parse translation unit: index has been shut down"
        [("path", path.text)])
    | some index =>
      let request := ⟨path, engineArguments cache.verbosity arguments, unsaved,
        E.editingFlags cache.engine⟩
      let (present, cache) :=
        (cache.note .readEditingFlags).parseInto world.disk index request arguments modified
      (.ok present, cache)

/-- Replaces the entry of a path, if there is one, by a fresh parse. -/
def rebuild (cache : Cache E) (world : World) (path : Path) (arguments : List String)
    (modified : Option Timestamp) : Except CacheError Bool × Cache E :=
  (cache.remove world path).2.parseAfresh world path arguments modified

/-- Puts an entry in the place of the one with the same path. -/
def replace (cache : Cache E) (entry : Entry E) : Cache E :=
  { cache with entries := cache.entries.map fun other =>
      if other.path = entry.path then entry else other }

def reparseUnit (cache : Cache E) (disk : Disk) (entry : Entry E) (unsaved : List Buffer) :
    ReparseReply E.State E.Parsed × Cache E :=
  let flags := E.reparseFlags cache.engine entry.unit
  let reply := E.reparse disk cache.engine entry.unit unsaved flags
  let cache := { cache with engine := reply.state }.note (.readReparseFlags entry.serial)
    |>.note (.reparse entry.serial unsaved flags reply.failure)
    |>.noteAll (reply.logs.map .log)
  (reply, cache)

/-- Reparses a unit whose file has another time. A unit that fails to is replaced. -/
def reparse (cache : Cache E) (world : World) (entry : Entry E) (modified : Option Timestamp) :
    Except CacheError Bool × Cache E :=
  match cache.askBuffers world with
  | (.error reason, cache) => (.error (.unavailable .buffers reason), cache)
  | (.ok unsaved, cache) =>
    let (reply, cache) := cache.reparseUnit world.disk entry unsaved
    match reply.failure with
    | none =>
      (.ok true, (cache.replace { entry with unit := reply.unit, modified }).log .debug
        "re-parsed translation unit" [("path", entry.path.text)])
    | some cause =>
      ((cache.replace { entry with unit := reply.unit }).report .error
        (.reparseFailed entry.path cause)).rebuild world entry.path entry.arguments modified

/-- Brings the entry of an absolute source path up to date. The answer says whether there is an
entry afterwards. -/
def update (cache : Cache E) (world : World) (path : Path) : Except CacheError Bool × Cache E :=
  let answer := world.compileArguments cache.journal path
  let cache := cache.note (.askArguments path answer)
  match answer with
  | .error reason => (.error (.unavailable .database reason), cache)
  | .ok arguments =>
    let (modified, cache) := cache.askModified world path
    match cache.entry? path with
    | none => cache.rebuild world path arguments modified
    | some entry =>
      if entry.arguments = arguments then
        if entry.modified = modified then
          (.ok true, cache.log .debug "translation unit up to date" [("path", path.text)])
        else cache.reparse world entry modified
      else
        (cache.log .debug "compile arguments changed; rebuilding" [("path", path.text)]).rebuild
          world path arguments modified

/-- Brings an entry up to date, and reports start and end above the quiet tier. -/
def updateReported (cache : Cache E) (world : World) (path : Path) :
    Except CacheError Bool × Cache E :=
  if cache.verbosity.aboveQuiet then
    let (result, cache) :=
      (cache.log .info "indexing translation unit" [("path", path.text)]).update world path
    (result, cache.log .info "indexed translation unit" [("path", path.text)])
  else cache.update world path

end UnitCache.Cache
