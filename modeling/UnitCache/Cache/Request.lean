import UnitCache.Cache.Update

/-! Requests for the unit of a file.

A source file has a unit of its own. A header is served by the first cached unit that
includes it, or else by parsing the listed source files one at a time until one does. -/

namespace UnitCache.Cache

variable {E : Engine}

/-- The answer to a request: a unit, or none if there is none to be had. -/
abbrev Answer (E : Engine) := Except CacheError (Option (ServedUnit E))

def includer? (cache : Cache E) (header : Path) :
    List (Entry E) → Option (Entry E) × Cache E
  | [] => (none, cache)
  | entry :: rest =>
    let asked := cache.note (.checkIncludes entry.serial header)
    if E.includes cache.engine entry.unit header then (some entry, asked)
    else asked.includer? header rest

/-- Parses source files in turn until one includes the header. A unit parsed in vain is disposed
again; one that was cached before stays. -/
def searchSources (cache : Cache E) (world : World) (header : Path) :
    List Path → Answer E × Cache E
  | [] =>
    (.ok none, cache.log .debug "no known source includes header" [("header", header.text)])
  | listed :: rest =>
    let source := world.disk.absolute listed
    if !(FileRole.ofPath source).isSource then
      (cache.log .debug "skipping non-source entry in source listing" [("path", source.text)])
        |>.searchSources world header rest
    else
      let wasCached := (cache.entry? source).isSome
      match cache.updateReported world source with
      | (.error error, cache) => (.error error, cache)
      | (.ok false, cache) => cache.searchSources world header rest
      | (.ok true, cache) =>
        match cache.entry? source with
        | none => cache.searchSources world header rest
        | some entry =>
          let asked := cache.note (.checkIncludes entry.serial header)
          if E.includes cache.engine entry.unit header then
            (.ok (some (unitOf entry)), asked.log .debug "resolved header"
              [("header", header.text), ("source", source.text)])
          else if wasCached then asked.searchSources world header rest
          else
            let evicted := asked.log .debug "evicting speculative parse" [("path", source.text)]
            (evicted.remove world source).2.searchSources world header rest

def requestHeader (cache : Cache E) (world : World) (header : Path) : Answer E × Cache E :=
  match cache.includer? header cache.entries with
  | (some entry, cache) => (.ok (some (unitOf entry)), cache)
  | (none, cache) =>
    let answer := world.listedSources cache.journal
    let cache := cache.note (.askSources answer)
    match answer with
    | .error reason => (.error (.unavailable .database reason), cache)
    | .ok sources => cache.searchSources world header sources

def requestSource (cache : Cache E) (world : World) (path : Path) : Answer E × Cache E :=
  match cache.updateReported world path with
  | (.error error, cache) => (.error error, cache)
  | (.ok false, cache) => (.ok none, cache)
  | (.ok true, cache) => (.ok ((cache.entry? path).map unitOf), cache)

/-- The unit that serves a file, up to date for a source file. No unit is no error: the reason is
logged, and the next request tries again. -/
def request (cache : Cache E) (world : World) (path : Path) : Answer E × Cache E :=
  let path := world.disk.absolute path
  if (FileRole.ofPath path).isSource then cache.requestSource world path
  else cache.requestHeader world path

/-- Requests the unit of a file that is not cached, and leaves one that is as it is. -/
def ensure (cache : Cache E) (world : World) (path : Path) : Except CacheError Unit × Cache E :=
  if cache.contains world.disk path then (.ok (), cache)
  else
    let (answer, cache) := cache.request world path
    (answer.map fun _ => (), cache)

/-- Requests the unit of a file that is cached, and caches no other. -/
def renew (cache : Cache E) (world : World) (path : Path) : Except CacheError Unit × Cache E :=
  if cache.contains world.disk path then
    let (answer, cache) := cache.request world path
    (answer.map fun _ => (), cache)
  else (.ok (), cache)

end UnitCache.Cache
