import UnitCache.Cache.Basic

/-! Giving units and the index back to the engine. -/

namespace UnitCache.Cache

variable {E : Engine}

/-- Gives a unit back. It is gone even if the engine reports a failure, which is logged. -/
def dispose (cache : Cache E) (entry : Entry E) : Option CacheError × Cache E :=
  let (failure, engine) := E.dispose cache.engine entry.unit
  let cache := { cache with engine }.note (.dispose entry.serial failure)
  match failure with
  | none => (none, cache)
  | some cause =>
    let error := .disposeFailed entry.path cause
    (some error, cache.report .warn error)

/-- Forgets and disposes the entry of an absolute path; says whether there was one. -/
def removeAt (cache : Cache E) (path : Path) : Bool × Cache E :=
  match cache.entry? path with
  | none => (false, cache)
  | some entry =>
    let others := cache.entries.filter fun other => !decide (other.path = path)
    (true, ({ cache with entries := others }.dispose entry).2)

/-- Forgets and disposes the entry of a path; says whether there was one. -/
def remove (cache : Cache E) (world : World) (path : Path) : Bool × Cache E :=
  cache.removeAt (world.disk.absolute path)

def disposeAll (cache : Cache E) : List (Entry E) → List CacheError × Cache E
  | [] => ([], cache)
  | entry :: rest =>
    let (failure, cache) := cache.dispose entry
    let (failures, cache) := cache.disposeAll rest
    (failure.toList ++ failures, cache)

/-- Forgets and disposes every entry; returns the disposals that failed. -/
def clear (cache : Cache E) : List CacheError × Cache E :=
  { cache with entries := [] }.disposeAll cache.entries

def closeIndex (cache : Cache E) : Option CacheError × Cache E :=
  match cache.index with
  | none => (none, cache)
  | some index =>
    let flags := E.flags cache.engine index
    let (failure, engine) := E.closeIndex cache.engine index
    let cache := { cache with engine, index := none }.note (.closeIndex flags failure)
    match failure with
    | none => (none, cache)
    | some cause =>
      let error := .disposeFailed ⟨""⟩ cause
      (some error, cache.report .warn error)

/-- Gives everything back: first the units, then the index. A second call does nothing. -/
def close (cache : Cache E) : List CacheError × Cache E :=
  let (failures, cache) := cache.clear
  let (failure, cache) := cache.closeIndex
  (failures ++ failure.toList, cache)

/-- The flags of the index; none is set once it is closed. -/
def indexFlags (cache : Cache E) : IndexFlags × Cache E :=
  match cache.index with
  | none => (.none, cache)
  | some index => (E.flags cache.engine index, cache.note .readFlags)

def setIndexFlags (cache : Cache E) (flags : IndexFlags) : Cache E :=
  match cache.index with
  | none => cache
  | some index =>
    let (index, engine) := E.setFlags cache.engine index flags
    { cache with engine, index := some index }.note (.setFlags flags)

end UnitCache.Cache
