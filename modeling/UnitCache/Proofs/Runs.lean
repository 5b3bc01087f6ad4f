import UnitCache.Proofs.Search

/-! Runs of a cache: any operations in any order, each with collaborators of its own, and
an engine that may change by itself in between. What one operation keeps, a run keeps. -/

namespace UnitCache

inductive Operation (E : Engine) where
  | request (path : Path)
  | ensure (path : Path)
  | renew (path : Path)
  | remove (path : Path)
  | clear
  | readFlags
  | setFlags (flags : IndexFlags)
  | close
  | disturb (engine : E.State)

/-- What an operation tells its caller. -/
inductive Reply (Served : Type) where
  | served (answer : Except CacheError (Option Served))
  | done (outcome : Except CacheError Unit)
  | removed (found : Bool)
  | failed (failures : List CacheError)
  | flags (flags : IndexFlags)
  | nothing

def Reply.map {Served Seen : Type} (read : Served → Seen) : Reply Served → Reply Seen
  | .served answer => .served (answer.map (Option.map read))
  | .done outcome => .done outcome
  | .removed found => .removed found
  | .failed failures => .failed failures
  | .flags answer => .flags answer
  | .nothing => .nothing

/-- Collaborators that always answer alike. -/
def World.steady (arguments : List String) (sources : List Path) (time : Timestamp) (disk : Disk) :
    World :=
  ⟨fun _ _ => .ok arguments, fun _ => .ok sources, fun _ => .ok [], fun _ _ => .ok time, disk⟩

namespace Cache
open Proofs

variable {E : Engine}

def perform (cache : Cache E) (world : World) : Operation E → Cache E
  | .request path => (cache.request world path).2
  | .ensure path => (cache.ensure world path).2
  | .renew path => (cache.renew world path).2
  | .remove path => (cache.remove world path).2
  | .clear => cache.clear.2
  | .readFlags => cache.indexFlags.2
  | .setFlags flags => cache.setIndexFlags flags
  | .close => cache.close.2
  | .disturb engine => { cache with engine }

def reply (cache : Cache E) (world : World) : Operation E → Reply (ServedUnit E)
  | .request path => .served (cache.request world path).1
  | .ensure path => .done (cache.ensure world path).1
  | .renew path => .done (cache.renew world path).1
  | .remove path => .removed (cache.remove world path).1
  | .clear => .failed cache.clear.1
  | .readFlags => .flags cache.indexFlags.1
  | .setFlags _ => .nothing
  | .close => .failed cache.close.1
  | .disturb _ => .nothing

def run (cache : Cache E) : List (World × Operation E) → Cache E
  | [] => cache
  | (world, operation) :: rest => (cache.perform world operation).run rest

/-- What the operations of a run tell their callers, in order. -/
def replies (cache : Cache E) : List (World × Operation E) → List (Reply (ServedUnit E))
  | [] => []
  | (world, operation) :: rest =>
    cache.reply world operation :: (cache.perform world operation).replies rest

/-- After every unit has been given back. -/
def returned (cache : Cache E) : Cache E := cache.entries.foldl giveBack { cache with entries := [] }

/-- What one operation can come to. -/
inductive Move (world : World) (cache : Cache E) : Cache E → Prop where
  | idle : Move world cache cache
  | served {path answer final} (serve : Serve world (world.disk.absolute path) cache answer final) :
      Move world cache final
  | removed {path found final} (removal : Removal (world.disk.absolute path) cache found final) :
      Move world cache final
  | cleared : Move world cache cache.returned
  | readFlags : Move world cache (cache.note .readFlags)
  | setFlags {index} (flags : IndexFlags) (opened : cache.index = some index) :
      Move world cache { cache with
        engine := (E.setFlags cache.engine index flags).2
        index := some (E.setFlags cache.engine index flags).1
        journal := cache.journal ++ [.setFlags flags] }
  | closed {index} (opened : cache.index = some index) :
      Move world cache { cache.returned with
        engine := (E.closeIndex cache.returned.engine index).2
        index := none
        journal := cache.returned.journal ++ [.closeIndex (E.flags cache.returned.engine index)
          (E.closeIndex cache.returned.engine index).1] }
  | disturbed (engine : E.State) : Move world cache { cache with engine }

theorem Pass.distinct {world : World} {header listed : Path} {cache final : Cache E}
    (pass : Pass world header listed cache final) (unique : cache.paths.Nodup) :
    final.paths.Nodup := by
  cases pass with
  | skipped => exact unique
  | failed _ refresh => exact refresh.distinct unique
  | kept _ refresh => exact refresh.distinct unique
  | evicted => exact unique

theorem Passed.distinct {world : World} {header : Path} {sources : List Path}
    {cache final : Cache E} (passed : Passed world header sources cache final)
    (unique : cache.paths.Nodup) : final.paths.Nodup := by
  induction passed with
  | nil => exact unique
  | cons pass _ ih => exact ih (pass.distinct unique)

private theorem Search.distinct {world : World} {header : Path} {sources : List Path}
    {cache final : Cache E} {answer : Except CacheError (Option (Entry E))}
    (search : Search world header sources cache answer final) (unique : cache.paths.Nodup) :
    final.paths.Nodup := by
  cases search with
  | exhausted passed => exact passed.distinct unique
  | unavailable _ passed _ refresh => exact refresh.distinct (passed.distinct unique)
  | found _ passed _ refresh => exact refresh.distinct (passed.distinct unique)

private theorem Serve.distinct {world : World} {path : Path} {cache final : Cache E}
    {answer : Except CacheError (Option (Entry E))} (serve : Serve world path cache answer final)
    (unique : cache.paths.Nodup) : final.paths.Nodup := by
  cases serve with
  | source _ refresh => exact refresh.distinct unique
  | header _ resolve =>
    cases resolve with
    | cached => exact unique
    | unavailable => exact unique
    | searched _ _ search => exact search.distinct unique

private theorem entries_foldl_giveBack (entries : List (Entry E)) (cache : Cache E) :
    (entries.foldl giveBack cache).entries = cache.entries := by
  induction entries generalizing cache with
  | nil => rfl
  | cons entry rest ih => exact ih (cache.giveBack entry)

@[simp] theorem entries_returned (cache : Cache E) : cache.returned.entries = [] :=
  entries_foldl_giveBack ..

theorem Move.distinct {world : World} {cache final : Cache E} (move : Move world cache final)
    (unique : cache.paths.Nodup) : final.paths.Nodup := by
  cases move with
  | idle => exact unique
  | served serve => exact serve.distinct unique
  | removed removal =>
    cases removal with
    | absent => exact unique
    | @removed left entry right held _ =>
      rw [paths, held] at unique
      exact distinct_without unique
  | cleared => simp [paths]
  | readFlags => exact unique
  | setFlags => exact unique
  | closed => simp [paths]
  | disturbed => exact unique

private theorem unlogged_disposeAll (cache : Cache E) (entries : List (Entry E)) :
    (cache.disposeAll entries).2.unlogged = entries.foldl giveBack cache.unlogged := by
  induction entries generalizing cache with
  | nil => rfl
  | cons entry rest ih =>
    rw [List.foldl_cons, ← unlogged_dispose]
    exact ih (cache.dispose entry).2

theorem unlogged_clear (cache : Cache E) : cache.clear.2.unlogged = cache.unlogged.returned :=
  unlogged_disposeAll ..

theorem closeIndex_of_none {cache : Cache E} (shut : cache.index = none) :
    cache.closeIndex.2 = cache := by
  simp only [closeIndex, shut]

theorem unlogged_closeIndex {cache : Cache E} {index : E.Index} (opened : cache.index = some index) :
    cache.closeIndex.2.unlogged =
      note { cache.unlogged with
        engine := (E.closeIndex cache.engine index).2
        index := none }
        (.closeIndex (E.flags cache.engine index) (E.closeIndex cache.engine index).1) := by
  have told : ∀ (closed : Cache E) flags failure,
      (closed.note (.closeIndex flags failure)).unlogged =
        closed.unlogged.note (.closeIndex flags failure) := fun closed _ _ => unlogged_note closed rfl
  unfold closeIndex
  cases failure : (E.closeIndex cache.engine index).1 with
  | none => simp only [opened, failure, told]; rfl
  | some cause => simp only [opened, failure, unlogged_report, told]; rfl

private theorem foldl_giveBack_index (entries : List (Entry E)) (cache : Cache E) :
    (entries.foldl giveBack cache).index = cache.index := by
  induction entries generalizing cache with
  | nil => rfl
  | cons entry rest ih => exact ih (cache.giveBack entry)

@[simp] theorem index_returned (cache : Cache E) : cache.returned.index = cache.index :=
  foldl_giveBack_index ..

theorem close_left (cache : Cache E) :
    cache.close.2.entries = [] ∧ cache.close.2.index = none := by
  have cleared : cache.clear.2.entries = [] := by
    rw [← unlogged_entries, unlogged_clear, entries_returned]
  change cache.clear.2.closeIndex.2.entries = [] ∧ cache.clear.2.closeIndex.2.index = none
  cases opened : cache.clear.2.index with
  | none =>
    rw [closeIndex_of_none opened]
    exact ⟨cleared, opened⟩
  | some index =>
    rw [← unlogged_entries, ← unlogged_index, unlogged_closeIndex opened]
    exact ⟨cleared, rfl⟩

private theorem close_move (cache : Cache E) (world : World) :
    Move world cache.unlogged cache.close.2.unlogged := by
  change Move world cache.unlogged cache.clear.2.closeIndex.2.unlogged
  have cleared := unlogged_clear cache
  have engine : cache.clear.2.engine = cache.unlogged.returned.engine := by
    rw [← unlogged_engine, cleared]
  have index : cache.clear.2.index = cache.index := by
    rw [← unlogged_index, cleared, index_returned, unlogged_index]
  cases opened : cache.index with
  | none =>
    rw [closeIndex_of_none (index.trans opened), cleared]
    exact .cleared
  | some handle =>
    rw [unlogged_closeIndex (index.trans opened), cleared, engine]
    exact .closed opened

private theorem request_move (cache : Cache E) (world : World) (path : Path)
    (distinct : cache.paths.Nodup) :
    Move world cache.unlogged (cache.request world path).2.unlogged := by
  obtain ⟨answer, serve, _⟩ := request_serve cache world path distinct
  exact .served serve

theorem perform_move (cache : Cache E) (world : World) (operation : Operation E)
    (distinct : cache.paths.Nodup) :
    Move world cache.unlogged (cache.perform world operation).unlogged := by
  cases operation with
  | request path => exact request_move cache world path distinct
  | ensure path =>
    simp only [perform, ensure]
    split
    · exact .idle
    · exact request_move cache world path distinct
  | renew path =>
    simp only [perform, renew]
    split
    · exact request_move cache world path distinct
    · exact .idle
  | remove path => exact .removed (removeAt_removal distinct (world.disk.absolute path))
  | clear =>
    rw [perform, unlogged_clear]
    exact .cleared
  | readFlags =>
    simp only [perform, indexFlags]
    split
    · exact .idle
    · rw [unlogged_note _ rfl]
      exact .readFlags
  | setFlags flags =>
    simp only [perform, setIndexFlags]
    split
    · exact .idle
    · rename_i index opened
      rw [unlogged_note _ rfl]
      exact .setFlags flags opened
  | close => exact close_move cache world
  | disturb engine => exact .disturbed engine

theorem run_append (cache : Cache E) (first last : List (World × Operation E)) :
    cache.run (first ++ last) = (cache.run first).run last := by
  induction first generalizing cache with
  | nil => rfl
  | cons step rest ih => exact ih (cache.perform step.1 step.2)

/-- A run keeps what every move keeps, and never has two entries of one path. -/
theorem run_invariant {Holds : Cache E → Prop} {Allowed : World → Prop} {cache : Cache E}
    (keeps : ∀ {world before after}, Allowed world → before.paths.Nodup → Move world before after →
      Holds before → Holds after)
    (distinct : cache.paths.Nodup) (start : Holds cache.unlogged)
    (steps : List (World × Operation E)) (allowed : ∀ step ∈ steps, Allowed step.1) :
    (cache.run steps).paths.Nodup ∧ Holds (cache.run steps).unlogged := by
  induction steps generalizing cache with
  | nil => exact ⟨distinct, start⟩
  | cons step rest ih =>
    have unique : cache.unlogged.paths.Nodup := distinct
    have move := perform_move cache step.1 step.2 distinct
    exact ih (move.distinct unique)
      (keeps (allowed step List.mem_cons_self) unique move start)
      fun other member => allowed other (List.mem_cons_of_mem _ member)

theorem run_distinct (engine : E.State) (verbosity : Verbosity) (steps : List (World × Operation E)) :
    ((create engine verbosity : Cache E).run steps).paths.Nodup :=
  (@run_invariant E (fun _ => True) (fun _ => True) (create engine verbosity)
    (fun _ _ _ _ => trivial) List.nodup_nil trivial steps (fun _ _ => trivial)).1

end Cache

end UnitCache
