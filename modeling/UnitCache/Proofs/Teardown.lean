import UnitCache.Engine.Scripted
import UnitCache.Proofs.UnitLifecycle

/-! The end of a cache. Clearing gives every unit back, in the order of the cache, and no failure
stops it. Closing gives back the index as well, and from then on neither entries nor an index can
come back: whatever is asked for finds nothing to work with, and only collaborators are still
asked. -/

namespace UnitCache

/-- Whether the event is a call of the engine; the others are questions and log lines. -/
def Event.isCall : Event → Bool
  | .askArguments .. | .askSources _ | .askBuffers _ | .askModified .. | .log _ => false
  | _ => true

namespace Proofs.Journal

def calls (journal : List Event) : List Event := journal.filter Event.isCall

@[simp] theorem calls_trace (journal : List Event) : calls (trace journal) = calls journal := by
  rw [calls, trace, List.filter_filter]
  apply List.filter_congr
  intro event _
  cases event <;> rfl

end Proofs.Journal

/-- Replies that hold nothing: no unit, no flag and no failure but that a collaborator is
unavailable. -/
inductive Reply.Empty {Served : Type} : Reply Served → Prop where
  | unserved : Empty (.served (.ok none))
  | unavailable {collaborator reason} : Empty (.served (.error (.unavailable collaborator reason)))
  | done : Empty (.done (.ok ()))
  | refused {collaborator reason} : Empty (.done (.error (.unavailable collaborator reason)))
  | missing : Empty (.removed false)
  | settled : Empty (.failed [])
  | unflagged : Empty (.flags .none)
  | nothing : Empty .nothing

namespace Cache
open Proofs Journal

variable {E : Engine} {world : World} {path header listed : Path} {sources : List Path}
  {cache middle final : Cache E} {answer : Except CacheError (Option (Entry E))}

/-- What the engine says to the disposals of units one after the other. -/
def disposals (engine : E.State) : List (Entry E) → List (Entry E × Option EngineFailure)
  | [] => []
  | entry :: rest =>
    (entry, (E.dispose engine entry.unit).1) :: disposals (E.dispose engine entry.unit).2 rest

def disposalCalls (disposed : List (Entry E × Option EngineFailure)) : List Event :=
  disposed.map fun (entry, failure) => .dispose entry.serial failure

def disposalErrors (disposed : List (Entry E × Option EngineFailure)) : List CacheError :=
  disposed.filterMap fun (entry, failure) => failure.map (.disposeFailed entry.path)

/-- What the engine says to the closing of an index, if there is one, with the flags it had. -/
def closing (engine : E.State) (index : Option E.Index) :
    List (IndexFlags × Option EngineFailure) :=
  (index.map fun index => (E.flags engine index, (E.closeIndex engine index).1)).toList

def closingCalls (closed : List (IndexFlags × Option EngineFailure)) : List Event :=
  closed.map fun (flags, failure) => .closeIndex flags failure

def closingErrors (closed : List (IndexFlags × Option EngineFailure)) : List CacheError :=
  closed.filterMap fun (_, failure) => failure.map (.disposeFailed ⟨""⟩)

private theorem map_fst_disposals (engine : E.State) (entries : List (Entry E)) :
    (disposals engine entries).map Prod.fst = entries := by
  induction entries generalizing engine with
  | nil => rfl
  | cons entry rest ih => exact congrArg (entry :: ·) (ih (E.dispose engine entry.unit).2)

private theorem journal_foldl_giveBack (entries : List (Entry E)) (cache : Cache E) :
    (entries.foldl giveBack cache).journal =
      cache.journal ++ disposalCalls (disposals cache.engine entries) := by
  induction entries generalizing cache with
  | nil => exact (List.append_nil _).symm
  | cons entry rest ih =>
    rw [List.foldl_cons, ih (cache.giveBack entry)]
    exact List.append_assoc ..

private theorem dispose_engine (cache : Cache E) (entry : Entry E) :
    (cache.dispose entry).2.engine = (E.dispose cache.engine entry.unit).2 := by
  rw [← unlogged_engine, unlogged_dispose]
  rfl

private theorem dispose_error (cache : Cache E) (entry : Entry E) :
    (cache.dispose entry).1 =
      (E.dispose cache.engine entry.unit).1.map (.disposeFailed entry.path) := by
  unfold dispose
  cases failure : (E.dispose cache.engine entry.unit).1 with
  | none => simp only [failure, Option.map_none]
  | some cause => simp only [failure, Option.map_some]

private theorem disposeAll_errors (entries : List (Entry E)) (cache : Cache E) :
    (cache.disposeAll entries).1 = disposalErrors (disposals cache.engine entries) := by
  induction entries generalizing cache with
  | nil => rfl
  | cons entry rest ih =>
    have later := ih (cache.dispose entry).2
    rw [dispose_engine] at later
    change (cache.dispose entry).1.toList ++ ((cache.dispose entry).2.disposeAll rest).1 = _
    rw [later, dispose_error]
    simp only [disposals, disposalErrors, List.filterMap_cons]
    cases (E.dispose cache.engine entry.unit).1 with
    | none => rfl
    | some cause => rfl

private theorem clear_journal (cache : Cache E) :
    cache.clear.2.unlogged.journal =
      cache.unlogged.journal ++ disposalCalls (disposals cache.engine cache.entries) := by
  rw [unlogged_clear]
  exact journal_foldl_giveBack cache.entries { cache.unlogged with entries := [] }

private theorem clear_index (cache : Cache E) : cache.clear.2.index = cache.index := by
  rw [← unlogged_index, unlogged_clear, index_returned, unlogged_index]

private theorem closeIndex_error (cache : Cache E) :
    cache.closeIndex.1.toList = closingErrors (closing cache.engine cache.index) := by
  unfold closeIndex
  cases opened : cache.index with
  | none => rfl
  | some index =>
    cases failure : (E.closeIndex cache.engine index).1 with
    | none => simp [failure, closing, closingErrors]
    | some cause => simp [failure, closing, closingErrors]

private theorem closeIndex_journal (cache : Cache E) :
    cache.closeIndex.2.unlogged.journal =
      cache.unlogged.journal ++ closingCalls (closing cache.engine cache.index) := by
  cases opened : cache.index with
  | none =>
    rw [closeIndex_of_none opened]
    exact (List.append_nil _).symm
  | some index =>
    rw [unlogged_closeIndex opened]
    rfl

/-- Nothing is left to work with. -/
structure Closed (cache : Cache E) : Prop where
  entries : cache.entries = []
  index : cache.index = none

/-- Only collaborators were asked. -/
structure OnlyAsked (cache final : Cache E) : Prop where
  engine : final.engine = cache.engine
  entries : final.entries = cache.entries
  index : final.index = cache.index
  calls : calls final.journal = calls cache.journal

private theorem OnlyAsked.refl (cache : Cache E) : OnlyAsked cache cache := ⟨rfl, rfl, rfl, rfl⟩

private theorem OnlyAsked.trans (first : OnlyAsked cache middle) (last : OnlyAsked middle final) :
    OnlyAsked cache final :=
  ⟨last.engine.trans first.engine, last.entries.trans first.entries, last.index.trans first.index,
    last.calls.trans first.calls⟩

private theorem OnlyAsked.closed (asked : OnlyAsked cache final) (closed : Closed cache) :
    Closed final :=
  ⟨asked.entries.trans closed.entries, asked.index.trans closed.index⟩

/-- No entry is answered, and an error is that of a collaborator. -/
def Unserved (answer : Except CacheError (Option (Entry E))) : Prop :=
  answer = .ok none ∨ ∃ collaborator reason, answer = .error (.unavailable collaborator reason)

private theorem not_unserved (entry : Entry E) : ¬Unserved (.ok (some entry)) := by
  rintro (same | ⟨_, _, same⟩) <;> cases same

namespace Closed
variable (closed : Closed cache)
include closed

private theorem fullParse {arguments : List String} {modified : Option Timestamp}
    (full : FullParse world path arguments modified cache answer final) :
    OnlyAsked cache final ∧ Unserved answer := by
  cases full with
  | unavailable => exact ⟨⟨rfl, rfl, rfl, by simp [calls, Event.isCall]⟩, .inr ⟨_, _, rfl⟩⟩
  | indexClosed => exact ⟨⟨rfl, rfl, rfl, by simp [calls, Event.isCall]⟩, .inl rfl⟩
  | failed _ opened => cases closed.index.symm.trans opened
  | parsed _ opened => cases closed.index.symm.trans opened

/-- There is no entry to reuse, reparse or rebuild, and no index to parse in. -/
theorem refresh (refresh : Refresh world path cache answer final) :
    OnlyAsked cache final ∧ Unserved answer := by
  have absent : ∀ {left right : List (Entry E)} {entry : Entry E},
      cache.entries ≠ left ++ entry :: right := by
    intro left right entry held
    simp [closed.entries] at held
  cases refresh with
  | unavailable => exact ⟨⟨rfl, rfl, rfl, by simp [calls, Event.isCall]⟩, .inr ⟨_, _, rfl⟩⟩
  | @absent arguments time _ _ _ _ full =>
    have queried : OnlyAsked cache (cache.afterQueries path arguments time) :=
      ⟨rfl, rfl, rfl, by simp [calls, Event.isCall]⟩
    obtain ⟨asked, unserved⟩ := (queried.closed closed).fullParse full
    exact ⟨queried.trans asked, unserved⟩
  | reused _ held => exact absurd held absent
  | noBuffers _ held => exact absurd held absent
  | reparsed _ held => exact absurd held absent
  | reparseFailed _ held => exact absurd held absent
  | rebuilt _ held => exact absurd held absent

private theorem pass (pass : Pass world header listed cache final) : OnlyAsked cache final := by
  cases pass with
  | skipped => exact .refl cache
  | failed _ refresh => exact (closed.refresh refresh).1
  | kept _ refresh => exact absurd (closed.refresh refresh).2 (not_unserved _)
  | evicted _ refresh => exact absurd (closed.refresh refresh).2 (not_unserved _)

private theorem passed (passed : Passed world header sources cache final) :
    OnlyAsked cache final := by
  induction passed with
  | nil => exact .refl _
  | cons pass _ ih =>
    have first := closed.pass pass
    exact first.trans (ih (first.closed closed))

private theorem search (search : Search world header sources cache answer final) :
    OnlyAsked cache final ∧ Unserved answer := by
  cases search with
  | exhausted passed => exact ⟨closed.passed passed, .inl rfl⟩
  | unavailable _ passed _ refresh =>
    have first := closed.passed passed
    obtain ⟨last, unserved⟩ := (first.closed closed).refresh refresh
    exact ⟨first.trans last, unserved⟩
  | found _ passed _ refresh =>
    have still := (closed.passed passed).closed closed
    exact absurd (still.refresh refresh).2 (not_unserved _)

private theorem resolve (resolve : Resolve world header cache answer final) :
    OnlyAsked cache final ∧ Unserved answer := by
  have unchecked : checks header cache.entries = [] := by rw [closed.entries]; rfl
  cases resolve with
  | cached held => simp [closed.entries] at held
  | unavailable =>
    exact ⟨⟨rfl, rfl, rfl, by simp [unchecked, calls, Event.isCall]⟩, .inr ⟨_, _, rfl⟩⟩
  | @searched sources _ _ _ _ search =>
    have listing : OnlyAsked cache (cache.afterListing header sources) :=
      ⟨rfl, rfl, rfl, by simp [afterListing, unchecked, calls, Event.isCall]⟩
    obtain ⟨asked, unserved⟩ := (listing.closed closed).search search
    exact ⟨listing.trans asked, unserved⟩

private theorem serve (serve : Serve world path cache answer final) :
    OnlyAsked cache final ∧ Unserved answer := by
  cases serve with
  | source _ refresh => exact closed.refresh refresh
  | header _ resolve => exact closed.resolve resolve

private theorem unlogged : Closed cache.unlogged := ⟨closed.entries, closed.index⟩

private theorem contains (disk : Disk) (path : Path) : cache.contains disk path = false := by
  simp [Cache.contains, get?, entry?, closed.entries]

private theorem request (world : World) (path : Path) :
    OnlyAsked cache.unlogged (cache.request world path).2.unlogged ∧
    ((cache.request world path).1 = .ok none ∨
      ∃ collaborator reason,
        (cache.request world path).1 = .error (.unavailable collaborator reason)) := by
  have distinct : cache.paths.Nodup := by simp [paths, closed.entries]
  obtain ⟨result, serve, told⟩ := request_serve cache world path distinct
  obtain ⟨asked, unserved⟩ := closed.unlogged.serve serve
  refine ⟨asked, ?_⟩
  rw [told]
  rcases unserved with rfl | ⟨collaborator, reason, rfl⟩
  · exact .inl rfl
  · exact .inr ⟨collaborator, reason, rfl⟩

private theorem clear : cache.clear = ([], cache) := by
  obtain ⟨engine, index, entries, verbosity, parsed, journal⟩ := cache
  obtain rfl : entries = [] := closed.entries
  rfl

private theorem close : cache.close = ([], cache) := by
  simp only [Cache.close, closed.clear, closeIndex, closed.index]
  rfl

/-- An operation on a closed cache does nothing that the engine could notice. -/
theorem perform (world : World) (operation : Operation E)
    (undisturbed : ∀ engine, operation ≠ .disturb engine) :
    OnlyAsked cache.unlogged (cache.perform world operation).unlogged := by
  cases operation with
  | request path => exact (closed.request world path).1
  | ensure path =>
    simp only [Cache.perform, ensure, closed.contains]
    exact (closed.request world path).1
  | renew path =>
    simp only [Cache.perform, renew, closed.contains]
    exact .refl _
  | remove path =>
    simp only [Cache.perform, remove, removeAt, entry?, closed.entries]
    exact .refl _
  | clear =>
    simp only [Cache.perform, closed.clear]
    exact .refl _
  | readFlags =>
    simp only [Cache.perform, indexFlags, closed.index]
    exact .refl _
  | setFlags flags =>
    simp only [Cache.perform, setIndexFlags, closed.index]
    exact .refl _
  | close =>
    simp only [Cache.perform, closed.close]
    exact .refl _
  | disturb engine => exact absurd rfl (undisturbed engine)

private theorem reply (world : World) (operation : Operation E) :
    (cache.reply world operation).Empty := by
  cases operation with
  | request path =>
    simp only [Cache.reply]
    rcases (closed.request world path).2 with same | ⟨_, _, same⟩
    · exact same ▸ .unserved
    · exact same ▸ .unavailable
  | ensure path =>
    simp only [Cache.reply, ensure, closed.contains]
    rcases (closed.request world path).2 with same | ⟨_, _, same⟩
    · simp only [same]
      exact .done
    · simp only [same]
      exact .refused
  | renew path =>
    simp only [Cache.reply, renew, closed.contains]
    exact .done
  | remove path =>
    simp only [Cache.reply, remove, removeAt, entry?, closed.entries]
    exact .missing
  | clear =>
    simp only [Cache.reply, closed.clear]
    exact .settled
  | readFlags =>
    simp only [Cache.reply, indexFlags, closed.index]
    exact .unflagged
  | setFlags flags => exact .nothing
  | close =>
    simp only [Cache.reply, closed.close]
    exact .settled
  | disturb engine => exact .nothing

private theorem run (later : List (World × Operation E)) :
    Closed (cache.run later) ∧ calls (cache.run later).journal = calls cache.journal := by
  induction later generalizing cache with
  | nil => exact ⟨closed, rfl⟩
  | cons step rest ih =>
    obtain ⟨world, operation⟩ := step
    have kept : Closed (cache.perform world operation) ∧
        calls (cache.perform world operation).journal = calls cache.journal := by
      by_cases undisturbed : ∀ engine, operation ≠ .disturb engine
      · have asked := closed.perform world operation undisturbed
        have still := asked.closed closed.unlogged
        exact ⟨⟨still.entries, still.index⟩, by simpa using asked.calls⟩
      · obtain ⟨engine, rfl⟩ : ∃ engine, operation = .disturb engine := by simpa using undisturbed
        exact ⟨⟨closed.entries, closed.index⟩, rfl⟩
    obtain ⟨still, silent⟩ := ih kept.1
    exact ⟨still, silent.trans kept.2⟩

end Closed

/-- Clearing gives each unit back once and in order, and tells of every failure; closing gives the
index back after them. After that no operation calls the engine or finds anything. -/
theorem teardown_is_complete_and_final (engine : E.State) (verbosity : Verbosity)
    (steps : List (World × Operation E)) :
    let cache : Cache E := (create engine verbosity).run steps
    let disposed := disposals cache.engine cache.entries
    let closed := closing cache.clear.2.engine cache.index
    disposed.map Prod.fst = cache.entries ∧ (cache.entries.map Entry.serial).Nodup ∧
    cache.clear.1 = disposalErrors disposed ∧ cache.clear.2.entries = [] ∧
    cache.clear.2.unlogged.journal = cache.unlogged.journal ++ disposalCalls disposed ∧
    cache.close.1 = disposalErrors disposed ++ closingErrors closed ∧
    cache.close.2.unlogged.journal =
      cache.unlogged.journal ++ disposalCalls disposed ++ closingCalls closed ∧
    ∀ later : List (World × Operation E),
      let shut := cache.close.2.run later
      Closed shut ∧ calls shut.journal = calls cache.close.2.journal ∧
      ∀ (world : World) (operation : Operation E),
        (shut.reply world operation).Empty ∧
        ((∀ engine, operation ≠ .disturb engine) →
          (shut.perform world operation).engine = shut.engine) := by
  intro cache disposed closed
  have balanced := (run_accounts engine verbosity steps).balanced
  have errors : cache.clear.1 = disposalErrors disposed := disposeAll_errors ..
  have told := clear_journal cache
  have emptied : cache.clear.2.entries = [] := by
    rw [← unlogged_entries, unlogged_clear, entries_returned]
  refine ⟨map_fst_disposals .., balanced.nodup_held, errors, emptied, told, ?_, ?_, ?_⟩
  · change cache.clear.1 ++ cache.clear.2.closeIndex.1.toList = _
    rw [errors, closeIndex_error, clear_index]
  · change cache.clear.2.closeIndex.2.unlogged.journal = _
    rw [closeIndex_journal, told, clear_index]
  · intro later shut
    obtain ⟨none, gone⟩ := cache.close_left
    obtain ⟨still, silent⟩ := Closed.run ⟨none, gone⟩ later
    refine ⟨still, silent, fun world operation => ⟨still.reply world operation, ?_⟩⟩
    intro undisturbed
    exact (still.perform world operation undisturbed).engine

example :
    let script : Scripted.Script :=
      { Scripted.Script.empty with failingDisposals := [⟨"/a.c"⟩], failingClose := true }
    let world := World.steady [] [] 0 .empty
    let cache : Cache Scripted.engine :=
      (create script .quiet).run [(world, .request ⟨"a.c"⟩), (world, .request ⟨"b.c"⟩)]
    cache.close.1 = [.disposeFailed ⟨"/a.c"⟩ ⟨3, "scripted dispose failure"⟩,
      .disposeFailed ⟨""⟩ ⟨4, "scripted index failure"⟩] ∧
    cache.close.2.paths = [] := by
  decide +kernel

end Cache

end UnitCache
