import Mathlib.Data.List.Nodup
import UnitCache.Proofs.Runs

/-! A unit has one owner. From the parse that makes it to its disposal it is held by a single
entry, whatever fails on the way, and the index outlives all units. -/

namespace UnitCache.Cache
open Proofs Journal

variable {E : Engine} {world : World} {path : Path} {cache final : Cache E}
  {answer : Except CacheError (Option (Entry E))}

/-- The journal accounts for the state, with some entries to hold the units. -/
def Accounts (cache : Cache E) (entries : List (Entry E)) : Prop :=
  Accounted cache.journal cache.index.isSome cache.parsed (entries.map Entry.serial)

namespace Accounts
variable {entries left right : List (Entry E)} {entry : Entry E}

theorem asked {event : Event} (account : Accounts cache entries)
    (unused : event.used? = none) (parseless : event.isParse = false)
    (stays : event.isClosing = false) : Accounts (cache.note event) entries := by
  have uncreated : event.created? = none := by
    cases event <;> first | rfl | cases parseless
  refine Accounted.aside account uncreated unused ?_ stays
  intro parse
  rw [parseless] at parse
  cases parse

theorem used {event : Event} (account : Accounts cache entries) (member : entry ∈ entries)
    (uses : event.used? = some entry.serial) (returned : event.disposed? = none) :
    Accounts (cache.note event) entries :=
  Accounted.used account (List.mem_map_of_mem member) uses returned

theorem afterQueries (account : Accounts cache entries) (path : Path) (arguments : List String)
    (time : Except FileError Timestamp) :
    Accounts (cache.afterQueries path arguments time) entries := by
  have first : Accounts (cache.note (.askArguments path (.ok arguments))) entries :=
    account.asked rfl rfl rfl
  have second : Accounts
      ((cache.note (.askArguments path (.ok arguments))).note (.askModified path time)) entries :=
    first.asked rfl rfl rfl
  simpa [note, Cache.afterQueries] using second

private theorem reparseCalled (account : Accounts cache entries) (member : entry ∈ entries)
    (path : Path) (arguments : List String) (time : Except FileError Timestamp)
    (unsaved : List Buffer) (flags : ReparseFlags) (failure : Option EngineFailure) (engine : E.State) :
    Accounts { cache with
      engine
      journal := (cache.afterQueries path arguments time).journal ++ [.askBuffers (.ok unsaved),
        .readReparseFlags entry.serial, .reparse entry.serial unsaved flags failure] } entries := by
  have queried := account.afterQueries path arguments time
  have buffered : Accounts ((cache.afterQueries path arguments time).note (.askBuffers (.ok unsaved)))
      entries := queried.asked rfl rfl rfl
  have preferred : Accounts (((cache.afterQueries path arguments time).note
      (.askBuffers (.ok unsaved))).note (.readReparseFlags entry.serial)) entries :=
    buffered.used member rfl rfl
  let event : Event := .reparse entry.serial unsaved flags failure
  have called := @Accounted.used _ _ _ _ event entry.serial preferred (List.mem_map_of_mem member)
    rfl rfl
  simpa [Accounts, note] using called

theorem giveBack (account : Accounts cache (left ++ entry :: right)) :
    Accounts (cache.giveBack entry) (left ++ right) := by
  unfold Accounts at account ⊢
  rw [List.map_append, List.map_cons] at account
  rw [List.map_append]
  exact .disposed _ account

private theorem giveBackAll (account : Accounts cache entries) :
    Accounts (entries.foldl Cache.giveBack cache) [] := by
  induction entries generalizing cache with
  | nil => exact account
  | cons entry rest ih => exact ih (@giveBack E cache [] rest entry account)

/-- The next unit has a number that no entry has. -/
theorem unborn (account : Accounts cache entries) :
    ∀ entry ∈ entries, entry.serial ≠ cache.parsed + 1 := by
  intro entry member same
  have balanced := account.balanced
  have made := (balanced.mem_held.mp (List.mem_map_of_mem member)).1
  have bounds := balanced.mem_created.mp made
  omega

end Accounts

theorem eq_of_serial {entry other : Entry E} (account : Accounts cache cache.entries)
    (member : entry ∈ cache.entries) (inside : other ∈ cache.entries)
    (same : entry.serial = other.serial) : entry = other :=
  List.inj_on_of_nodup_map account.balanced.nodup_held member inside same

theorem FullParse.accounts {arguments : List String} {modified : Option Timestamp}
    (full : FullParse world path arguments modified cache answer final)
    (account : Accounts cache cache.entries) : Accounts final final.entries := by
  cases full with
  | unavailable => exact account.asked rfl rfl rfl
  | indexClosed => exact account.asked rfl rfl rfl
  | @failed unsaved index cause _ opened _ =>
    have ready : Accounts ((cache.note (.askBuffers (.ok unsaved))).note .readEditingFlags)
        cache.entries := (account.asked rfl rfl rfl).asked rfl rfl rfl
    let event : Event := .parse (cache.requestFor path arguments unsaved) (.error cause)
    have isOpen : cache.index.isSome = true := by rw [opened]; rfl
    have parsed := @Accounted.aside _ _ _ _ event ready rfl rfl (fun _ => isOpen) rfl
    simpa [Accounts, note] using parsed
  | @parsed unsaved index unit _ opened _ =>
    have ready : Accounts ((cache.note (.askBuffers (.ok unsaved))).note .readEditingFlags)
        cache.entries := (account.asked rfl rfl rfl).asked rfl rfl rfl
    have isOpen : cache.index.isSome = true := by rw [opened]; rfl
    unfold Accounts at ready ⊢
    simp only [note_index, isOpen] at ready ⊢
    simpa [note] using Accounted.parsed (cache.requestFor path arguments unsaved) ready

/-- A unit whose reparse failed is given back. -/
theorem Accounts.spoilt {left right : List (Entry E)} {entry : Entry E}
    (account : Accounts cache cache.entries) (held : cache.entries = left ++ entry :: right)
    (path : Path) (arguments : List String) (time : Except FileError Timestamp)
    (unsaved : List Buffer) (flags : ReparseFlags) (failure : Option EngineFailure)
    (engine : E.State) (unit : E.Parsed) :
    Accounts (Cache.giveBack { cache with
      engine
      entries := left ++ right
      journal := (cache.afterQueries path arguments time).journal ++ [.askBuffers (.ok unsaved),
        .readReparseFlags entry.serial, .reparse entry.serial unsaved flags failure] }
      { entry with unit }) (left ++ right) := by
  have member : entry ∈ cache.entries := by simp [held]
  have called := account.reparseCalled member path arguments time unsaved flags failure engine
  refine Accounts.giveBack ?_
  unfold Accounts at called ⊢
  simpa [held] using called

theorem Refresh.accounts (refresh : Refresh world path cache answer final)
    (account : Accounts cache cache.entries) : Accounts final final.entries := by
  cases refresh with
  | unavailable => exact account.asked rfl rfl rfl
  | absent _ _ full => exact full.accounts (account.afterQueries ..)
  | reused => exact account.afterQueries ..
  | noBuffers => exact (account.afterQueries ..).asked rfl rfl rfl
  | @reparsed arguments time left entry right unsaved flags reply _ held =>
    have member : entry ∈ cache.entries := by simp [held]
    have called := account.reparseCalled member path arguments time unsaved flags none
      reply.state
    unfold Accounts at called ⊢
    simpa [held] using called
  | reparseFailed _ held _ _ _ _ _ _ _ full =>
    exact full.accounts (account.spoilt held ..)
  | @rebuilt arguments time left entry right _ _ _ held _ _ full =>
    have ready := account.afterQueries path arguments time
    rw [held] at ready
    exact full.accounts ready.giveBack

theorem Pass.accounts {header listed : Path} (pass : Pass world header listed cache final)
    (account : Accounts cache cache.entries) : Accounts final final.entries := by
  cases pass with
  | skipped => exact account
  | failed _ refresh => exact refresh.accounts account
  | kept _ refresh =>
    exact (refresh.accounts account).used (refresh.replaced.answered rfl).1 rfl rfl
  | @evicted middle entry _ refresh _ speculative =>
    have last : middle.entries = cache.entries ++ entry :: [] :=
      refresh.replaced.appended rfl speculative
    have asked : Accounts (middle.note (.checkIncludes entry.serial header)) middle.entries :=
      (refresh.accounts account).used (refresh.replaced.answered rfl).1 rfl rfl
    rw [last] at asked
    have evicted := asked.giveBack
    rw [List.append_nil] at evicted
    exact evicted

theorem Passed.accounts {header : Path} {sources : List Path}
    (passed : Passed world header sources cache final)
    (account : Accounts cache cache.entries) : Accounts final final.entries := by
  induction passed with
  | nil => exact account
  | cons pass _ ih => exact ih (pass.accounts account)

private theorem Search.accounts {header : Path} {sources : List Path}
    (search : Search world header sources cache answer final)
    (account : Accounts cache cache.entries) : Accounts final final.entries := by
  cases search with
  | exhausted passed => exact passed.accounts account
  | unavailable _ passed _ refresh => exact refresh.accounts (passed.accounts account)
  | found _ passed _ refresh =>
    have fresh := refresh.accounts (passed.accounts account)
    exact fresh.used (refresh.replaced.answered rfl).1 rfl rfl

theorem Accounts.checks {entries asked : List (Entry E)} (account : Accounts cache entries)
    (among : ∀ entry ∈ asked, entry ∈ entries) (header : Path) :
    Accounts { cache with journal := cache.journal ++ Cache.checks header asked } entries := by
  induction asked generalizing cache with
  | nil => simpa [Cache.checks] using account
  | cons first rest ih =>
    have told : Accounts (cache.note (.checkIncludes first.serial header)) entries :=
      account.used (among first List.mem_cons_self) rfl rfl
    have later := ih told fun entry member => among entry (List.mem_cons_of_mem _ member)
    simpa [Cache.checks, note] using later

private theorem Resolve.accounts {header : Path} (resolve : Resolve world header cache answer final)
    (account : Accounts cache cache.entries) : Accounts final final.entries := by
  have checked : Accounts
      { cache with journal := cache.journal ++ checks header cache.entries } cache.entries :=
    account.checks (fun _ member => member) header
  cases resolve with
  | @cached left entry right held _ _ =>
    refine account.checks ?_ header
    intro other member
    rw [held, List.append_cons]
    exact List.mem_append_left right member
  | unavailable => exact checked.asked rfl rfl rfl
  | searched _ _ search => exact search.accounts (checked.asked rfl rfl rfl)

theorem Serve.accounts (serve : Serve world path cache answer final)
    (account : Accounts cache cache.entries) : Accounts final final.entries := by
  cases serve with
  | source _ refresh => exact refresh.accounts account
  | header _ resolve => exact resolve.accounts account

private theorem Accounts.returned (account : Accounts cache cache.entries) :
    Accounts cache.returned [] := by
  have emptied : Accounts { cache with entries := [] } cache.entries := account
  exact emptied.giveBackAll

theorem Move.accounts (move : Move world cache final) (account : Accounts cache cache.entries) :
    Accounts final final.entries := by
  cases move with
  | idle => exact account
  | served serve => exact serve.accounts account
  | removed removal =>
    cases removal with
    | absent => exact account
    | removed held _ =>
      rw [held] at account
      exact Accounts.giveBack account
  | cleared =>
    rw [entries_returned]
    exact account.returned
  | readFlags => exact account.asked rfl rfl rfl
  | setFlags flags opened =>
    have told : Accounts (cache.note (.setFlags flags)) cache.entries := account.asked rfl rfl rfl
    have isOpen : cache.index.isSome = true := by rw [opened]; rfl
    unfold Accounts at told ⊢
    rw [note_index, isOpen] at told
    exact told
  | @closed index opened =>
    have emptied := account.returned
    have isOpen : cache.returned.index.isSome = true := by rw [index_returned, opened]; rfl
    unfold Accounts at emptied ⊢
    rw [isOpen] at emptied
    rw [entries_returned]
    exact .closed _ _ emptied
  | disturbed => exact account

/-- In every state that a cache can reach, its journal accounts for its entries. -/
theorem run_accounts (engine : E.State) (verbosity : Verbosity)
    (steps : List (World × Operation E)) :
    Accounts ((create engine verbosity : Cache E).run steps).unlogged
      ((create engine verbosity : Cache E).run steps).entries := by
  have kept := @run_invariant E (fun cache => Accounts cache cache.entries) (fun _ => True)
    (create engine verbosity) (fun _ _ move account => move.accounts account)
    List.nodup_nil (Accounted.opened _) steps (fun _ _ => trivial)
  exact kept.2

/-- Whatever a cache is asked to do and whatever fails: every unit is held by one entry until it is
given back, which happens once; no unit is used later, the index is closed once and after all
units, and dropping the cache leaves nothing open. -/
theorem units_given_back_once (engine : E.State) (verbosity : Verbosity)
    (steps : List (World × Operation E)) :
    let cache : Cache E := (create engine verbosity).run steps
    let dropped := cache.close.2
    Lawful cache.journal ∧ Lawful dropped.journal ∧ (created dropped.journal).Nodup ∧
    (∀ serial ∈ created cache.journal,
      ((cache.entries.map Entry.serial).count serial = 1 ∧
        (disposed cache.journal).count serial = 0) ∨
      ((cache.entries.map Entry.serial).count serial = 0 ∧
        (disposed cache.journal).count serial = 1)) ∧
    (∀ serial ∈ created dropped.journal, (disposed dropped.journal).count serial = 1) ∧
    closings dropped.journal = 1 := by
  intro cache dropped
  let anywhere := World.steady [] [] 0 .empty
  -- Dropping a cache closes it, so it is one more operation of the run.
  have last : dropped = (create engine verbosity : Cache E).run (steps ++ [(anywhere, .close)]) := by
    rw [run_append]
    rfl
  have balanced := (run_accounts engine verbosity steps).balanced
  have after := (run_accounts engine verbosity (steps ++ [(anywhere, .close)])).balanced
  rw [← last] at after
  obtain ⟨emptied, closed⟩ := cache.close_left
  change Balanced _ dropped.index.isSome _ (dropped.entries.map Entry.serial) at after
  rw [show dropped.entries = [] from emptied, show dropped.index = none from closed] at after
  refine ⟨lawful_of_trace balanced.lawful, lawful_of_trace after.lawful, ?_, ?_, ?_, ?_⟩
  · simpa using after.nodup_created
  · intro serial made
    simpa using balanced.owned (by simpa using made)
  · intro serial made
    have known : serial ∈ created dropped.unlogged.journal := by simpa using made
    simpa using after.owned known
  · simpa using after.index

end UnitCache.Cache
