import UnitCache.Proofs.Representation

/-! Where entries come from. An operation is made of refreshes and of steps that parse nothing, so
whatever those two keep is kept by every run. An entry that is there after a refresh was there
before and was left alone, or was parsed or reparsed in this refresh with what the collaborators
gave. -/

namespace UnitCache

/-- The buffers that a unit was made with, if the event is a parse or reparse that made it. -/
def Event.readWith? (serial : Nat) : Event → Option (List Buffer)
  | .parse request (.ok made) => if made = serial then some request.unsaved else none
  | .reparse used unsaved _ none => if used = serial then some unsaved else none
  | _ => none

namespace Proofs.Journal

/-- The buffers of each parse and reparse that succeeded on a unit. -/
def readings (serial : Nat) (journal : List Event) : List (List Buffer) :=
  journal.filterMap (Event.readWith? serial)

@[simp] theorem readings_append (serial : Nat) (first last : List Event) :
    readings serial (first ++ last) = readings serial first ++ readings serial last :=
  List.filterMap_append

@[simp] theorem readings_trace (serial : Nat) (journal : List Event) :
    readings serial (trace journal) = readings serial journal :=
  filterMap_trace _ (fun _ => rfl) journal

end Proofs.Journal

namespace Cache
open Proofs Journal

variable {E : Engine}

/-- What can become of an index once it is open. -/
inductive Reflagged : Option E.Index → Option E.Index → Prop where
  | same {index} : Reflagged index index
  | closed {index} : Reflagged index none
  | flagged {state index flags} : Reflagged (some index) (some (E.setFlags state index flags).1)

/-- Nothing is parsed or reparsed: entries may go, and none comes. -/
structure Quiet (cache final : Cache E) : Prop where
  entries : ∀ entry ∈ final.entries, entry ∈ cache.entries
  journal : ∃ events, final.journal = cache.journal ++ events ∧ ∀ serial, readings serial events = []
  verbosity : final.verbosity = cache.verbosity
  index : Reflagged cache.index final.index

/-- A way from one state to another. -/
inductive Course (world : World) : Cache E → Cache E → Prop where
  | refl {cache} : Course world cache cache
  | quiet {cache middle final} (earlier : Course world cache middle) (step : Quiet middle final) :
      Course world cache final
  | refreshed {cache middle final path answer} (earlier : Course world cache middle)
      (account : Accounts middle middle.entries)
      (step : Refresh world path middle answer final) : Course world cache final

variable {world : World} {path header listed : Path} {sources : List Path}
  {cache middle final : Cache E} {answer : Except CacheError (Option (Entry E))}
  {entry : Entry E}

private theorem Course.trans (first : Course world cache middle)
    (last : Course world middle final) :
    Course world cache final := by
  induction last with
  | refl => exact first
  | quiet _ step ih => exact .quiet ih step
  | refreshed _ account step ih => exact .refreshed ih account step

private theorem Course.keeps {Holds : Cache E → Prop}
    (quiet : ∀ {before after}, Quiet before after → Holds before → Holds after)
    (refreshed : ∀ {path before answer after}, Accounts before before.entries →
      Refresh world path before answer after → Holds before → Holds after)
    (course : Course world cache final) (start : Holds cache) : Holds final := by
  induction course with
  | refl => exact start
  | quiet _ step ih => exact quiet step ih
  | refreshed _ account step ih => exact refreshed account step ih

private theorem Quiet.noted {event : Event} (silent : ∀ serial, event.readWith? serial = none) :
    Quiet cache (cache.note event) :=
  ⟨fun _ member => member, ⟨_, rfl, fun serial => List.filterMap_cons_none (silent serial)⟩, rfl,
    .same⟩

private theorem Quiet.checked (cache : Cache E) (header : Path) (entries : List (Entry E)) :
    Quiet cache { cache with journal := cache.journal ++ checks header entries } :=
  ⟨fun _ member => member, ⟨_, rfl, fun _ => filterMap_checks _ (fun _ _ => rfl) header entries⟩, rfl,
    .same⟩

private theorem Quiet.givenBack {entries : List (Entry E)}
    (among : ∀ other ∈ entries, other ∈ cache.entries)
    (entry : Entry E) : Quiet cache (giveBack { cache with entries } entry) :=
  ⟨among, ⟨_, rfl, fun _ => rfl⟩, rfl, .same⟩

private theorem foldl_giveBack_course (entries : List (Entry E)) (cache : Cache E) :
    Course world cache (entries.foldl giveBack cache) := by
  induction entries generalizing cache with
  | nil => exact .refl
  | cons entry rest ih =>
    have first : Course world cache (cache.giveBack entry) :=
      .quiet .refl (.givenBack (fun _ member => member) entry)
    exact first.trans (ih _)

private theorem Pass.course (pass : Pass world header listed cache final)
    (account : Accounts cache cache.entries) : Course world cache final := by
  cases pass with
  | skipped => exact .refl
  | failed _ refresh => exact .refreshed .refl account refresh
  | kept _ refresh => exact .quiet (.refreshed .refl account refresh) (.noted fun _ => rfl)
  | @evicted middle entry _ refresh _ speculative =>
    have last : middle.entries = cache.entries ++ [entry] :=
      refresh.replaced.appended rfl speculative
    have checked : Course world cache (middle.note (.checkIncludes entry.serial header)) :=
      .quiet (.refreshed .refl account refresh) (.noted fun _ => rfl)
    exact .quiet checked (.givenBack (fun other member => by simp [last, member]) entry)

private theorem Passed.course (passed : Passed world header sources cache final)
    (account : Accounts cache cache.entries) : Course world cache final := by
  induction passed with
  | nil => exact .refl
  | cons pass _ ih => exact (pass.course account).trans (ih (pass.accounts account))

private theorem Search.course (search : Search world header sources cache answer final)
    (account : Accounts cache cache.entries) : Course world cache final := by
  cases search with
  | exhausted passed => exact passed.course account
  | unavailable _ passed _ refresh =>
    exact .refreshed (passed.course account) (passed.accounts account) refresh
  | found _ passed _ refresh =>
    exact .quiet (.refreshed (passed.course account) (passed.accounts account) refresh)
      (.noted fun _ => rfl)

private theorem Resolve.course (resolve : Resolve world header cache answer final)
    (account : Accounts cache cache.entries) : Course world cache final := by
  have checked : Course world cache
      { cache with journal := cache.journal ++ checks header cache.entries } :=
    .quiet .refl (.checked cache header cache.entries)
  cases resolve with
  | cached => exact .quiet .refl (.checked ..)
  | unavailable => exact .quiet checked (.noted fun _ => rfl)
  | @searched sources _ _ _ _ search =>
    have listing : Course world cache (cache.afterListing header sources) :=
      .quiet checked (.noted fun _ => rfl)
    have asked : Accounts (cache.afterListing header sources) cache.entries :=
      (account.checks (fun _ member => member) header).asked rfl rfl rfl
    exact listing.trans (search.course asked)

private theorem Serve.course (serve : Serve world path cache answer final)
    (account : Accounts cache cache.entries) : Course world cache final := by
  cases serve with
  | source _ refresh => exact .refreshed .refl account refresh
  | header _ resolve => exact resolve.course account

private theorem returned_course (cache : Cache E) : Course world cache cache.returned := by
  have emptied : Course world cache { cache with entries := [] } :=
    .quiet .refl ⟨nofun, ⟨[], (List.append_nil _).symm, fun _ => rfl⟩, rfl, .same⟩
  exact emptied.trans (foldl_giveBack_course ..)

private theorem Move.course (move : Move world cache final)
    (account : Accounts cache cache.entries) :
    Course world cache final := by
  cases move with
  | idle => exact .refl
  | served serve => exact serve.course account
  | removed removal =>
    cases removal with
    | absent => exact .refl
    | @removed left entry right held _ =>
      refine .quiet .refl (.givenBack ?_ entry)
      rw [held]
      exact fun _ member => mem_split member
  | cleared => exact returned_course cache
  | readFlags => exact .quiet .refl (.noted fun _ => rfl)
  | setFlags flags opened =>
    refine .quiet .refl ⟨fun _ member => member, ⟨_, rfl, fun _ => rfl⟩, rfl, ?_⟩
    rw [opened]
    exact .flagged
  | closed =>
    exact .quiet (returned_course cache)
      ⟨fun _ member => member, ⟨_, rfl, fun _ => rfl⟩, rfl, .closed⟩
  | disturbed =>
    exact .quiet .refl
      ⟨fun _ member => member, ⟨[], (List.append_nil _).symm, fun _ => rfl⟩, rfl, .same⟩

/-- What quiet steps and refreshes keep, the rest of a run keeps. -/
theorem run_keeps {Holds : Cache E → Prop} {Allowed : World → Prop}
    (quiet : ∀ {before after}, Quiet before after → Holds before → Holds after)
    (refreshed : ∀ {world path before answer after}, Allowed world →
      Accounts before before.entries → Refresh world path before answer after →
      Holds before → Holds after)
    (engine : E.State) (verbosity : Verbosity) (before since : List (World × Operation E))
    (start : Holds ((create engine verbosity).run before).unlogged)
    (allowed : ∀ step ∈ since, Allowed step.1) :
    Holds ((create engine verbosity).run (before ++ since)).unlogged := by
  have kept := @run_invariant E (fun cache => Accounts cache cache.entries ∧ Holds cache) Allowed
    ((create engine verbosity).run before)
    (fun allowed _ move held => ⟨move.accounts held.1,
      (move.course held.1).keeps quiet (fun account => refreshed allowed account) held.2⟩)
    (run_distinct engine verbosity before) ⟨run_accounts engine verbosity before, start⟩ since allowed
  rw [run_append]
  exact kept.2.2

/-- Where an entry comes from that is there after a refresh. -/
inductive Origin (world : World) (cache : Cache E) (events : List Event) (entry : Entry E) :
    Prop where
  | kept (member : entry ∈ cache.entries) (untouched : readings entry.serial events = []) :
      Origin world cache events entry
  | parsed {state index unsaved flags} (opened : cache.index = some index)
      (read : (readings entry.serial events).getLast? = some unsaved)
      (outcome : (E.parse world.disk state index ⟨entry.path,
        engineArguments cache.verbosity entry.arguments, unsaved, flags⟩).outcome = .ok entry.unit) :
      Origin world cache events entry
  | reparsed {old state unsaved flags reply modified} (member : old ∈ cache.entries)
      (read : (readings entry.serial events).getLast? = some unsaved)
      (replied : reply = E.reparse world.disk state old.unit unsaved flags)
      (succeeded : reply.failure = none)
      (renewed : entry = { old with unit := reply.unit, modified }) :
      Origin world cache events entry

theorem readings_getLast? {serial : Nat} {past events : List Event} {unsaved : List Buffer}
    (read : (readings serial events).getLast? = some unsaved) :
    (readings serial (past ++ events)).getLast? = some unsaved := by
  rw [readings_append, List.getLast?_append, read]
  rfl

/-- What is parsed after part of the entries have gone comes from the state before as well. -/
theorem Origin.after {past events : List Event} (origin : Origin world middle events entry)
    (among : ∀ other ∈ middle.entries, other ∈ cache.entries)
    (untouched : ∀ other ∈ middle.entries, readings other.serial past = [])
    (tier : middle.verbosity = cache.verbosity) (index : middle.index = cache.index) :
    Origin world cache (past ++ events) entry := by
  cases origin with
  | kept member still =>
    refine .kept (among entry member) ?_
    rw [readings_append, untouched entry member, still]
    rfl
  | parsed opened read outcome =>
    rw [tier] at outcome
    exact .parsed (index ▸ opened) (readings_getLast? read) outcome
  | reparsed member read replied succeeded renewed =>
    exact .reparsed (among _ member) (readings_getLast? read) replied succeeded renewed

private theorem FullParse.origin {arguments : List String} {modified : Option Timestamp}
    (full : FullParse world path arguments modified cache answer final)
    (unborn : ∀ entry ∈ cache.entries, entry.serial ≠ cache.parsed + 1) :
    ∃ events, final.journal = cache.journal ++ events ∧
      ∀ entry ∈ final.entries, Origin world cache events entry := by
  cases full with
  | unavailable => exact ⟨_, rfl, fun _ member => .kept member rfl⟩
  | indexClosed => exact ⟨_, rfl, fun _ member => .kept member rfl⟩
  | failed => exact ⟨_, rfl, fun _ member => .kept member rfl⟩
  | parsed _ opened outcome =>
    refine ⟨_, rfl, fun entry member => ?_⟩
    rcases List.mem_append.mp member with old | new
    · refine .kept old ?_
      simp [readings, Event.readWith?, (unborn entry old).symm]
    · obtain rfl := List.mem_singleton.mp new
      exact .parsed opened (by simp [readings, Event.readWith?, requestFor]) outcome

/-- No other entry is touched by the reparse of one. -/
theorem readings_reparse {left right : List (Entry E)} {other : Entry E}
    (distinct : ((left ++ entry :: right).map Entry.serial).Nodup) (beside : other ∈ left ++ right)
    (unsaved : List Buffer) (flags : ReparseFlags) :
    readings other.serial [.reparse entry.serial unsaved flags none] = [] := by
  have differs : entry.serial ≠ other.serial := (apart_of_distinct distinct other beside).symm
  simp [readings, Event.readWith?, differs]

theorem Refresh.origin (refresh : Refresh world path cache answer final)
    (account : Accounts cache cache.entries) :
    ∃ events, final.journal = cache.journal ++ events ∧
      ∀ entry ∈ final.entries, Origin world cache events entry := by
  have unborn := account.unborn
  cases refresh with
  | unavailable => exact ⟨_, rfl, fun _ member => .kept member rfl⟩
  | reused => exact ⟨_, rfl, fun _ member => .kept member rfl⟩
  | noBuffers => exact ⟨_, List.append_assoc .., fun _ member => .kept member rfl⟩
  | absent _ _ full =>
    obtain ⟨events, journal, origin⟩ := full.origin unborn
    refine ⟨_, journal.trans (List.append_assoc ..), fun entry member => ?_⟩
    exact (origin entry member).after (fun _ held => held) (fun _ _ => rfl) rfl rfl
  | @reparsed arguments time left entry right unsaved flags reply _ held _ _ _ _ _ replied
      succeeded =>
    have distinct := account.balanced.nodup_held
    rw [held] at distinct
    refine ⟨_, List.append_assoc .., fun other member => ?_⟩
    by_cases same : other = { entry with unit := reply.unit, modified := time.toOption }
    · refine .reparsed (by simp [held]) ?_ replied succeeded same
      simp [same, readings, Event.readWith?]
    · have beside : other ∈ left ++ right := by simpa [same] using member
      exact .kept (held ▸ mem_split beside) (readings_reparse distinct beside unsaved flags)
  | @reparseFailed arguments time left entry right unsaved flags reply cause _ _ _ held _ _ _ _ _ _ _
      full =>
    rw [held] at unborn
    obtain ⟨events, journal, origin⟩ :=
      full.origin fun other member => unborn other (mem_split member)
    -- A reparse that failed read nothing into a unit that is kept, so no entry is touched by it.
    refine ⟨[.askArguments path (.ok arguments), .askModified path time, .askBuffers (.ok unsaved),
      .readReparseFlags entry.serial, .reparse entry.serial unsaved flags (some cause),
      .dispose entry.serial (E.dispose reply.state reply.unit).1] ++ events, ?_,
      fun other member => (origin other member).after ?_ (fun _ _ => rfl) rfl rfl⟩
    · rw [journal]
      simp [giveBack]
    · rw [held]
      exact fun _ kept => mem_split kept
  | @rebuilt arguments time left entry right _ _ _ held _ _ full =>
    rw [held] at unborn
    obtain ⟨events, journal, origin⟩ :=
      full.origin fun other member => unborn other (mem_split member)
    refine ⟨[.askArguments path (.ok arguments), .askModified path time,
      .dispose entry.serial (E.dispose cache.engine entry.unit).1] ++ events, ?_,
      fun other member => (origin other member).after ?_ (fun _ _ => rfl) rfl rfl⟩
    · rw [journal]
      simp [giveBack]
    · rw [held]
      exact fun _ kept => mem_split kept

private theorem FullParse.setting {arguments : List String} {modified : Option Timestamp}
    (full : FullParse world path arguments modified cache answer final) :
    final.verbosity = cache.verbosity ∧ final.index = cache.index := by
  cases full <;> exact ⟨rfl, rfl⟩

theorem Refresh.setting (refresh : Refresh world path cache answer final) :
    final.verbosity = cache.verbosity ∧ final.index = cache.index := by
  cases refresh with
  | unavailable => exact ⟨rfl, rfl⟩
  | reused => exact ⟨rfl, rfl⟩
  | noBuffers => exact ⟨rfl, rfl⟩
  | reparsed => exact ⟨rfl, rfl⟩
  | absent _ _ full => exact full.setting
  | reparseFailed _ _ _ _ _ _ _ _ _ full => exact full.setting
  | rebuilt _ _ _ _ full => exact full.setting

end Cache

end UnitCache
