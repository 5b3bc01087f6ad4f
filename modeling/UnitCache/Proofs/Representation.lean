import UnitCache.Engine.Scripted
import UnitCache.Proofs.UnitLifecycle

/-! What an entry stands for: the unit that a parse of its own path with its own arguments
made, last reparsed with success. Reuse is sound only because neither ever drifts away
from what the unit was parsed with. -/

namespace UnitCache

/-- Whether a parse or reparse of a unit succeeded, if the event is one. -/
def Event.attempt? (serial : Nat) : Event → Option Bool
  | .parse _ (.ok made) => if made = serial then some true else none
  | .reparse used _ _ failure => if used = serial then some failure.isNone else none
  | _ => none

namespace Proofs.Journal

def attempts (serial : Nat) (journal : List Event) : List Bool :=
  journal.filterMap (Event.attempt? serial)

@[simp] theorem attempts_append (serial : Nat) (first last : List Event) :
    attempts serial (first ++ last) = attempts serial first ++ attempts serial last :=
  List.filterMap_append

@[simp] theorem attempts_trace (serial : Nat) (journal : List Event) :
    attempts serial (trace journal) = attempts serial journal :=
  filterMap_trace _ (fun _ => rfl) journal

end Proofs.Journal

/-- The units that a parse for a request can make, and reparses that succeed can make of them. -/
inductive MadeBy {E : Engine} (request : ParseRequest) : E.Parsed → Prop where
  | parsed {disk state index unit}
      (outcome : (E.parse disk state index request).outcome = .ok unit) : MadeBy request unit
  | reparsed {disk state unit unsaved flags} (made : MadeBy request unit)
      (succeeded : (E.reparse disk state unit unsaved flags).failure = none) :
      MadeBy request (E.reparse disk state unit unsaved flags).unit

namespace Cache
open Proofs Journal CanonicalPath

variable {E : Engine} {world : World} {path : Path} {cache final : Cache E}
  {answer : Except CacheError (Option (Entry E))} {verbosity : Verbosity}

/-- What a cached entry stands for. -/
structure Genuine (verbosity : Verbosity) (journal : List Event) (entry : Entry E) : Prop where
  canonical : IsCanonical entry.path
  source : (FileRole.ofPath entry.path).isSource = true
  made : ∃ request, .parse request (.ok entry.serial) ∈ journal ∧ request.path = entry.path ∧
    request.arguments = entry.arguments ++ (if verbosity = .trace then ["-v"] else []) ∧
    MadeBy request entry.unit
  succeeded : (attempts entry.serial journal).getLast? = some true

structure Valid (verbosity : Verbosity) (cache : Cache E) (entries : List (Entry E)) : Prop where
  tier : cache.verbosity = verbosity
  account : Accounts cache entries
  genuine : ∀ entry ∈ entries, Genuine verbosity cache.journal entry

private theorem Genuine.later {journal events : List Event} {entry : Entry E}
    (genuine : Genuine verbosity journal entry) (unrelated : attempts entry.serial events = []) :
    Genuine verbosity (journal ++ events) entry := by
  obtain ⟨request, member, made⟩ := genuine.made
  refine ⟨genuine.canonical, genuine.source, ⟨request, List.mem_append_left _ member, made⟩, ?_⟩
  rw [attempts_append, unrelated, List.append_nil]
  exact genuine.succeeded

private theorem Genuine.reparsed {journal events : List Event} {entry : Entry E} {disk : Disk}
    {state : E.State} {unsaved : List Buffer} {flags : ReparseFlags}
    (genuine : Genuine verbosity journal entry) (attempted : attempts entry.serial events = [true])
    (modified : Option Timestamp)
    (succeeded : (E.reparse disk state entry.unit unsaved flags).failure = none) :
    Genuine verbosity (journal ++ events)
      { entry with unit := (E.reparse disk state entry.unit unsaved flags).unit, modified } := by
  obtain ⟨request, member, key, arguments, made⟩ := genuine.made
  have still : MadeBy request (E.reparse disk state entry.unit unsaved flags).unit :=
    .reparsed made succeeded
  refine ⟨genuine.canonical, genuine.source,
    ⟨request, List.mem_append_left _ member, key, arguments, still⟩, ?_⟩
  rw [attempts_append, attempted, List.getLast?_append]
  rfl

private theorem engineArguments_eq (verbosity : Verbosity) (arguments : List String) :
    engineArguments verbosity arguments =
      arguments ++ (if verbosity = .trace then ["-v"] else []) := by
  cases verbosity with
  | quiet => exact (List.append_nil _).symm
  | verbose => exact (List.append_nil _).symm
  | trace => rfl

namespace Valid
variable {entries left right : List (Entry E)} {entry : Entry E}

/-- A state stays valid while the journal grows by what concerns no entry that is kept. -/
theorem later {kept : List (Entry E)} {events : List Event} (valid : Valid verbosity cache entries)
    (account : Accounts final kept) (tier : final.verbosity = cache.verbosity)
    (journal : final.journal = cache.journal ++ events) (among : ∀ entry ∈ kept, entry ∈ entries)
    (unrelated : ∀ entry ∈ kept, attempts entry.serial events = []) : Valid verbosity final kept := by
  refine ⟨tier.trans valid.tier, account, ?_⟩
  intro entry member
  rw [journal]
  exact (valid.genuine entry (among entry member)).later (unrelated entry member)

private theorem asked {event : Event} (valid : Valid verbosity cache entries)
    (unused : event.used? = none) (parseless : event.isParse = false)
    (stays : event.isClosing = false) : Valid verbosity (cache.note event) entries := by
  have account := valid.account.asked unused parseless stays
  refine valid.later account rfl rfl (fun _ member => member) fun entry _ => ?_
  cases event with
  | parse => cases parseless
  | reparse => cases unused
  | _ => rfl

/-- Which entries a state lists does not matter, only which hold the units. -/
theorem listing (valid : Valid verbosity cache entries) (others : List (Entry E)) :
    Valid verbosity { cache with entries := others } entries :=
  ⟨valid.tier, valid.account, valid.genuine⟩

private theorem checked (valid : Valid verbosity cache entries) (member : entry ∈ entries)
    (header : Path) :
    Valid verbosity (cache.note (.checkIncludes entry.serial header)) entries :=
  valid.later (valid.account.used member rfl rfl) rfl rfl (fun _ held => held) fun _ _ => rfl

private theorem giveBack (valid : Valid verbosity cache (left ++ entry :: right)) :
    Valid verbosity (cache.giveBack entry) (left ++ right) :=
  valid.later valid.account.giveBack rfl rfl (fun _ member => mem_split member) fun _ _ => rfl

private theorem giveBackAll (valid : Valid verbosity cache entries) :
    Valid verbosity (entries.foldl Cache.giveBack cache) [] := by
  induction entries generalizing cache with
  | nil => exact valid
  | cons entry rest ih => exact ih (@giveBack E cache verbosity [] rest entry valid)

private theorem afterQueries (valid : Valid verbosity cache entries) (path : Path)
    (arguments : List String) (time : Except FileError Timestamp) :
    Valid verbosity (cache.afterQueries path arguments time) entries :=
  valid.later (valid.account.afterQueries path arguments time) rfl rfl (fun _ member => member)
    fun _ _ => rfl

private theorem apart (valid : Valid verbosity cache (left ++ entry :: right)) :
    ∀ other ∈ left ++ right, other.serial ≠ entry.serial :=
  apart_of_distinct valid.account.balanced.nodup_held

end Valid

private theorem FullParse.valid {arguments : List String} {modified : Option Timestamp}
    (full : FullParse world path arguments modified cache answer final)
    (canonical : IsCanonical path) (source : (FileRole.ofPath path).isSource = true)
    (valid : Valid verbosity cache cache.entries) : Valid verbosity final final.entries := by
  have account := full.accounts valid.account
  cases full with
  | unavailable => exact valid.asked rfl rfl rfl
  | indexClosed => exact valid.asked rfl rfl rfl
  | failed => exact valid.later account rfl rfl (fun _ member => member) fun _ _ => rfl
  | @parsed unsaved index unit _ opened outcome =>
    refine ⟨valid.tier, account, ?_⟩
    intro entry member
    rcases List.mem_append.mp member with old | new
    · have other : cache.parsed + 1 ≠ entry.serial := (valid.account.unborn entry old).symm
      exact (valid.genuine entry old).later
        (by simp [attempts, Event.attempt?, List.filterMap_cons, other])
    · obtain rfl := List.mem_singleton.mp new
      have arguments : (cache.requestFor path arguments unsaved).arguments =
          arguments ++ (if verbosity = .trace then ["-v"] else []) := by
        rw [← valid.tier]
        exact engineArguments_eq ..
      refine ⟨canonical, source, ⟨cache.requestFor path _ unsaved, ?_, rfl, arguments,
        .parsed outcome⟩, ?_⟩
      · simp
      · simp [attempts, Event.attempt?, List.filterMap_cons]

private theorem Refresh.valid (refresh : Refresh world path cache answer final)
    (canonical : IsCanonical path) (source : (FileRole.ofPath path).isSource = true)
    (valid : Valid verbosity cache cache.entries) : Valid verbosity final final.entries := by
  have account := refresh.accounts valid.account
  cases refresh with
  | unavailable => exact valid.asked rfl rfl rfl
  | absent _ _ full => exact full.valid canonical source (valid.afterQueries ..)
  | reused => exact valid.afterQueries ..
  | noBuffers => exact (valid.afterQueries ..).asked rfl rfl rfl
  | @reparsed arguments time left entry right unsaved flags reply _ held key _ _ _ _ replied
      succeeded =>
    subst replied
    rw [held] at valid
    refine ⟨valid.tier, account, ?_⟩
    intro other member
    change Genuine verbosity ((cache.journal ++ [_, _]) ++ [_, _, _]) other
    -- The reparse is an attempt on this entry alone, since no other has its serial number.
    by_cases same : other = { entry with
        unit := (E.reparse world.disk cache.engine entry.unit unsaved flags).unit
        modified := time.toOption }
    · have old := valid.genuine entry (by simp)
      rw [same]
      refine Genuine.reparsed (old.later rfl) ?_ time.toOption succeeded
      simp [attempts, Event.attempt?, List.filterMap_cons]
    · have beside : other ∈ left ++ right := by simpa [same] using member
      have differs : entry.serial ≠ other.serial := (valid.apart other beside).symm
      refine Genuine.later ((valid.genuine other (mem_split beside)).later rfl) ?_
      simp [attempts, Event.attempt?, List.filterMap_cons, differs]
  | @reparseFailed arguments time left entry right unsaved flags reply cause _ _ _ held key _ _ _ _ _ _
      full =>
    have spoilt := valid.account.spoilt held path arguments time unsaved flags (some cause)
      reply.state reply.unit
    rw [held] at valid
    -- The failed attempt stays in the journal, but the entry that it was made on is gone.
    refine full.valid canonical source ⟨valid.tier, spoilt, ?_⟩
    intro other member
    have differs : entry.serial ≠ other.serial := (valid.apart other member).symm
    change Genuine verbosity (((cache.journal ++ [_, _]) ++ [_, _, _]) ++ [_]) other
    refine Genuine.later (Genuine.later ?_ ?_) rfl
    · exact (valid.genuine other (mem_split member)).later rfl
    · simp [attempts, Event.attempt?, List.filterMap_cons, differs]
  | @rebuilt arguments time left entry right _ _ _ held _ _ full =>
    have ready := valid.afterQueries path arguments time
    rw [held] at ready
    exact full.valid canonical source (ready.listing (left ++ right)).giveBack

private theorem attempts_checks (serial : Nat) (header : Path) (entries : List (Entry E)) :
    attempts serial (checks header entries) = [] :=
  filterMap_checks _ (fun _ _ => rfl) header entries

private theorem Valid.checks {entries asked : List (Entry E)}
    (valid : Valid verbosity cache entries)
    (among : ∀ entry ∈ asked, entry ∈ entries) (header : Path) :
    Valid verbosity { cache with journal := cache.journal ++ Cache.checks header asked } entries :=
  valid.later (valid.account.checks among header) rfl rfl (fun _ member => member)
    fun _ _ => attempts_checks ..

private theorem Pass.valid {header listed : Path} (pass : Pass world header listed cache final)
    (placed : world.disk.workingDirectory.isSome = true)
    (valid : Valid verbosity cache cache.entries) : Valid verbosity final final.entries := by
  cases pass with
  | skipped => exact valid
  | failed role refresh => exact refresh.valid (isCanonical_of_isSource placed role) role valid
  | kept role refresh =>
    have fresh := refresh.valid (isCanonical_of_isSource placed role) role valid
    exact fresh.checked (refresh.replaced.answered rfl).1 header
  | @evicted middle entry role refresh _ speculative =>
    have fresh := refresh.valid (isCanonical_of_isSource placed role) role valid
    have last : middle.entries = cache.entries ++ entry :: [] :=
      refresh.replaced.appended rfl speculative
    have asked := fresh.checked (refresh.replaced.answered rfl).1 header
    rw [last] at asked
    have evicted := (asked.listing cache.entries).giveBack
    rw [List.append_nil] at evicted
    exact evicted

private theorem Passed.valid {header : Path} {sources : List Path}
    (passed : Passed world header sources cache final)
    (placed : world.disk.workingDirectory.isSome = true)
    (valid : Valid verbosity cache cache.entries) : Valid verbosity final final.entries := by
  induction passed with
  | nil => exact valid
  | cons pass _ ih => exact ih (pass.valid placed valid)

private theorem Search.valid {header : Path} {sources : List Path}
    (search : Search world header sources cache answer final)
    (placed : world.disk.workingDirectory.isSome = true)
    (valid : Valid verbosity cache cache.entries) : Valid verbosity final final.entries := by
  cases search with
  | exhausted passed => exact passed.valid placed valid
  | unavailable _ passed role refresh =>
    exact refresh.valid (isCanonical_of_isSource placed role) role (passed.valid placed valid)
  | found _ passed role refresh =>
    have fresh := refresh.valid (isCanonical_of_isSource placed role) role
      (passed.valid placed valid)
    exact fresh.checked (refresh.replaced.answered rfl).1 header

private theorem Resolve.valid {header : Path} (resolve : Resolve world header cache answer final)
    (placed : world.disk.workingDirectory.isSome = true)
    (valid : Valid verbosity cache cache.entries) : Valid verbosity final final.entries := by
  have checked := valid.checks (fun _ member => member) header
  cases resolve with
  | @cached left entry right held _ _ =>
    refine valid.checks ?_ header
    intro other member
    rw [held, List.append_cons]
    exact List.mem_append_left right member
  | unavailable => exact checked.asked rfl rfl rfl
  | searched _ _ search => exact search.valid placed (checked.asked rfl rfl rfl)

private theorem Serve.valid (serve : Serve world (world.disk.absolute path) cache answer final)
    (placed : world.disk.workingDirectory.isSome = true)
    (valid : Valid verbosity cache cache.entries) : Valid verbosity final final.entries := by
  cases serve with
  | source role refresh => exact refresh.valid (isCanonical_of_isSource placed role) role valid
  | header _ resolve => exact resolve.valid placed valid

private theorem Valid.returned (valid : Valid verbosity cache cache.entries) :
    Valid verbosity cache.returned [] :=
  (valid.listing []).giveBackAll

private theorem Move.valid (move : Move world cache final)
    (placed : world.disk.workingDirectory.isSome = true)
    (valid : Valid verbosity cache cache.entries) : Valid verbosity final final.entries := by
  have account := move.accounts valid.account
  cases move with
  | idle => exact valid
  | served serve => exact serve.valid placed valid
  | removed removal =>
    cases removal with
    | absent => exact valid
    | @removed left entry right held _ =>
      rw [held] at valid
      exact (valid.listing (left ++ right)).giveBack
  | cleared =>
    rw [entries_returned]
    exact valid.returned
  | readFlags => exact valid.asked rfl rfl rfl
  | setFlags => exact valid.later account rfl rfl (fun _ member => member) fun _ _ => rfl
  | closed =>
    refine ⟨valid.returned.tier, account, ?_⟩
    rw [entries_returned]
    exact nofun
  | disturbed => exact ⟨valid.tier, account, valid.genuine⟩

/-- Wherever a cache has had a working directory, its entries are what they stand for. -/
theorem run_valid (engine : E.State) (verbosity : Verbosity) (steps : List (World × Operation E))
    (placed : ∀ step ∈ steps, step.1.disk.workingDirectory.isSome = true) :
    ((create engine verbosity : Cache E).run steps).paths.Nodup ∧
    Valid verbosity ((create engine verbosity : Cache E).run steps).unlogged
      ((create engine verbosity : Cache E).run steps).entries :=
  @run_invariant E (fun cache => Valid verbosity cache cache.entries)
    (fun world => world.disk.workingDirectory.isSome = true) (create engine verbosity)
    (fun placed _ move valid => move.valid placed valid) List.nodup_nil
    ⟨rfl, Accounted.opened _, nofun⟩ steps placed

private theorem Genuine.of_trace {journal : List Event} {entry : Entry E}
    (genuine : Genuine verbosity (trace journal) entry) : Genuine verbosity journal entry := by
  obtain ⟨request, member, made⟩ := genuine.made
  refine ⟨genuine.canonical, genuine.source, ⟨request, (List.mem_filter.mp member).1, made⟩, ?_⟩
  rw [← attempts_trace]
  exact genuine.succeeded

/-- How a cache stands for its files: one entry a path, each with a unit that is what a parse of that
path made, in the order of the parses. -/
structure Represents (verbosity : Verbosity) (cache : Cache E) : Prop where
  distinct : cache.paths.Nodup
  genuine : ∀ entry ∈ cache.entries, Genuine verbosity cache.journal entry
  stable : ∀ entry ∈ cache.entries, ∀ disk : Disk, disk.absolute entry.path = entry.path
  ordered : cache.entries.map Entry.serial = undisposed cache.journal

theorem run_represents (engine : E.State) (verbosity : Verbosity)
    (steps : List (World × Operation E))
    (placed : ∀ step ∈ steps, step.1.disk.workingDirectory.isSome = true) :
    Represents verbosity ((create engine verbosity : Cache E).run steps) := by
  obtain ⟨distinct, valid⟩ := run_valid engine verbosity steps placed
  refine ⟨distinct, ?_, ?_, ?_⟩
  · intro entry member
    exact (valid.genuine entry member).of_trace
  · intro entry member disk
    exact (valid.genuine entry member).canonical.absolute_eq disk
  · simpa using valid.account.balanced.holds

/-- As long as there is a working directory, a cache stands for its files, and what it hands to a
caller is one of its entries. -/
theorem cache_represents_files (engine : E.State) (verbosity : Verbosity)
    (steps : List (World × Operation E))
    (placed : ∀ step ∈ steps, step.1.disk.workingDirectory.isSome = true) :
    let cache : Cache E := (create engine verbosity).run steps
    Represents verbosity cache ∧
    ∀ (world : World) (path : Path) (served : ServedUnit E),
      world.disk.workingDirectory.isSome = true →
      (cache.request world path).1 = .ok (some served) →
      Represents verbosity (cache.request world path).2 ∧
      ∃ entry ∈ (cache.request world path).2.entries, served = unitOf entry := by
  intro cache
  have before := run_represents engine verbosity steps placed
  refine ⟨before, ?_⟩
  intro world path served here answered
  have later : (create engine verbosity : Cache E).run (steps ++ [(world, .request path)]) =
      (cache.request world path).2 := by
    rw [run_append]
    rfl
  have after := run_represents engine verbosity (steps ++ [(world, .request path)]) (by
    intro step member
    rcases List.mem_append.mp member with earlier | last
    · exact placed step earlier
    · obtain rfl := List.mem_singleton.mp last
      exact here)
  rw [later] at after
  obtain ⟨answer, serve, told⟩ := request_serve cache world path before.distinct
  obtain ⟨entry, rfl, unit⟩ := answer_of_served (told.symm.trans answered)
  exact ⟨after, entry, serve.answered, unit.symm⟩

private theorem served_of_isSome {answer : Answer E}
    (present : answer.toOption.join.isSome = true) : ∃ served, answer = .ok (some served) := by
  cases answer with
  | error error => cases present
  | ok found =>
    cases found with
    | none => cases present
    | some served => exact ⟨served, rfl⟩

theorem cache_represents_two_files :
    let world := World.steady ["-O2"] [] 7 .empty
    let steps : List (World × Operation Scripted.engine) :=
      [(world, .request ⟨"b.c"⟩), (world, .request ⟨"./a.c"⟩)]
    let cache : Cache Scripted.engine := (create Scripted.Script.empty .trace).run steps
    cache.paths = [⟨"/b.c"⟩, ⟨"/a.c"⟩] ∧ Represents .trace cache ∧
    ∃ served, (cache.request world ⟨"/b.c"⟩).1 = .ok (some served) ∧
      Represents .trace (cache.request world ⟨"/b.c"⟩).2 ∧
      ∃ entry ∈ (cache.request world ⟨"/b.c"⟩).2.entries, served = unitOf entry := by
  intro world steps cache
  have placed : ∀ step ∈ steps, step.1.disk.workingDirectory.isSome = true := by
    intro step member
    simp only [steps, List.mem_cons, List.not_mem_nil, or_false] at member
    rcases member with rfl | rfl <;> rfl
  have present : (cache.request world ⟨"/b.c"⟩).1.toOption.join.isSome = true := by decide +kernel
  obtain ⟨served, answered⟩ := served_of_isSome present
  obtain ⟨represents, later⟩ :=
    cache_represents_files (E := Scripted.engine) Scripted.Script.empty .trace steps placed
  refine ⟨by decide +kernel, represents, served, answered, ?_⟩
  exact later world ⟨"/b.c"⟩ served rfl answered

end Cache

end UnitCache
