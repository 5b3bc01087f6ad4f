import UnitCache.Proofs.History
import UnitCache.Proofs.Runs

/-! A journal read as calls of the engine. Each event is a call that the engine really answered so,
on a unit that it has in hand, or it leaves the engine alone. So the journal of a run, followed from
the engine's first state, leads to the state, the index and the units that the cache holds, and each
of these units is what the call gave that was the last to make or reparse it. -/

namespace UnitCache

namespace Event

/-- The event leaves the engine alone. -/
def isAside : Event → Bool
  | .askArguments .. | .askModified .. | .askBuffers _ | .askSources _ | .log _ => true
  | _ => false

def reparsed? : Event → Option Nat
  | .reparse serial .. => some serial
  | _ => none

end Event

namespace Engine
open History

variable {E : Engine}

/-- What an engine has in hand: its state, its index while that is open, how many units it has made,
and those that were not given back, each with its number. -/
structure Stage (E : Engine) where
  state : E.State
  index : Option E.Index
  made : Nat
  units : List (Nat × E.Parsed)

/-- An engine that was not called yet. -/
def Stage.first (state : E.State) : Stage E := ⟨state, none, 0, []⟩

/-- One event, as a call of the engine. What is called on has to be in hand, and what the event tells
of the outcome is what the engine answers. -/
inductive Call : Stage E → Event → Stage E → Prop where
  | aside {stage : Stage E} {event} (aside : event.isAside = true) : Call stage event stage
  | openIndex {state made units} (diagnostics : Bool) :
      Call ⟨state, none, made, units⟩ (.openIndex diagnostics)
        ⟨(E.openIndex state diagnostics).2, some (E.openIndex state diagnostics).1, made, units⟩
  | closeIndex {state index made units} :
      Call ⟨state, some index, made, units⟩
        (.closeIndex (E.flags state index) (E.closeIndex state index).1)
        ⟨(E.closeIndex state index).2, none, made, units⟩
  | readFlags {state index made units} :
      Call ⟨state, some index, made, units⟩ .readFlags ⟨state, some index, made, units⟩
  | setFlags {state index made units} (flags : IndexFlags) :
      Call ⟨state, some index, made, units⟩ (.setFlags flags)
        ⟨(E.setFlags state index flags).2, some (E.setFlags state index flags).1, made, units⟩
  | readEditingFlags {stage : Stage E} : Call stage .readEditingFlags stage
  | readReparseFlags {stage : Stage E} {serial unit} (held : (serial, unit) ∈ stage.units) :
      Call stage (.readReparseFlags serial) stage
  | checkIncludes {stage : Stage E} {serial unit} (held : (serial, unit) ∈ stage.units)
      (path : Path) : Call stage (.checkIncludes serial path) stage
  | parsed {disk state index made units request unit}
      (preferred : request.flags = E.editingFlags state)
      (outcome : (E.parse disk state index request).outcome = .ok unit) :
      Call ⟨state, some index, made, units⟩ (.parse request (.ok (made + 1)))
        ⟨(E.parse disk state index request).state, some index, made + 1,
          units ++ [(made + 1, unit)]⟩
  | failed {disk state index made units request cause}
      (preferred : request.flags = E.editingFlags state)
      (outcome : (E.parse disk state index request).outcome = .error cause) :
      Call ⟨state, some index, made, units⟩ (.parse request (.error cause))
        ⟨(E.parse disk state index request).state, some index, made, units⟩
  | reparsed {disk state index made left serial unit right unsaved flags reply}
      (preferred : flags = E.reparseFlags state unit)
      (replied : reply = E.reparse disk state unit unsaved flags) :
      Call ⟨state, index, made, left ++ (serial, unit) :: right⟩
        (.reparse serial unsaved flags reply.failure)
        ⟨reply.state, index, made, left ++ (serial, reply.unit) :: right⟩
  | disposed {state index made left serial unit right} :
      Call ⟨state, index, made, left ++ (serial, unit) :: right⟩
        (.dispose serial (E.dispose state unit).1)
        ⟨(E.dispose state unit).2, index, made, left ++ right⟩

/-- Events that are calls one after the other. -/
inductive Calls : Stage E → List Event → Stage E → Prop where
  | nil {stage} : Calls stage [] stage
  | cons {stage middle last event events} (call : Call stage event middle)
      (later : Calls middle events last) : Calls stage (event :: events) last

variable {first middle last : Stage E} {event : Event} {events later : List Event}

theorem Call.calls (call : Call first event last) : Calls first [event] last := .cons call .nil

theorem Calls.append (calls : Calls first events middle) (further : Calls middle later last) :
    Calls first (events ++ later) last := by
  induction calls with
  | nil => exact further
  | cons call _ ih => exact .cons call (ih further)

private theorem Calls.asides (asides : events.all Event.isAside = true) :
    Calls first events first := by
  induction events with
  | nil => exact .nil
  | cons event rest ih =>
    rw [List.all_cons, Bool.and_eq_true] at asides
    exact .cons (.aside asides.1) (ih asides.2)

/-- Log lines between the calls change nothing. -/
theorem Calls.of_trace (calls : Calls first (Proofs.Journal.trace events) last) :
    Calls first events last := by
  induction events generalizing first with
  | nil => exact calls
  | cons event rest ih =>
    cases event with
    | log entry => exact .cons (.aside rfl) (ih calls)
    | _ =>
      cases calls with
      | cons call later => exact .cons call (ih later)

/-- A unit that an event is not about stays in hand. -/
theorem Call.keeps (call : Call first event last) {serial : Nat} {unit : E.Parsed}
    (held : (serial, unit) ∈ first.units) (unused : event.used? ≠ some serial) :
    (serial, unit) ∈ last.units := by
  cases call with
  | parsed => exact List.mem_append_left _ held
  | reparsed =>
    rcases Cache.mem_around.mp held with ⟨⟨⟩⟩ | beside
    · exact absurd rfl unused
    · exact Cache.mem_split beside
  | disposed =>
    rcases Cache.mem_around.mp held with ⟨⟨⟩⟩ | beside
    · exact absurd rfl unused
    · exact beside
  | _ => exact held

/-- Units in hand have numbers of their own, which were all given. -/
structure Stage.Numbered (stage : Stage E) : Prop where
  distinct : (stage.units.map Prod.fst).Nodup
  given : ∀ held ∈ stage.units, held.1 ≤ stage.made

private theorem Call.numbered (call : Call first event last) (numbered : first.Numbered) :
    last.Numbered := by
  obtain ⟨distinct, given⟩ := numbered
  cases call with
  | parsed =>
    refine ⟨Cache.distinct_concat distinct fun held member same => ?_, fun held member => ?_⟩
    · exact Nat.not_succ_le_self _ (same ▸ given held member)
    · rcases List.mem_append.mp member with old | new
      · exact Nat.le_succ_of_le (given held old)
      · obtain rfl := List.mem_singleton.mp new
        exact Nat.le_refl _
  | @reparsed _ _ _ _ left serial unit right =>
    refine ⟨by simpa using distinct, fun held member => ?_⟩
    rcases Cache.mem_around.mp member with rfl | beside
    · exact given (serial, unit) (by simp)
    · exact given held (Cache.mem_split beside)
  | disposed =>
    exact ⟨Cache.distinct_without distinct, fun held member => given held (Cache.mem_split member)⟩
  | _ => exact ⟨distinct, given⟩

/-- What the event gave is the unit with this number: a parse made it, or a reparse left it so. -/
inductive Gave (stage : Stage E) (serial : Nat) : E.Parsed → Event → Prop where
  | parsed {disk index request unit} (opened : stage.index = some index)
      (outcome : (E.parse disk stage.state index request).outcome = .ok unit) :
      Gave stage serial unit (.parse request (.ok serial))
  | reparsed {disk old unsaved flags reply} (held : (serial, old) ∈ stage.units)
      (replied : reply = E.reparse disk stage.state old unsaved flags) :
      Gave stage serial reply.unit (.reparse serial unsaved flags reply.failure)

private theorem Call.gave (call : Call first event last) (numbered : first.Numbered) {serial : Nat}
    {unit : E.Parsed} (held : (serial, unit) ∈ last.units) :
    (serial, unit) ∈ first.units ∧ event.reparsed? ≠ some serial ∨ Gave first serial unit event := by
  cases call with
  | parsed _ outcome =>
    rcases List.mem_append.mp held with old | new
    · exact .inl ⟨old, nofun⟩
    · obtain ⟨⟩ := List.mem_singleton.mp new
      exact .inr (.parsed rfl outcome)
  | @reparsed _ _ _ _ left other _ right _ _ _ _ replied =>
    have apart := Cache.apart_of_distinct numbered.distinct
    rcases Cache.mem_around.mp held with ⟨⟨⟩⟩ | beside
    · exact .inr (.reparsed (by simp) replied)
    · have other := apart _ beside
      exact .inl ⟨Cache.mem_split beside, fun same => other (Option.some.inj same).symm⟩
  | disposed => exact .inl ⟨Cache.mem_split held, nofun⟩
  | aside aside =>
    refine .inl ⟨held, fun same => ?_⟩
    cases event with
    | reparse => cases aside
    | _ => cases same
  | _ => exact .inl ⟨held, nofun⟩

/-- A unit in hand was in hand before and not reparsed, or it is what the call gave that was the last
to make or reparse it. -/
theorem Calls.gave (calls : Calls first events last) (numbered : first.Numbered) {serial : Nat}
    {unit : E.Parsed} (held : (serial, unit) ∈ last.units) :
    ((serial, unit) ∈ first.units ∧ ∀ event ∈ events, event.reparsed? ≠ some serial) ∨
      Since (fun past event => ∃ stage, Calls first past stage ∧ Gave stage serial unit event)
        (fun event => event.reparsed? = some serial) events := by
  induction calls with
  | nil => exact .inl ⟨held, nofun⟩
  | @cons first middle last event events call _ ih =>
    rcases ih (call.numbered numbered) held with ⟨kept, untouched⟩ | given
    · rcases call.gave numbered kept with ⟨old, other⟩ | here
      · exact .inl ⟨old, List.forall_mem_cons.mpr ⟨other, untouched⟩⟩
      · exact .inr ⟨[], event, events, rfl, ⟨first, .nil, here⟩, untouched⟩
    · obtain ⟨before, gift, after, rfl, ⟨stage, led, gave⟩, untouched⟩ := given
      exact .inr ⟨event :: before, gift, after, rfl, ⟨stage, .cons call led, gave⟩, untouched⟩

end Engine

namespace Cache
open Engine Proofs

variable {E : Engine} {world : World} {path header : Path} {cache middle final : Cache E}
  {answer : Except CacheError (Option (Entry E))}

/-- What the engine of a cache has in hand. -/
def stage (cache : Cache E) : Stage E :=
  ⟨cache.engine, cache.index, cache.parsed, cache.entries.map fun entry => (entry.serial, entry.unit)⟩

/-- What a cache has come to tell is a sequence of calls, which led its engine where it is. -/
def Calling (cache final : Cache E) (events : List Event) : Prop :=
  final.journal = cache.journal ++ events ∧ Calls cache.stage events final.stage

namespace Calling
variable {first later : List Event}

private theorem silent (cache : Cache E) : Calling cache cache [] :=
  ⟨(List.append_nil _).symm, .nil⟩

private theorem trans (calling : Calling cache middle first)
    (further : Calling middle final later) :
    Calling cache final (first ++ later) :=
  ⟨by rw [further.1, calling.1, List.append_assoc], calling.2.append further.2⟩

end Calling

theorem calling_giveBack {left right : List (Entry E)} {entry : Entry E}
    (held : cache.entries = left ++ entry :: right) :
    Calling cache (giveBack { cache with entries := left ++ right } entry)
      [.dispose entry.serial (E.dispose cache.engine entry.unit).1] := by
  refine ⟨rfl, ?_⟩
  have call := @Call.disposed E cache.engine cache.index cache.parsed
    (left.map fun entry => (entry.serial, entry.unit)) entry.serial entry.unit
    (right.map fun entry => (entry.serial, entry.unit))
  simpa [stage, held, giveBack] using call.calls

private theorem FullParse.calling {arguments : List String} {modified : Option Timestamp}
    (full : FullParse world path arguments modified cache answer final) :
    ∃ events, Calling cache final events := by
  cases full with
  | unavailable => exact ⟨_, rfl, .asides rfl⟩
  | indexClosed => exact ⟨_, rfl, .asides rfl⟩
  | @failed unsaved index cause _ opened outcome =>
    refine ⟨_, rfl, .cons (.aside rfl) (.cons .readEditingFlags ?_)⟩
    simpa only [stage, opened] using (Call.failed rfl outcome).calls
  | @parsed unsaved index unit _ opened outcome =>
    refine ⟨_, rfl, .cons (.aside rfl) (.cons .readEditingFlags ?_)⟩
    simpa only [stage, opened, List.map_append, List.map_singleton] using
      (Call.parsed rfl outcome).calls

private theorem calls_reparse {left right : List (Entry E)} {entry : Entry E}
    (held : cache.entries = left ++ entry :: right) (unsaved : List Buffer) {flags : ReparseFlags}
    {reply : ReparseReply E.State E.Parsed}
    (preferred : flags = E.reparseFlags cache.engine entry.unit)
    (replied : reply = E.reparse world.disk cache.engine entry.unit unsaved flags) (fresh : Entry E)
    (serial : fresh.serial = entry.serial) (unit : fresh.unit = reply.unit) (journal : List Event) :
    Calls cache.stage [.askBuffers (.ok unsaved), .readReparseFlags entry.serial,
        .reparse entry.serial unsaved flags reply.failure]
      { cache with engine := reply.state, entries := left ++ fresh :: right, journal }.stage := by
  have member : (entry.serial, entry.unit) ∈ cache.stage.units := by simp [stage, held]
  refine .cons (.aside rfl) (.cons (.readReparseFlags member) ?_)
  have call := @Call.reparsed E world.disk cache.engine cache.index cache.parsed
    (left.map fun entry => (entry.serial, entry.unit)) entry.serial entry.unit
    (right.map fun entry => (entry.serial, entry.unit)) unsaved flags reply preferred replied
  simpa [stage, held, serial, unit] using call.calls

/-- A refresh of a file is a sequence of calls. -/
theorem Refresh.calling (refresh : Refresh world path cache answer final) :
    ∃ events, Calling cache final events := by
  have queried : ∀ arguments time, Calling cache (cache.afterQueries path arguments time)
      [.askArguments path (.ok arguments), .askModified path time] :=
    fun _ _ => ⟨rfl, .asides rfl⟩
  cases refresh with
  | unavailable => exact ⟨_, rfl, .asides rfl⟩
  | absent _ _ full =>
    obtain ⟨events, calling⟩ := full.calling
    exact ⟨_, (queried _ _).trans calling⟩
  | reused => exact ⟨_, queried _ _⟩
  | noBuffers => exact ⟨_, (queried _ _).trans ⟨rfl, .asides rfl⟩⟩
  | @reparsed arguments time left entry right unsaved flags reply _ held _ _ _ _ preferred replied
      succeeded =>
    let fresh : Entry E := { entry with unit := reply.unit, modified := time.toOption }
    have calls := fun journal => calls_reparse held unsaved preferred replied fresh rfl rfl journal
    rw [succeeded] at calls
    exact ⟨_, (queried arguments time).trans ⟨rfl, calls _⟩⟩
  | @reparseFailed arguments time left entry right unsaved flags reply cause _ _ _ held _ _ _ _
      preferred replied failed full =>
    obtain ⟨events, calling⟩ := full.calling
    let failure : Entry E := { entry with unit := reply.unit }
    let spoilt : Cache E := { cache with
      engine := reply.state
      entries := left ++ failure :: right
      journal := (cache.afterQueries path arguments time).journal ++ [.askBuffers (.ok unsaved),
        .readReparseFlags entry.serial, .reparse entry.serial unsaved flags (some cause)] }
    have calls := calls_reparse held unsaved preferred replied failure rfl rfl spoilt.journal
    rw [failed] at calls
    have tried : Calling (cache.afterQueries path arguments time) spoilt _ := ⟨rfl, calls⟩
    have disposed := @calling_giveBack E spoilt left right failure rfl
    exact ⟨_, (queried arguments time).trans (tried.trans (disposed.trans calling))⟩
  | @rebuilt arguments time left entry right _ _ _ held _ _ full =>
    obtain ⟨events, calling⟩ := full.calling
    have disposed : Calling (cache.afterQueries path arguments time) _ _ := calling_giveBack held
    exact ⟨_, (queried arguments time).trans (disposed.trans calling)⟩

theorem held_of_mem {entry : Entry E} (member : entry ∈ cache.entries) :
    (entry.serial, entry.unit) ∈ cache.stage.units :=
  List.mem_map_of_mem member

private theorem calling_check {entry : Entry E} (member : entry ∈ cache.entries) (header : Path) :
    Calling cache (cache.note (.checkIncludes entry.serial header))
      [.checkIncludes entry.serial header] :=
  ⟨rfl, (Call.checkIncludes (held_of_mem member) header).calls⟩

private theorem calling_checks {asked : List (Entry E)}
    (among : ∀ entry ∈ asked, entry ∈ cache.entries) (header : Path) :
    Calling cache { cache with journal := cache.journal ++ checks header asked }
      (checks header asked) := by
  refine ⟨rfl, ?_⟩
  change Calls cache.stage _ cache.stage
  induction asked with
  | nil => exact .nil
  | cons entry rest ih =>
    obtain ⟨member, others⟩ := List.forall_mem_cons.mp among
    exact .cons (.checkIncludes (held_of_mem member) header) (ih others)

theorem Pass.calling {listed : Path} (pass : Pass world header listed cache final) :
    ∃ events, Calling cache final events := by
  cases pass with
  | skipped => exact ⟨[], .silent cache⟩
  | failed _ refresh => exact refresh.calling
  | kept _ refresh =>
    obtain ⟨events, calling⟩ := refresh.calling
    exact ⟨_, calling.trans (calling_check (refresh.replaced.answered rfl).1 header)⟩
  | @evicted middle entry _ refresh _ speculative =>
    obtain ⟨events, calling⟩ := refresh.calling
    have asked := calling_check (refresh.replaced.answered rfl).1 header
    have last : (middle.note (.checkIncludes entry.serial header)).entries =
        cache.entries ++ entry :: [] := refresh.replaced.appended rfl speculative
    have disposed := calling_giveBack last
    rw [List.append_nil] at disposed
    exact ⟨_, calling.trans (asked.trans disposed)⟩

private theorem Passed.calling {sources : List Path}
    (passed : Passed world header sources cache final) :
    ∃ events, Calling cache final events := by
  induction passed with
  | nil => exact ⟨[], .silent _⟩
  | cons pass _ ih =>
    obtain ⟨first, calling⟩ := pass.calling
    obtain ⟨later, further⟩ := ih
    exact ⟨_, calling.trans further⟩

private theorem Search.calling {sources : List Path}
    (search : Search world header sources cache answer final) :
    ∃ events, Calling cache final events := by
  cases search with
  | exhausted passed => exact passed.calling
  | unavailable _ passed _ refresh =>
    obtain ⟨first, calling⟩ := passed.calling
    obtain ⟨later, further⟩ := refresh.calling
    exact ⟨_, calling.trans further⟩
  | found _ passed _ refresh =>
    obtain ⟨first, calling⟩ := passed.calling
    obtain ⟨later, further⟩ := refresh.calling
    have asked := calling_check (refresh.replaced.answered rfl).1 header
    exact ⟨_, calling.trans (further.trans asked)⟩

private theorem Serve.calling (serve : Serve world path cache answer final) :
    ∃ events, Calling cache final events := by
  cases serve with
  | source _ refresh => exact refresh.calling
  | header _ resolve =>
    have checked : Calling cache { cache with journal := cache.journal ++ checks path cache.entries } _ :=
      calling_checks (fun _ member => member) path
    cases resolve with
    | cached held =>
      refine ⟨_, calling_checks (fun other member => ?_) path⟩
      rw [held, List.append_cons]
      exact List.mem_append_left _ member
    | unavailable => exact ⟨_, checked.trans ⟨rfl, .asides rfl⟩⟩
    | @searched sources _ _ _ _ search =>
      obtain ⟨events, calling⟩ := search.calling
      have listed : Calling cache (cache.afterListing path sources) _ :=
        checked.trans ⟨rfl, .asides rfl⟩
      exact ⟨_, listed.trans calling⟩

private theorem calling_returned (cache : Cache E) :
    ∃ events, Calling cache cache.returned events := by
  obtain ⟨engine, index, entries, verbosity, parsed, journal⟩ := cache
  induction entries generalizing engine journal with
  | nil => exact ⟨[], .silent _⟩
  | cons entry rest ih =>
    have disposed := @calling_giveBack E ⟨engine, index, entry :: rest, verbosity, parsed, journal⟩ []
      rest entry rfl
    obtain ⟨events, further⟩ := ih (E.dispose engine entry.unit).2 _
    exact ⟨_, disposed.trans further⟩

private theorem Removal.calling {found : Bool} (removal : Removal path cache found final) :
    ∃ events, Calling cache final events := by
  cases removal with
  | absent => exact ⟨[], .silent _⟩
  | removed held => exact ⟨_, calling_giveBack held⟩

private theorem request_calling (cache : Cache E) (world : World) (path : Path)
    (distinct : cache.paths.Nodup) :
    ∃ events, Calling cache.unlogged (cache.request world path).2.unlogged events := by
  obtain ⟨answer, serve, _⟩ := request_serve cache world path distinct
  exact serve.calling

private theorem stage_of_opened {index : E.Index} (opened : cache.index = some index) :
    cache.stage = ⟨cache.engine, some index, cache.parsed,
      cache.entries.map fun entry => (entry.serial, entry.unit)⟩ := by
  rw [stage, opened]

private theorem closeIndex_calling (cache : Cache E) :
    ∃ events, Calling cache.unlogged cache.closeIndex.2.unlogged events := by
  cases opened : cache.index with
  | none =>
    rw [closeIndex_of_none opened]
    exact ⟨[], .silent _⟩
  | some index =>
    rw [unlogged_closeIndex opened]
    refine ⟨_, rfl, ?_⟩
    rw [@stage_of_opened E cache.unlogged index opened]
    exact Call.closeIndex.calls

/-- An operation is a sequence of calls, unless it is the engine that changes by itself. -/
theorem perform_calling (cache : Cache E) (world : World) (operation : Operation E)
    (distinct : cache.paths.Nodup) (calm : ∀ engine, operation ≠ .disturb engine) :
    ∃ events, Calling cache.unlogged (cache.perform world operation).unlogged events := by
  cases operation with
  | request path => exact request_calling cache world path distinct
  | ensure path =>
    simp only [perform, ensure]
    split
    · exact ⟨[], .silent _⟩
    · exact request_calling cache world path distinct
  | renew path =>
    simp only [perform, renew]
    split
    · exact request_calling cache world path distinct
    · exact ⟨[], .silent _⟩
  | remove path =>
    exact (removeAt_removal distinct (world.disk.absolute path)).calling
  | clear =>
    rw [perform, unlogged_clear]
    exact calling_returned _
  | readFlags =>
    simp only [perform, indexFlags]
    split
    · exact ⟨[], .silent _⟩
    · rename_i index opened
      rw [unlogged_note _ rfl]
      refine ⟨_, rfl, ?_⟩
      change Calls cache.unlogged.stage _ cache.unlogged.stage
      rw [@stage_of_opened E cache.unlogged index opened]
      exact Call.readFlags.calls
  | setFlags flags =>
    simp only [perform, setIndexFlags]
    split
    · exact ⟨[], .silent _⟩
    · rename_i index opened
      rw [unlogged_note _ rfl]
      refine ⟨_, rfl, ?_⟩
      rw [@stage_of_opened E cache.unlogged index opened]
      exact (Call.setFlags flags).calls
  | close =>
    obtain ⟨first, cleared⟩ := calling_returned cache.unlogged
    rw [← unlogged_clear] at cleared
    obtain ⟨later, closed⟩ := closeIndex_calling cache.clear.2
    exact ⟨_, cleared.trans closed⟩
  | disturb engine => exact absurd rfl (calm engine)

private theorem run_calling (cache : Cache E) (steps : List (World × Operation E))
    (distinct : cache.paths.Nodup) (calm : ∀ step ∈ steps, ∀ engine, step.2 ≠ .disturb engine) :
    ∃ events, Calling cache.unlogged (cache.run steps).unlogged events := by
  induction steps generalizing cache with
  | nil => exact ⟨[], .silent _⟩
  | cons step rest ih =>
    obtain ⟨here, others⟩ := List.forall_mem_cons.mp calm
    obtain ⟨first, calling⟩ := cache.perform_calling step.1 step.2 distinct here
    have unique : (cache.perform step.1 step.2).unlogged.paths.Nodup :=
      (perform_move cache step.1 step.2 distinct).distinct distinct
    obtain ⟨later, further⟩ := ih (cache.perform step.1 step.2) unique others
    exact ⟨_, calling.trans further⟩

/-- The journal of a run in which the engine does not change by itself leads from the engine's first
state to the state, the index and the units that the cache has. -/
theorem run_calls (engine : E.State) (verbosity : Verbosity) (steps : List (World × Operation E))
    (calm : ∀ step ∈ steps, ∀ engine, step.2 ≠ .disturb engine) :
    let cache : Cache E := (create engine verbosity).run steps
    Calls (.first engine) cache.journal cache.stage := by
  intro cache
  obtain ⟨events, journal, calls⟩ := run_calling (create engine verbosity : Cache E)
    steps List.nodup_nil calm
  have opened : Calls (.first engine) [.openIndex verbosity.aboveQuiet]
      (create engine verbosity : Cache E).stage := (Call.openIndex _).calls
  refine .of_trace ?_
  rw [show Journal.trace cache.journal = _ from journal]
  exact opened.append calls

/-- The unit of an entry is what the last parse or reparse of its number gave. -/
theorem run_gave (engine : E.State) (verbosity : Verbosity) (steps : List (World × Operation E))
    (calm : ∀ step ∈ steps, ∀ engine, step.2 ≠ .disturb engine) :
    let cache : Cache E := (create engine verbosity).run steps
    ∀ entry ∈ cache.entries,
      History.Since (fun past event => ∃ stage, Calls (.first engine) past stage ∧
          Gave stage entry.serial entry.unit event)
        (fun event => event.reparsed? = some entry.serial) cache.journal := by
  intro cache entry member
  have numbered : (Stage.first engine : Stage E).Numbered := ⟨List.nodup_nil, nofun⟩
  rcases (run_calls engine verbosity steps calm).gave numbered (held_of_mem member) with
    ⟨none, _⟩ | given
  · cases none
  · exact given

end Cache

end UnitCache
