import Mathlib.Data.List.Nodup
import UnitCache.Engine.Scripted
import UnitCache.Include.Engine
import UnitCache.Proofs.EngineCalls
import UnitCache.Proofs.RefreshJournal
import UnitCache.Proofs.UnitLifecycle

/-! Which unit serves a header: the first cached one that includes it, or else that of the first
listed file whose unit does. A search in vain leaves no unit that includes the header, since
each unit that could was asked after its last reparse. -/

namespace UnitCache

namespace Engine
variable {E : Engine} {first last : Stage E} {events : List Event}

/-- From this stage on, what a unit in hand includes changes only with a reparse of that unit: calls
about other units, or about none, have no say in it. An engine may keep what it knows of its units in
its own state, and reparse them in place. -/
def Steady (stage : Stage E) : Prop :=
  ∀ events middle event last, Calls stage events middle → Call middle event last →
    ∀ serial unit, (serial, unit) ∈ middle.units → event.used? ≠ some serial →
      ∀ path, E.includes last.state unit path = E.includes middle.state unit path

private theorem Steady.later (steady : Steady first) (calls : Calls first events last) :
    Steady last :=
  fun further middle event final more =>
    steady (events ++ further) middle event final (calls.append more)

private theorem Steady.includes (steady : Steady first) (calls : Calls first events last)
    {serial : Nat} {unit : E.Parsed} (held : (serial, unit) ∈ first.units)
    (untouched : ∀ event ∈ events, event.used? ≠ some serial) (path : Path) :
    E.includes last.state unit path = E.includes first.state unit path := by
  induction calls with
  | nil => rfl
  | @cons before after _ event _ call _ ih =>
    obtain ⟨unused, others⟩ := List.forall_mem_cons.mp untouched
    calc E.includes _ unit path
      _ = E.includes after.state unit path :=
        ih (steady.later call.calls) (call.keeps held unused) others
      _ = E.includes before.state unit path :=
        steady [] before event after .nil call serial unit held unused path

/-- An engine is steady where no call changes its answers at all. -/
theorem steady_of_unchanged
    (unchanged : ∀ {before event after}, Call before event after →
      ∀ (unit : E.Parsed) path, E.includes after.state unit path = E.includes before.state unit path)
    (stage : Stage E) : Steady stage :=
  fun _ _ _ _ _ call _ unit _ _ path => unchanged call unit path

end Engine

theorem IncludeEngine.engine_steady (stage : Engine.Stage engine) : Engine.Steady stage :=
  Engine.steady_of_unchanged (fun _ _ _ => rfl) stage

theorem Scripted.engine_steady (stage : Engine.Stage engine) : Engine.Steady stage := by
  refine Engine.steady_of_unchanged (fun call unit path => ?_) stage
  cases call with
  | parsed | failed =>
    simp only [engine, parse]
    split <;> rfl
  | reparsed _ replied =>
    subst replied
    simp only [engine, reparse]
    split <;> rfl
  | _ => rfl

namespace Engine

/-- An engine that keeps the buffers of each scan in its own state, and whose units only tell where.
It reparses a unit in place, and gives the same value back. -/
abbrev inPlace : Engine where
  State := List (List Buffer)
  Index := Unit
  Parsed := Nat
  openIndex scans _ := ((), scans)
  closeIndex scans _ := (none, scans)
  flags _ _ := .none
  setFlags scans _ _ := ((), scans)
  parse _ scans _ request := ⟨.ok scans.length, scans ++ [request.unsaved], []⟩
  reparse _ scans place unsaved _ := ⟨none, place, scans.set place unsaved, []⟩
  dispose scans _ := (none, scans)
  includes scans place path := (scans[place]?.getD []).any fun buffer => buffer.path.Same path
  editingFlags _ := .none
  reparseFlags _ _ := ⟨0⟩

/-- Units have places of their own. -/
structure InPlace (stage : Stage inPlace) : Prop where
  apart : (stage.units.map Prod.snd).Nodup
  inside : ∀ held ∈ stage.units, held.2 < stage.state.length

private theorem InPlace.call {first last : Stage inPlace} {event : Event} (places : InPlace first)
    (call : Call first event last) : InPlace last := by
  obtain ⟨apart, inside⟩ := places
  cases call with
  | @parsed _ state _ _ units request _ _ outcome =>
    cases outcome
    have longer : List.length (state ++ [request.unsaved]) = List.length state + 1 :=
      List.length_append
    refine ⟨Cache.distinct_concat apart fun held member same => ?_, fun held member => ?_⟩
    · exact Nat.lt_irrefl _ (same ▸ inside held member)
    · change held.2 < List.length (state ++ [request.unsaved])
      rw [longer]
      rcases List.mem_append.mp member with old | new
      · exact Nat.lt_succ_of_lt (inside held old)
      · rw [List.mem_singleton.mp new]
        exact Nat.lt_succ_self _
  | failed _ outcome => cases outcome
  | @reparsed _ state _ _ left serial place right unsaved _ _ _ replied =>
    subst replied
    have same : List.length (state.set place unsaved) = List.length state := List.length_set
    refine ⟨apart, fun held member => ?_⟩
    change held.2 < List.length (state.set place unsaved)
    rw [same]
    exact inside held member
  | disposed =>
    exact ⟨Cache.distinct_without apart, fun held member => inside held (Cache.mem_split member)⟩
  | _ => exact ⟨apart, inside⟩

private theorem InPlace.calls {first last : Stage inPlace} {events : List Event}
    (places : InPlace first) (calls : Calls first events last) : InPlace last := by
  induction calls with
  | nil => exact places
  | cons call _ ih => exact ih (places.call call)

private theorem InPlace.steady {stage : Stage inPlace} (places : InPlace stage) : Steady stage := by
  intro events middle event last calls call serial unit held unused path
  obtain ⟨apart, inside⟩ := places.calls calls
  cases call with
  | @parsed _ state _ _ _ request _ _ outcome =>
    have bound : unit < List.length state := inside _ held
    have same : (state ++ [request.unsaved])[unit]? = state[unit]? := List.getElem?_append_left bound
    simp only [inPlace, same]
  | failed _ outcome => cases outcome
  | @reparsed _ state _ _ left other place right unsaved _ _ _ replied =>
    subst replied
    have different : place ≠ unit := by
      intro same
      have there : (other, place) ∈ left ++ (other, place) :: right := by simp
      obtain ⟨⟩ := List.inj_on_of_nodup_map apart there held same
      exact unused rfl
    have same : (state.set place unsaved)[unit]? = state[unit]? := List.getElem?_set_ne different
    simp only [inPlace, same]
  | _ => rfl

end Engine

namespace Cache
open Engine Proofs

variable {E : Engine} {world : World} {path header : Path} {sources : List Path}
  {cache final : Cache E} {answer : Except CacheError (Option (Entry E))}

/-- An engine that is steady from its first stage on is so after any run that it does not disturb. -/
theorem run_steady {engine : E.State} (steady : Steady (.first engine)) (verbosity : Verbosity)
    (steps : List (World × Operation E)) (calm : ∀ step ∈ steps, ∀ engine, step.2 ≠ .disturb engine) :
    Steady ((create engine verbosity : Cache E).run steps).stage :=
  steady.later (run_calls engine verbosity steps calm)

def Excludes (cache : Cache E) (header : Path) : Prop :=
  ∀ entry ∈ cache.entries, cache.includes entry header = false

private theorem Excludes.giveBack {left right : List (Entry E)} {entry : Entry E}
    (steady : Steady cache.stage) (account : Accounts cache cache.entries)
    (held : cache.entries = left ++ entry :: right) (excludes : cache.Excludes header) :
    Excludes (Cache.giveBack { cache with entries := left ++ right } entry) header := by
  intro other member
  have inside : other ∈ cache.entries := by
    rw [held]
    exact mem_split member
  have distinct := account.balanced.nodup_held
  rw [held] at distinct
  have apart := apart_of_distinct distinct other member
  have calls := (calling_giveBack held).2
  have kept := steady.includes calls (held_of_mem inside) (by simpa [Event.used?] using apart.symm)
    header
  exact kept.trans (excludes other inside)

private theorem Refresh.engine_of_refused {error : CacheError}
    (refresh : Refresh world path cache (.error error) final) (distinct : cache.paths.Nodup)
    {entry : Entry E} (member : entry ∈ final.entries) (key : entry.path = path) :
    final.engine = cache.engine := by
  cases refresh with
  | unavailable => rfl
  | noBuffers => rfl
  | absent _ missing full =>
    cases full
    exact absurd key (missing entry member)
  | reparseFailed _ held old _ _ _ _ _ _ full =>
    rw [paths, held] at distinct
    cases full
    exact absurd (key.trans old.symm) (apart_of_distinct distinct entry member)
  | rebuilt _ held old _ full =>
    rw [paths, held] at distinct
    cases full
    exact absurd (key.trans old.symm) (apart_of_distinct distinct entry member)

/-- A refresh brings in no unit that includes the header, unless its own does. -/
theorem Refresh.excludes (steady : Steady cache.stage) (account : Accounts cache cache.entries)
    (distinct : cache.paths.Nodup) (refresh : Refresh world path cache answer final)
    (before : cache.Excludes header)
    (own : ∀ entry, answer = .ok (some entry) → final.includes entry header = false) :
    final.Excludes header := by
  intro entry member
  rcases refresh.replaced.origin member with old | new
  · by_cases key : entry.path = path
    · cases answer with
      | error =>
        have same : final.includes entry header = cache.includes entry header := by
          rw [includes, refresh.engine_of_refused distinct member key, includes]
        exact same.trans (before entry old)
      | ok found =>
        cases found with
        | none => exact absurd key (refresh.replaced.missing distinct rfl entry member)
        | some new =>
          obtain ⟨inside, same⟩ := refresh.replaced.answered rfl
          rw [List.inj_on_of_nodup_map (refresh.distinct distinct) member inside (key.trans same.symm)]
          exact own new rfl
    · -- The calls of a refresh use no unit but that of its own path.
      obtain ⟨events, journal, calls⟩ := refresh.calling
      obtain ⟨others, told, stretch⟩ := refresh.stretch
      obtain rfl : others = events := List.append_cancel_left (told.symm.trans journal)
      have untouched : ∀ event ∈ others, event.used? ≠ some entry.serial := by
        intro event inside used
        obtain ⟨other, there, same, serial⟩ := (stretch.concerns event inside).uses _ used
        rw [eq_of_serial account there old serial] at same
        exact key same
      exact (steady.includes calls (held_of_mem old) untouched header).trans (before entry old)
  · exact own entry new

-- A unit cached before the search may be reparsed or replaced by it, so it is not enough that it
-- was asked at the start: it is asked again after its refresh, and no later call changes the answer.
private theorem Pass.excludes {listed : Path} (steady : Steady cache.stage)
    (account : Accounts cache cache.entries) (distinct : cache.paths.Nodup)
    (pass : Pass world header listed cache final) (before : cache.Excludes header) :
    final.Excludes header := by
  have refreshed : ∀ {middle entry},
      Refresh world (world.disk.absolute listed) cache (.ok (some entry)) middle →
      middle.includes entry header = false → middle.Excludes header := by
    intro middle entry refresh excluded
    apply refresh.excludes steady account distinct before
    intro other same
    cases same
    exact excluded
  cases pass with
  | skipped => exact before
  | failed _ refresh => exact refresh.excludes steady account distinct before nofun
  | @kept middle entry _ refresh excluded =>
    have excludes : middle.Excludes header := refreshed refresh excluded
    exact excludes
  | @evicted middle entry _ refresh excluded speculative =>
    have last : (middle.note (.checkIncludes entry.serial header)).entries =
        cache.entries ++ entry :: [] := refresh.replaced.appended rfl speculative
    obtain ⟨events, _, calls⟩ := refresh.calling
    have asked : Accounts (middle.note (.checkIncludes entry.serial header)) middle.entries :=
      (refresh.accounts account).used (refresh.replaced.answered rfl).1 rfl rfl
    have still : Steady (middle.note (.checkIncludes entry.serial header)).stage :=
      steady.later calls
    have excludes : middle.Excludes header := refreshed refresh excluded
    have left := Excludes.giveBack still asked last excludes
    rwa [List.append_nil] at left

private theorem Passed.excludes (steady : Steady cache.stage)
    (account : Accounts cache cache.entries) (distinct : cache.paths.Nodup)
    (passed : Passed world header sources cache final) (before : cache.Excludes header) :
    final.Excludes header := by
  induction passed with
  | nil => exact before
  | cons pass _ ih =>
    obtain ⟨events, _, calls⟩ := pass.calling
    exact ih (steady.later calls) (pass.accounts account) (pass.distinct distinct)
      (pass.excludes steady account distinct before)

/-- The files of a listing that a search refreshes. -/
def refreshable (world : World) (sources : List Path) : List Path :=
  (sources.map world.disk.absolute).filter fun source => (FileRole.ofPath source).isSource

private theorem refreshable_append (world : World) (before later : List Path) :
    refreshable world (before ++ later) = refreshable world before ++ refreshable world later := by
  rw [refreshable, List.map_append, List.filter_append]
  rfl

private theorem Pass.told {listed : Path} (pass : Pass world header listed cache final) :
    ∃ events, final.journal = cache.journal ++ events ∧
      events.filterMap Event.refreshed? = refreshable world [listed] := by
  cases pass with
  | skipped role => exact ⟨[], (List.append_nil _).symm, by simp [refreshable, role]⟩
  | failed role refresh =>
    obtain ⟨events, journal, stretch⟩ := refresh.stretch
    exact ⟨events, journal, by simp [refreshable, role, stretch.refreshes]⟩
  | @kept middle entry role refresh =>
    obtain ⟨events, journal, stretch⟩ := refresh.stretch
    refine ⟨events ++ [.checkIncludes entry.serial header], ?_, ?_⟩
    · rw [note_journal, journal, List.append_assoc]
    · simp [refreshable, role, stretch.refreshes, Event.refreshed?]
  | @evicted middle entry role refresh =>
    obtain ⟨events, journal, stretch⟩ := refresh.stretch
    refine ⟨events ++ [.checkIncludes entry.serial header,
      .dispose entry.serial (E.dispose middle.engine entry.unit).1], ?_, ?_⟩
    · simp [giveBack, journal]
    · simp [refreshable, role, stretch.refreshes, Event.refreshed?]

private theorem Passed.told (passed : Passed world header sources cache final) :
    ∃ events, final.journal = cache.journal ++ events ∧
      events.filterMap Event.refreshed? = refreshable world sources := by
  induction passed with
  | nil => exact ⟨[], (List.append_nil _).symm, rfl⟩
  | @cons listed rest _ _ _ pass _ ih =>
    obtain ⟨first, journal, refreshes⟩ := pass.told
    obtain ⟨last, later, others⟩ := ih
    refine ⟨first ++ last, ?_, ?_⟩
    · rw [later, journal, List.append_assoc]
    · rw [List.filterMap_append, refreshes, others, ← refreshable_append]
      rfl

/-- What a request for a header comes to if no cached unit includes it. An error has a collaborator
out of order; a unit is that of the first listed file that is not passed over, and no later file
is refreshed; none means that all files were passed over and no unit is left that includes it. -/
structure Resolved (world : World) (header : Path) (cache : Cache E) (answer : Answer E)
    (after : Cache E) (events : List Event) : Prop where
  refused : ∀ error, answer = .error error → ∃ event ∈ events, event.refusal? = some error
  first : ∀ served, answer = .ok (some served) →
    ∃ before listed later middle entry found,
      events.head? = some (.askSources (.ok (before ++ listed :: later))) ∧
      Passed world header before (cache.afterListing header (before ++ listed :: later)) middle ∧
      (FileRole.ofPath (world.disk.absolute listed)).isSource = true ∧
      Refresh world (world.disk.absolute listed) middle (.ok (some entry)) found ∧
      found.includes entry header = true ∧ served = unitOf entry ∧
      served.path = world.disk.absolute listed ∧
      events.filterMap Event.refreshed? = refreshable world (before ++ [listed])
  none : answer = .ok none →
    ∃ sources,
      events.head? = some (.askSources (.ok sources)) ∧
      Passed world header sources (cache.afterListing header sources) after ∧
      events.filterMap Event.refreshed? = refreshable world sources ∧
      after.Excludes header

private theorem Resolve.resolved (steady : Steady cache.stage)
    (account : Accounts cache cache.entries) (distinct : cache.paths.Nodup)
    (resolve : Resolve world header cache answer final)
    (excluded : cache.Excludes header) :
    ∃ events, final.journal = cache.journal ++ checks header cache.entries ++ events ∧
      Resolved world header cache (answer.map (Option.map unitOf)) final events := by
  cases resolve with
  | @cached left entry right held _ included =>
    have none := excluded entry (by simp [held])
    cases included.symm.trans none
  | unavailable =>
    refine ⟨_, rfl, ?_, nofun, nofun⟩
    intro error same
    cases same
    exact ⟨_, List.mem_singleton.mpr rfl, rfl⟩
  | @searched sources _ _ _ _ search =>
    cases search with
    | exhausted passed =>
      obtain ⟨events, journal, refreshes⟩ := passed.told
      refine ⟨.askSources (.ok sources) :: events, by simpa [afterListing] using journal, nofun,
        nofun, ?_⟩
      have checked := account.checks (fun _ member => member) header
      have listed : Accounts (cache.afterListing header sources) cache.entries :=
        checked.asked rfl rfl rfl
      have still : Steady (cache.afterListing header sources).stage := steady
      intro _
      exact ⟨sources, rfl, passed, refreshes, passed.excludes still listed distinct excluded⟩
    | @unavailable before listed later middle error _ split passed _ refresh =>
      obtain ⟨first, journal, _⟩ := passed.told
      obtain ⟨last, later, stretch⟩ := refresh.stretch
      refine ⟨.askSources (.ok sources) :: (first ++ last), ?_, ?_, nofun, nofun⟩
      · rw [later, journal]
        simp [afterListing]
      · intro other same
        cases same
        obtain ⟨event, member, refusal⟩ := stretch.refused error rfl
        exact ⟨event, List.mem_cons_of_mem _ (List.mem_append_right _ member), refusal⟩
    | @found before listed later middle entry found split passed role refresh included =>
      subst split
      obtain ⟨first, journal, passes⟩ := passed.told
      obtain ⟨last, after, stretch⟩ := refresh.stretch
      refine ⟨.askSources (.ok (before ++ listed :: later)) ::
        (first ++ (last ++ [.checkIncludes entry.serial header])), ?_, nofun, ?_, nofun⟩
      · rw [note_journal, after, journal]
        simp [afterListing]
      · intro served same
        cases same
        refine ⟨before, listed, later, middle, entry, found, rfl, passed, role, refresh, included, rfl,
          (refresh.replaced.answered rfl).2, ?_⟩
        have own : refreshable world [listed] = [world.disk.absolute listed] := by
          simp [refreshable, role]
        rw [refreshable_append, own, ← passes, ← stretch.refreshes]
        simp [List.filterMap_cons, Event.refreshed?]

theorem Resolve.includes {entry : Entry E}
    (resolve : Resolve world header cache (.ok (some entry)) final) :
    E.includes final.engine entry.unit header = true := by
  cases resolve with
  | cached _ _ included => exact included
  | searched _ _ search =>
    cases search with
    | found _ _ _ _ included => exact included

/-- The first cached unit that includes a header serves it, and nothing else happens. Otherwise the
listed files are searched in order, up to the first whose unit includes it. -/
theorem header_resolution (engine : E.State) (verbosity : Verbosity)
    (steps : List (World × Operation E)) (world : World) (path : Path)
    (steady : Steady ((create engine verbosity : Cache E).run steps).stage)
    (role : (FileRole.ofPath (world.disk.absolute path)).isSource = false) :
    let cache : Cache E := (create engine verbosity).run steps
    let header := world.disk.absolute path
    let answer := (cache.request world path).1
    let after := (cache.request world path).2
    (∀ left entry right, cache.entries = left ++ entry :: right →
      (∀ other ∈ left, cache.includes other header = false) →
      cache.includes entry header = true →
      answer = .ok (some (unitOf entry)) ∧
      after = cache.noteAll (checks header (left ++ [entry]))) ∧
    (cache.Excludes header →
      ∃ events, after.unlogged.journal =
          cache.unlogged.journal ++ checks header cache.entries ++ events ∧
        Resolved world header cache.unlogged answer after.unlogged events) ∧
    (∀ served, answer = .ok (some served) → E.includes after.engine served.unit header = true) := by
  intro cache header answer after
  have distinct := run_distinct engine verbosity steps
  obtain ⟨result, serve, answered⟩ := request_serve cache world path distinct
  have resolve : Resolve world header cache.unlogged result after.unlogged := by
    cases serve with
    | source source => cases role.symm.trans source
    | header _ resolve => exact resolve
  refine ⟨?_, ?_, ?_⟩
  · intro left entry right held excluded included
    have run : cache.request world path = cache.requestHeader world header := by
      simp only [request, role]
      rfl
    have cached := requestHeader_cached world held excluded included
    exact ⟨congrArg Prod.fst (run.trans cached), congrArg Prod.snd (run.trans cached)⟩
  · intro excludes
    have account := run_accounts engine verbosity steps
    have still : Steady cache.unlogged.stage := steady
    obtain ⟨events, journal, resolved⟩ := resolve.resolved still account distinct excludes
    rw [← answered] at resolved
    exact ⟨events, journal, resolved⟩
  · intro served same
    obtain ⟨entry, rfl, unit⟩ := answer_of_served (answered.symm.trans same)
    rw [← unit]
    exact resolve.includes

/-- The file was cached before it included the header, and its unit is reparsed in place. -/
theorem unit_reparsed_in_place_serves_header :
    let first := World.steady [] [] 7 .empty
    let second := { World.steady [] [⟨"a.h"⟩, ⟨"b.c"⟩, ⟨"c.c"⟩] 8 .empty with
      buffers := fun _ => .ok [⟨⟨"/h.h"⟩, ""⟩] }
    let cache : Cache inPlace := (create [] .quiet).run
      [(first, .request ⟨"a.c"⟩), (first, .request ⟨"b.c"⟩)]
    let after := (cache.request second ⟨"h.h"⟩).2
    Steady cache.stage ∧ (FileRole.ofPath (second.disk.absolute ⟨"h.h"⟩)).isSource = false ∧
    cache.entries.map Entry.unit = after.entries.map Entry.unit ∧
    ∃ events,
      Resolved second ⟨"/h.h"⟩ cache.unlogged (cache.request second ⟨"h.h"⟩).1 after.unlogged events ∧
      events.filterMap Event.refreshed? = [⟨"/b.c"⟩] ∧
      events.filterMap Event.unitCall? = [.reparse] := by
  intro first second cache after
  have key : second.disk.absolute ⟨"h.h"⟩ = ⟨"/h.h"⟩ := by decide +kernel
  have role : (FileRole.ofPath (second.disk.absolute ⟨"h.h"⟩)).isSource = false := by
    decide +kernel
  have steady : Steady cache.stage := by
    refine run_steady (E := inPlace) (InPlace.steady ⟨List.nodup_nil, nofun⟩) .quiet _ ?_
    simp
  obtain ⟨_, searched, _⟩ := header_resolution (E := inPlace) [] .quiet
    [(first, .request ⟨"a.c"⟩), (first, .request ⟨"b.c"⟩)] second ⟨"h.h"⟩ steady role
  have excludes : cache.Excludes (second.disk.absolute ⟨"h.h"⟩) := by
    unfold Excludes
    decide +kernel
  obtain ⟨events, journal, resolved⟩ := searched excludes
  rw [key] at resolved
  refine ⟨steady, role, by decide +kernel, events, resolved, ?_, ?_⟩
  · have before : cache.unlogged.journal.filterMap Event.refreshed? = [⟨"/a.c"⟩, ⟨"/b.c"⟩] := by
      decide +kernel
    have all : after.unlogged.journal.filterMap Event.refreshed? =
        [⟨"/a.c"⟩, ⟨"/b.c"⟩, ⟨"/b.c"⟩] := by decide +kernel
    rw [journal, List.filterMap_append, List.filterMap_append, before,
      filterMap_checks _ (fun _ _ => rfl)] at all
    exact List.append_cancel_left all
  · have before : cache.unlogged.journal.filterMap Event.unitCall? = [.parse, .parse] := by
      decide +kernel
    have all : after.unlogged.journal.filterMap Event.unitCall? = [.parse, .parse, .reparse] := by
      decide +kernel
    rw [journal, List.filterMap_append, List.filterMap_append, before,
      filterMap_checks _ (fun _ _ => rfl)] at all
    exact List.append_cancel_left all

end Cache
end UnitCache
