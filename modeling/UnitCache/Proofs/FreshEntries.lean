import Mathlib.Data.List.Nodup
import UnitCache.Proofs.SearchFootprint

/-! What it takes to lose an entry. While the database and the file system go on telling of a file
what its entry has, no request touches the entry, whichever files it looks into on the way; only an
operation that is aimed at the entry takes it away. -/

namespace UnitCache

/-- What is told of the file of an entry is what the entry has. An outage tells nothing. -/
def Event.Confirms {E : Engine} (entry : Entry E) : Event → Prop
  | .askArguments path (.ok arguments) => path = entry.path → arguments = entry.arguments
  | .askModified path time => path = entry.path → time.toOption = entry.modified
  | _ => True

instance {E : Engine} (entry : Entry E) : DecidablePred (Event.Confirms entry)
  | .askArguments path (.ok arguments) =>
    inferInstanceAs (Decidable (path = entry.path → arguments = entry.arguments))
  | .askModified path time =>
    inferInstanceAs (Decidable (path = entry.path → time.toOption = entry.modified))
  | .askArguments _ (.error _) | .openIndex _ | .closeIndex .. | .readFlags | .setFlags _
  | .readEditingFlags | .readReparseFlags _ | .parse .. | .reparse .. | .dispose .. | .checkIncludes ..
  | .askSources _ | .askBuffers _ | .log _ => isTrue trivial

/-- Is not aimed at the entry of a path, nor at every entry. -/
def Operation.Spares {E : Engine} (world : World) (path : Path) : Operation E → Prop
  | .remove other => world.disk.absolute other ≠ path
  | .clear | .close => False
  | _ => True

namespace Cache
open Proofs Journal

variable {E : Engine} {world : World} {path header : Path} {sources : List Path}
  {cache middle final : Cache E} {answer : Except CacheError (Option (Entry E))}
  {entry : Entry E} {events : List Event}

def parsedPaths (events : List Event) : List Path := (requests events).map ParseRequest.path

@[simp] theorem parsedPaths_append (first last : List Event) :
    parsedPaths (first ++ last) = parsedPaths first ++ parsedPaths last := by
  simp [parsedPaths]

/-- Files that have not been parsed since were there before, and in this order. -/
def InOrder (before after : List Path) (events : List Event) : Prop :=
  (after.filter fun path => path ∉ parsedPaths events).Sublist before

namespace InOrder
variable {before between after : List Path} {later : List Event}

private theorem of_sublist (fewer : after.Sublist before) : InOrder before after events :=
  List.filter_sublist.trans fewer

private theorem trans (first : InOrder before between events) (last : InOrder between after later) :
    InOrder before after (events ++ later) := by
  have narrowed := List.Sublist.filter (fun path => decide (path ∉ parsedPaths events)) last
  rw [List.filter_filter] at narrowed
  simpa [InOrder] using narrowed.trans first

end InOrder

private theorem FullParse.ordered {arguments : List String} {modified : Option Timestamp}
    (full : FullParse world path arguments modified cache answer final) :
    ∃ events, final.journal = cache.journal ++ events ∧
      InOrder cache.paths final.paths events := by
  cases full with
  | unavailable => exact ⟨_, rfl, .of_sublist (List.Sublist.refl _)⟩
  | indexClosed => exact ⟨_, rfl, .of_sublist (List.Sublist.refl _)⟩
  | failed => exact ⟨_, rfl, .of_sublist (List.Sublist.refl _)⟩
  | parsed =>
    refine ⟨_, rfl, ?_⟩
    simp [InOrder, paths, parsedPaths, requests, Event.request?, List.filter_append]

private theorem ordered_behind {before : Cache E} {other : Entry E} {arguments : List String}
    {modified : Option Timestamp} {past : List Event}
    (full : FullParse world path arguments modified (giveBack before other) answer final)
    (journal : before.journal = cache.journal ++ past)
    (fewer : before.paths.Sublist cache.paths) :
    ∃ events, final.journal = cache.journal ++ events ∧
      InOrder cache.paths final.paths events := by
  obtain ⟨events, later, ordered⟩ := full.ordered
  have first : InOrder cache.paths before.paths
      (past ++ [.dispose other.serial (E.dispose before.engine other.unit).1]) :=
    .of_sublist fewer
  refine ⟨_, ?_, first.trans ordered⟩
  rw [later, giveBack, journal]
  simp

/-- A refresh puts its file last only by parsing it. -/
theorem Refresh.ordered (refresh : Refresh world path cache answer final) :
    ∃ events, final.journal = cache.journal ++ events ∧
      InOrder cache.paths final.paths events := by
  have without : ∀ {left right : List (Entry E)} {other : Entry E},
      cache.entries = left ++ other :: right →
        ((left ++ right).map Entry.path).Sublist cache.paths := by
    intro left right other held
    rw [paths, held]
    exact (List.Sublist.append_left (List.sublist_cons_self other right) left).map Entry.path
  cases refresh with
  | unavailable => exact ⟨_, rfl, .of_sublist (List.Sublist.refl _)⟩
  | absent _ _ full =>
    obtain ⟨events, journal, ordered⟩ := full.ordered
    exact ⟨_, journal.trans (List.append_assoc ..),
      .trans (.of_sublist (List.Sublist.refl _)) ordered⟩
  | reused => exact ⟨_, rfl, .of_sublist (List.Sublist.refl _)⟩
  | noBuffers => exact ⟨_, List.append_assoc .., .of_sublist (List.Sublist.refl _)⟩
  | reparsed _ held =>
    refine ⟨_, List.append_assoc .., .of_sublist ?_⟩
    simp [paths, held]
  | reparseFailed _ held _ _ _ _ _ _ _ full =>
    exact ordered_behind full (List.append_assoc ..) (without held)
  | rebuilt _ held _ _ full => exact ordered_behind full rfl (without held)

/-- A refresh only asks, unless there is no entry that has what it is told. -/
theorem Refresh.asks_or_differs (refresh : Refresh world path cache answer final)
    (distinct : cache.paths.Nodup) :
    ∃ events, final.journal = cache.journal ++ events ∧
      ((final.entries = cache.entries ∧ events.all Event.isQuestion = true) ∨
      ∃ arguments time, .askArguments path (.ok arguments) ∈ events ∧
        .askModified path time ∈ events ∧ ∀ entry ∈ cache.entries, entry.path = path →
          arguments ≠ entry.arguments ∨ time.toOption ≠ entry.modified) := by
  have only : ∀ {left right : List (Entry E)} {other : Entry E},
      cache.entries = left ++ other :: right → other.path = path →
      ∀ entry ∈ cache.entries, entry.path = path → entry = other := by
    intro left right other held key entry member same
    exact List.inj_on_of_nodup_map distinct member (by simp [held]) (same.trans key.symm)
  cases refresh with
  | unavailable => exact ⟨_, rfl, .inl ⟨rfl, rfl⟩⟩
  | reused => exact ⟨_, rfl, .inl ⟨rfl, rfl⟩⟩
  | noBuffers => exact ⟨_, List.append_assoc .., .inl ⟨rfl, rfl⟩⟩
  | @absent arguments time _ _ _ missing full =>
    obtain ⟨events, journal, _⟩ := full.stretch []
    refine ⟨_, journal.trans (List.append_assoc ..), .inr ⟨arguments, time, by simp, by simp, ?_⟩⟩
    intro entry member key
    exact absurd key (missing entry member)
  | @reparsed arguments time left other right unsaved flags reply _ held key _ otherTime =>
    refine ⟨_, List.append_assoc .., .inr ⟨arguments, time, by simp, by simp, ?_⟩⟩
    intro entry member same
    exact only held key entry member same ▸ .inr otherTime.symm
  | @reparseFailed arguments time left other right unsaved flags reply cause _ _ _ held key _ otherTime
      _ _ _ _ full =>
    obtain ⟨events, journal, _⟩ := full.stretch []
    refine ⟨_, journal.trans ((List.append_assoc ..).trans ((List.append_assoc ..).trans
      (List.append_assoc ..))), .inr ⟨arguments, time, by simp, by simp, ?_⟩⟩
    intro entry member same
    exact only held key entry member same ▸ .inr otherTime.symm
  | @rebuilt arguments time left other right _ _ _ held key otherArguments full =>
    obtain ⟨events, journal, _⟩ := full.stretch []
    refine ⟨_, journal.trans ((List.append_assoc ..).trans (List.append_assoc ..)),
      .inr ⟨arguments, time, by simp, by simp, ?_⟩⟩
    intro entry member same
    exact only held key entry member same ▸ .inl otherArguments.symm

/-- An entry that nothing has happened to, among others that may come and go. -/
structure Undisturbed (entry : Entry E) (cache final : Cache E) (events : List Event) : Prop where
  kept : entry ∈ final.entries
  /-- Its unit is neither reparsed nor given back. -/
  uncalled : ∀ event ∈ events, event.unitCall?.isSome = true → event.used? ≠ some entry.serial
  unparsed : entry.path ∉ parsedPaths events
  ordered : InOrder cache.paths final.paths events

/-- An entry is undisturbed on the way from one state to another if all that is told of its file on
the way is what it has. -/
def Survives (entry : Entry E) (cache final : Cache E) : Prop :=
  ∃ events, final.journal = cache.journal ++ events ∧
    (entry ∈ cache.entries → (∀ event ∈ events, event.Confirms entry) →
      Undisturbed entry cache final events)

namespace Survives

private theorem trans (first : Survives entry cache middle) (last : Survives entry middle final) :
    Survives entry cache final := by
  obtain ⟨events, journal, early⟩ := first
  obtain ⟨later, grown, late⟩ := last
  refine ⟨events ++ later, by rw [grown, journal, List.append_assoc], ?_⟩
  intro member confirmed
  have before := early member fun event inside => confirmed event (List.mem_append_left _ inside)
  have after := late before.kept fun event inside => confirmed event (List.mem_append_right _ inside)
  refine ⟨after.kept, ?_, ?_, before.ordered.trans after.ordered⟩
  · intro event inside
    rcases List.mem_append.mp inside with inside | inside
    · exact before.uncalled event inside
    · exact after.uncalled event inside
  · simpa using ⟨before.unparsed, after.unparsed⟩

/-- Where no unit is called and the entries stay, every entry survives. -/
theorem silent (journal : final.journal = cache.journal ++ events)
    (entries : final.entries = cache.entries)
    (calls : ∀ event ∈ events, event.unitCall? = none) : Survives entry cache final := by
  refine ⟨events, journal, fun member _ => ⟨entries ▸ member, ?_, ?_, ?_⟩⟩
  · intro event inside call
    rw [calls event inside] at call
    cases call
  · intro parsed
    obtain ⟨request, asked, _⟩ := List.mem_map.mp parsed
    obtain ⟨outcome, inside⟩ := mem_requests.mp asked
    cases calls _ inside
  · have same : final.paths = cache.paths := congrArg (List.map Entry.path) entries
    rw [same]
    exact .of_sublist (List.Sublist.refl _)

private theorem checked (cache : Cache E) (serial : Nat) (header : Path) :
    Survives entry cache (cache.note (.checkIncludes serial header)) :=
  .silent rfl rfl (by simp [Event.unitCall?])

private theorem givenBack {left right : List (Entry E)} {other : Entry E}
    (account : Accounts cache cache.entries) (held : cache.entries = left ++ other :: right)
    (apart : other.path ≠ entry.path) :
    Survives entry cache (giveBack { cache with entries := left ++ right } other) := by
  refine ⟨_, rfl, fun member _ => ⟨?_, ?_, List.not_mem_nil, ?_⟩⟩
  · have different : entry ≠ other := fun same => apart (same ▸ rfl)
    rw [held] at member
    change entry ∈ left ++ right
    simpa [different] using member
  · intro event inside _ used
    obtain rfl := List.mem_singleton.mp inside
    have same : other = entry :=
      eq_of_serial account (by simp [held]) member (Option.some.inj used)
    exact apart (same ▸ rfl)
  · have fewer := List.Sublist.append_left (List.sublist_cons_self other right) left
    rw [paths, held]
    exact .of_sublist (fewer.map Entry.path)

end Survives

private theorem Refresh.survives (refresh : Refresh world path cache answer final)
    (distinct : cache.paths.Nodup) (account : Accounts cache cache.entries) :
    Survives entry cache final := by
  obtain ⟨events, journal, stretch⟩ := refresh.stretch
  obtain ⟨_, told, ordered⟩ := refresh.ordered
  obtain rfl := List.append_cancel_left (told.symm.trans journal)
  by_cases own : entry.path = path
  · obtain ⟨_, asked, outcome⟩ := refresh.asks_or_differs distinct
    obtain rfl := List.append_cancel_left (asked.symm.trans journal)
    rcases outcome with ⟨same, questions⟩ | ⟨arguments, time, database, file, differs⟩
    · refine .silent journal same fun event member => ?_
      exact List.filterMap_eq_nil_iff.mp (calls_of_questions questions) event member
    · refine ⟨_, journal, fun member confirmed => ?_⟩
      rcases differs entry member own with other | other
      · exact absurd (confirmed _ database own.symm) other
      · exact absurd (confirmed _ file own.symm) other
  · refine ⟨_, journal, fun member _ => ⟨refresh.replaced.others own member, ?_, ?_, ordered⟩⟩
    · intro event inside _ used
      obtain ⟨other, held, key, same⟩ := (stretch.concerns event inside).uses _ used
      exact own (eq_of_serial account held member same ▸ key)
    · intro parsed
      obtain ⟨request, asked, same⟩ := List.mem_map.mp parsed
      obtain ⟨outcome, inside⟩ := mem_requests.mp asked
      exact own (same.symm.trans ((stretch.concerns _ inside).parses request outcome rfl))

private theorem Pass.survives {listed : Path} (pass : Pass world header listed cache final)
    (distinct : cache.paths.Nodup) (account : Accounts cache cache.entries) :
    Survives entry cache final := by
  cases pass with
  | skipped => exact .silent (List.append_nil _).symm rfl nofun
  | failed _ refresh => exact refresh.survives distinct account
  | kept _ refresh => exact (refresh.survives distinct account).trans (.checked ..)
  | @evicted middle other _ refresh _ speculative =>
    have last : middle.entries = cache.entries ++ [other] :=
      refresh.replaced.appended rfl speculative
    have key : other.path = world.disk.absolute listed := (refresh.replaced.answered rfl).2
    have asked : Accounts (middle.note (.checkIncludes other.serial header)) middle.entries :=
      (refresh.accounts account).used (refresh.replaced.answered rfl).1 rfl rfl
    by_cases own : other.path = entry.path
    · -- The entry that is given back was not there before, so it is not the one that is to survive.
      obtain ⟨events, journal, _⟩ := refresh.stretch
      refine ⟨events ++ [.checkIncludes other.serial header,
        .dispose other.serial (E.dispose middle.engine other.unit).1], by simp [giveBack, journal], ?_⟩
      intro member
      exact absurd (own.symm.trans key) (speculative entry member)
    · have evicted := @Survives.givenBack E _ entry cache.entries [] other asked last own
      rw [List.append_nil] at evicted
      exact ((refresh.survives distinct account).trans (.checked ..)).trans evicted

private theorem Passed.survives (passed : Passed world header sources cache final)
    (distinct : cache.paths.Nodup) (account : Accounts cache cache.entries) :
    Survives entry cache final := by
  induction passed with
  | nil => exact .silent (List.append_nil _).symm rfl nofun
  | cons pass _ ih =>
    exact (pass.survives distinct account).trans (ih (pass.distinct distinct) (pass.accounts account))

private theorem Search.survives (search : Search world header sources cache answer final)
    (distinct : cache.paths.Nodup) (account : Accounts cache cache.entries) :
    Survives entry cache final := by
  cases search with
  | exhausted passed => exact passed.survives distinct account
  | unavailable _ passed _ refresh =>
    exact (passed.survives distinct account).trans
      (refresh.survives (passed.distinct distinct) (passed.accounts account))
  | found _ passed _ refresh =>
    exact ((passed.survives distinct account).trans
      (refresh.survives (passed.distinct distinct) (passed.accounts account))).trans (.checked ..)

private theorem Resolve.survives (resolve : Resolve world header cache answer final)
    (distinct : cache.paths.Nodup) (account : Accounts cache cache.entries) :
    Survives entry cache final := by
  have checked : ∀ entries : List (Entry E), Survives entry cache
      { cache with journal := cache.journal ++ checks header entries } := by
    intro entries
    refine .silent rfl rfl fun event member => ?_
    have silent := filterMap_checks Event.unitCall? (fun _ _ => rfl) header entries
    exact List.filterMap_eq_nil_iff.mp silent event member
  have told : ∀ {before : Cache E} {answer : Except String (List Path)},
      Survives entry before (before.note (.askSources answer)) :=
    .silent rfl rfl (by simp [Event.unitCall?])
  cases resolve with
  | cached => exact checked _
  | unavailable => exact (checked _).trans told
  | searched _ _ search =>
    refine ((checked _).trans told).trans (search.survives distinct ?_)
    exact (account.checks (fun _ member => member) header).asked rfl rfl rfl

private theorem Serve.survives (serve : Serve world path cache answer final)
    (distinct : cache.paths.Nodup) (account : Accounts cache cache.entries) :
    Survives entry cache final := by
  cases serve with
  | source _ refresh => exact refresh.survives distinct account
  | header _ resolve => exact resolve.survives distinct account

private theorem perform_survives {operation : Operation E} (distinct : cache.paths.Nodup)
    (account : Accounts cache.unlogged cache.entries) (spared : operation.Spares world entry.path) :
    Survives entry cache.unlogged (cache.perform world operation).unlogged := by
  have idle : Survives entry cache.unlogged cache.unlogged :=
    .silent (List.append_nil _).symm rfl nofun
  have request : ∀ path, Survives entry cache.unlogged (cache.request world path).2.unlogged := by
    intro path
    obtain ⟨answer, serve, _⟩ := request_serve cache world path distinct
    exact serve.survives distinct account
  cases operation with
  | request path => exact request path
  | ensure path =>
    simp only [perform, ensure]
    split
    · exact idle
    · exact request path
  | renew path =>
    simp only [perform, renew]
    split
    · exact request path
    · exact idle
  | remove path =>
    have removal := removeAt_removal distinct (world.disk.absolute path)
    change Survives entry cache.unlogged (cache.removeAt (world.disk.absolute path)).2.unlogged
    generalize (cache.removeAt (world.disk.absolute path)).1 = found at removal
    generalize (cache.removeAt (world.disk.absolute path)).2.unlogged = after at removal
    cases removal with
    | absent => exact idle
    | removed held key => exact .givenBack account held fun same => spared (key.symm.trans same)
  | clear => exact spared.elim
  | close => exact spared.elim
  | readFlags =>
    simp only [perform, indexFlags]
    split
    · exact idle
    · rw [unlogged_note _ rfl]
      exact .silent rfl rfl (by simp [Event.unitCall?])
  | setFlags flags =>
    simp only [perform, setIndexFlags]
    split
    · exact idle
    · rw [unlogged_note _ rfl]
      exact .silent rfl rfl (by simp [Event.unitCall?])
  | disturb engine => exact .silent (List.append_nil _).symm rfl nofun

private theorem run_survives (distinct : cache.paths.Nodup)
    (account : Accounts cache.unlogged cache.entries) (steps : List (World × Operation E))
    (spared : ∀ step ∈ steps, step.2.Spares step.1 entry.path) :
    Survives entry cache.unlogged (cache.run steps).unlogged := by
  induction steps generalizing cache with
  | nil => exact .silent (List.append_nil _).symm rfl nofun
  | cons step rest ih =>
    have unique : cache.unlogged.paths.Nodup := distinct
    have move := perform_move cache step.1 step.2 distinct
    exact (perform_survives distinct account (spared step List.mem_cons_self)).trans
      (ih (move.distinct unique) (move.accounts account)
        fun other member => spared other (List.mem_cons_of_mem _ member))

/-- Whatever is asked for and whatever fails, an entry stays as it is and no call is made for its
file, as long as no operation is aimed at it and all that is told of its file is what it has. The
entries around it that are not parsed anew keep their places before or behind it. -/
theorem fresh_entry_survives (engine : E.State) (verbosity : Verbosity)
    (before since : List (World × Operation E)) (entry : Entry E)
    (cached : entry ∈ ((create engine verbosity).run before).entries)
    (spared : ∀ step ∈ since, step.2.Spares step.1 entry.path) :
    let cache : Cache E := (create engine verbosity).run before
    let after : Cache E := (create engine verbosity).run (before ++ since)
    ∃ events, after.unlogged.journal = cache.unlogged.journal ++ events ∧
      ((∀ event ∈ events, event.Confirms entry) →
        Undisturbed entry cache.unlogged after.unlogged events) := by
  intro cache after
  obtain ⟨events, journal, undisturbed⟩ := run_survives (run_distinct engine verbosity before)
    (run_accounts engine verbosity before) since spared
  rw [← run_append] at journal undisturbed
  exact ⟨events, journal, undisturbed cached⟩

theorem listed_entry_survives_search :
    let script : Scripted.Script := { Scripted.Script.empty with
      includes := [(⟨"/c.c"⟩, [⟨"/h.h"⟩])] }
    let first := World.steady ["-O2"] [] 7 .empty
    let second := { World.steady ["-O2"] [⟨"./a.c"⟩, ⟨"b.c"⟩, ⟨"c.c"⟩] 7 .empty with
      compileArguments := fun _ path => .ok (if path = ⟨"/b.c"⟩ then ["-O0"] else ["-O2"]) }
    let offline := { first with compileArguments := fun _ _ => .error "offline" }
    let before : List (World × Operation Scripted.engine) :=
      [(first, .request ⟨"d.c"⟩), (first, .request ⟨"b.c"⟩), (first, .request ⟨"a.c"⟩)]
    let since : List (World × Operation Scripted.engine) :=
      [(second, .request ⟨"h.h"⟩), (offline, .request ⟨"a.c"⟩), (first, .remove ⟨"d.c"⟩)]
    let cache : Cache Scripted.engine := (create script .quiet).run before
    let after : Cache Scripted.engine := (create script .quiet).run (before ++ since)
    cache.paths = [⟨"/d.c"⟩, ⟨"/b.c"⟩, ⟨"/a.c"⟩] ∧ after.paths = [⟨"/a.c"⟩, ⟨"/b.c"⟩, ⟨"/c.c"⟩] ∧
    ∃ entry events, entry.path = ⟨"/a.c"⟩ ∧ entry ∈ cache.entries ∧
      (∀ event ∈ events, event.Confirms entry) ∧
      Undisturbed entry cache.unlogged after.unlogged events := by
  intro script first second offline before since cache after
  have paths : cache.paths = [⟨"/d.c"⟩, ⟨"/b.c"⟩, ⟨"/a.c"⟩] := by decide +kernel
  have cached : (⟨"/a.c"⟩ : Path) ∈ cache.paths := by rw [paths]; simp
  obtain ⟨entry, member, key⟩ := List.mem_map.mp cached
  have spared : ∀ step ∈ since, step.2.Spares step.1 entry.path := by
    intro step inside
    simp only [since, List.mem_cons, List.not_mem_nil, or_false] at inside
    rw [key]
    rcases inside with rfl | rfl | rfl
    · trivial
    · trivial
    · change first.disk.absolute ⟨"d.c"⟩ ≠ ⟨"/a.c"⟩
      decide +kernel
  obtain ⟨events, journal, undisturbed⟩ :=
    fresh_entry_survives (E := Scripted.engine) script .quiet before since entry member spared
  have told : events = after.unlogged.journal.drop cache.unlogged.journal.length := by
    rw [journal, List.drop_left]
  have confirmed : ∀ event ∈ after.unlogged.journal.drop cache.unlogged.journal.length,
      ∀ entry ∈ cache.entries, entry.path = ⟨"/a.c"⟩ → event.Confirms entry := by
    decide +kernel
  have fresh : ∀ event ∈ events, event.Confirms entry :=
    fun event inside => confirmed event (told ▸ inside) entry member key
  exact ⟨paths, by decide +kernel, entry, events, key, member, fresh, undisturbed fresh⟩

end Cache
end UnitCache
