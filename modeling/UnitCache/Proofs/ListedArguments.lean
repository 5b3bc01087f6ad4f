import UnitCache.CommandLine.Report
import UnitCache.Engine.Scripted
import UnitCache.Proofs.Provenance

/-! What a database lists is what files are parsed with. The database keeps its files under
normalized paths and a cache asks for absolute ones, so the two call a file by the same path if the
listed path is absolute. -/

namespace UnitCache

namespace CommandDatabase
open CommandLine Proofs.CanonicalPath

variable {entries final : List (Path × List String)} {commands loaded : CommandDatabase}

/-- The entries of a database: one for each file, under its normalized path. -/
structure Indexed (entries : List (Path × List String)) : Prop where
  distinct : (entries.map Prod.fst).Nodup
  normal : ∀ entry ∈ entries, entry.1.normalize = entry.1

theorem isSome_lookup?_iff {file : Path} :
    (lookup? entries file).isSome = true ↔ file ∈ entries.map Prod.fst := by
  simp [lookup?]

private theorem lookup?_of_mem {file : Path} {arguments : List String}
    (distinct : (entries.map Prod.fst).Nodup) (member : (file, arguments) ∈ entries) :
    lookup? entries file = some arguments := by
  induction entries with
  | nil => cases member
  | cons entry rest ih =>
    rw [List.map_cons, List.nodup_cons] at distinct
    rcases List.mem_cons.mp member with rfl | later
    · simp [lookup?]
    · have other : entry.1 ≠ file := fun same => distinct.1 (same ▸ List.mem_map_of_mem later)
      rw [lookup?, List.find?_cons_of_neg (by simpa using other)]
      exact ih distinct.2 later

/-- The first command for a file is the one that is entered. -/
theorem indexed_addCommands {added : List CompileCommand} (indexed : Indexed entries)
    (read : addCommands entries added = .ok final) : Indexed final := by
  induction added generalizing entries with
  | nil => exact Except.ok.inj read ▸ indexed
  | cons command rest ih =>
    unfold addCommands at read
    split at read
    · cases read
    split at read
    · exact ih indexed read
    · rename_i absent
      refine ih ⟨?_, ?_⟩ read
      · have new := mt isSome_lookup?_iff.mpr absent
        rw [List.map_append, List.nodup_append]
        refine ⟨indexed.distinct, by simp, ?_⟩
        rintro file member other last rfl
        obtain rfl : file = command.key := List.mem_singleton.mp last
        exact new member
      · intro entry member
        rcases List.mem_append.mp member with old | new
        · exact indexed.normal entry old
        · obtain rfl := List.mem_singleton.mp new
          exact normalize_normalize _

theorem addCommands_of_ofCommands {listed : List CompileCommand}
    (read : ofCommands listed = .ok loaded) : addCommands [] listed = .ok loaded.entries := by
  unfold ofCommands at read
  cases added : addCommands [] listed with
  | error error =>
    rw [added] at read
    cases read
  | ok entries =>
    rw [added] at read
    rw [← Except.ok.inj read]

theorem indexed_ofCommands {listed : List CompileCommand} (read : ofCommands listed = .ok loaded) :
    Indexed loaded.entries := by
  have empty : Indexed [] := ⟨List.nodup_nil, by simp⟩
  exact indexed_addCommands empty (addCommands_of_ofCommands read)

private theorem indexed_ofText {text : String} (loads : ofText text = .ok loaded) :
    Indexed loaded.entries := by
  unfold ofText at loads
  split at loads
  · cases loads
  · exact indexed_ofCommands loads

private theorem compileArguments_of_mem {file : Path} {arguments : List String}
    (indexed : Indexed commands.entries) (member : (file, arguments) ∈ commands.entries) :
    commands.compileArguments file = arguments := by
  have normal : file.normalize = file := indexed.normal (file, arguments) member
  rw [compileArguments, get?, normal, lookup?_of_mem indexed.distinct member]
  rfl

/-- What is listed is entered, with the arguments that a request for the file would get. -/
theorem mem_entries_of_listed {report : SourceReport} (indexed : Indexed commands.entries)
    (listed : report ∈ SourceReport.ofDatabase commands) :
    (report.file, report.arguments) ∈ commands.entries := by
  obtain ⟨file, source, rfl⟩ := List.mem_map.mp listed
  obtain ⟨⟨file, arguments⟩, member, rfl⟩ := List.mem_map.mp (List.mem_filter.mp source).1
  rwa [compileArguments_of_mem indexed member]

end CommandDatabase

/-- Collaborators whose database tells these arguments of each file, if it tells any. -/
def World.Tells (world : World) (arguments : Path → List String) : Prop :=
  ∀ journal path told, world.compileArguments journal path = .ok told → told = arguments path

namespace Cache
open Proofs CanonicalPath Journal

variable {E : Engine} {world : World} {path header : Path} {sources : List Path}
  {cache middle final : Cache E} {answer : Except CacheError (Option (Entry E))}
  {events : List Event} {arguments : Path → List String}

/-- Whatever is parsed on the way from one state to another is parsed with its arguments. -/
structure ParsesWith (arguments : Path → List String) (cache final : Cache E) : Prop where
  tier : final.verbosity = cache.verbosity
  parses : ∃ events, final.journal = cache.journal ++ events ∧
    ∀ request ∈ requests events,
      request.arguments = engineArguments cache.verbosity (arguments request.path)

namespace ParsesWith

private theorem trans (first : ParsesWith arguments cache middle)
    (last : ParsesWith arguments middle final) : ParsesWith arguments cache final := by
  obtain ⟨events, journal, early⟩ := first.parses
  obtain ⟨later, grown, late⟩ := last.parses
  refine ⟨last.tier.trans first.tier, events ++ later, ?_, ?_⟩
  · rw [grown, journal, List.append_assoc]
  · intro request member
    rw [requests_append] at member
    rcases List.mem_append.mp member with before | after
    · exact early request before
    · exact first.tier ▸ late request after

/-- Nothing is parsed. -/
theorem silent (journal : final.journal = cache.journal ++ events)
    (tier : final.verbosity = cache.verbosity) (parseless : requests events = []) :
    ParsesWith arguments cache final :=
  ⟨tier, events, journal, fun request member => by simp [parseless] at member⟩

private theorem checked (cache : Cache E) (serial : Nat) (header : Path) :
    ParsesWith arguments cache (cache.note (.checkIncludes serial header)) :=
  .silent rfl rfl rfl

private theorem giveBack (earlier : ParsesWith arguments cache middle) (entry : Entry E) :
    ParsesWith arguments cache (middle.giveBack entry) :=
  earlier.trans (.silent rfl rfl rfl)

private theorem giveBackAll (earlier : ParsesWith arguments cache middle)
    (entries : List (Entry E)) :
    ParsesWith arguments cache (entries.foldl Cache.giveBack middle) := by
  induction entries generalizing middle with
  | nil => exact earlier
  | cons entry rest ih => exact ih (earlier.giveBack entry)

end ParsesWith

private theorem FullParse.parsesWith {modified : Option Timestamp}
    (full : FullParse world path (arguments path) modified cache answer final) :
    ParsesWith arguments cache final := by
  cases full with
  | unavailable => exact .silent rfl rfl rfl
  | indexClosed => exact .silent rfl rfl rfl
  | failed => exact ⟨rfl, _, rfl, by simp [requests, Event.request?, requestFor]⟩
  | parsed => exact ⟨rfl, _, rfl, by simp [requests, Event.request?, requestFor]⟩

private theorem Refresh.parsesWith (refresh : Refresh world path cache answer final)
    (tells : world.Tells arguments) : ParsesWith arguments cache final := by
  have told : ∀ {words time}, Queried world path cache words time → words = arguments path := by
    intro words time queries
    obtain ⟨history, _, answered⟩ := queries.database
    exact tells _ _ _ answered
  have asked : ∀ words time, ParsesWith arguments cache (cache.afterQueries path words time) :=
    fun _ _ => .silent rfl rfl rfl
  cases refresh with
  | unavailable => exact .silent rfl rfl rfl
  | absent queries _ full =>
    obtain rfl := told queries
    exact (asked _ _).trans full.parsesWith
  | reused => exact asked _ _
  | noBuffers => exact (asked _ _).trans (.silent rfl rfl rfl)
  | reparsed => exact .silent (List.append_assoc ..) rfl rfl
  | reparseFailed queries _ _ _ _ _ _ _ _ full =>
    obtain rfl := told queries
    refine .trans (.giveBack ?_ _) full.parsesWith
    exact .silent (List.append_assoc ..) rfl rfl
  | rebuilt queries _ _ _ full =>
    obtain rfl := told queries
    refine .trans (.giveBack ?_ _) full.parsesWith
    exact .silent rfl rfl rfl

private theorem Pass.parsesWith {listed : Path} (pass : Pass world header listed cache final)
    (tells : world.Tells arguments) : ParsesWith arguments cache final := by
  cases pass with
  | skipped => exact .silent (List.append_nil _).symm rfl rfl
  | failed _ refresh => exact refresh.parsesWith tells
  | kept _ refresh => exact (refresh.parsesWith tells).trans (.checked ..)
  | @evicted middle entry _ refresh =>
    have asked : ParsesWith arguments cache { middle.note (.checkIncludes entry.serial header) with
        entries := cache.entries } :=
      (refresh.parsesWith tells).trans (.silent rfl rfl rfl)
    exact asked.giveBack entry

private theorem Passed.parsesWith (passed : Passed world header sources cache final)
    (tells : world.Tells arguments) : ParsesWith arguments cache final := by
  induction passed with
  | nil => exact .silent (List.append_nil _).symm rfl rfl
  | cons pass _ ih => exact (pass.parsesWith tells).trans ih

private theorem Search.parsesWith (search : Search world header sources cache answer final)
    (tells : world.Tells arguments) : ParsesWith arguments cache final := by
  cases search with
  | exhausted passed => exact passed.parsesWith tells
  | unavailable _ passed _ refresh =>
    exact (passed.parsesWith tells).trans (refresh.parsesWith tells)
  | found _ passed _ refresh =>
    exact ((passed.parsesWith tells).trans (refresh.parsesWith tells)).trans (.checked ..)

private theorem Resolve.parsesWith (resolve : Resolve world header cache answer final)
    (tells : world.Tells arguments) : ParsesWith arguments cache final := by
  have checked : ∀ entries : List (Entry E), ParsesWith arguments cache
      { cache with journal := cache.journal ++ checks header entries } :=
    fun entries => .silent rfl rfl (filterMap_checks _ (fun _ _ => rfl) header entries)
  cases resolve with
  | cached => exact checked _
  | unavailable => exact (checked _).trans (.silent rfl rfl rfl)
  | searched _ _ search =>
    refine (checked cache.entries).trans (.trans ?_ (search.parsesWith tells))
    exact .silent rfl rfl rfl

private theorem Serve.parsesWith (serve : Serve world path cache answer final)
    (tells : world.Tells arguments) : ParsesWith arguments cache final := by
  cases serve with
  | source _ refresh => exact refresh.parsesWith tells
  | header _ resolve => exact resolve.parsesWith tells

private theorem Move.parsesWith (move : Move world cache final) (tells : world.Tells arguments) :
    ParsesWith arguments cache final := by
  have idle : ParsesWith arguments cache cache := .silent (List.append_nil _).symm rfl rfl
  have empty : ParsesWith arguments cache { cache with entries := [] } :=
    .silent (List.append_nil _).symm rfl rfl
  have emptied : ParsesWith arguments cache cache.returned := empty.giveBackAll cache.entries
  cases move with
  | idle => exact idle
  | served serve => exact serve.parsesWith tells
  | removed removal =>
    cases removal with
    | absent => exact idle
    | @removed left entry right =>
      have kept : ParsesWith arguments cache { cache with entries := left ++ right } :=
        .silent (List.append_nil _).symm rfl rfl
      exact kept.giveBack entry
  | cleared => exact emptied
  | readFlags => exact .silent rfl rfl rfl
  | setFlags => exact .silent rfl rfl rfl
  | closed => exact emptied.trans (.silent rfl rfl rfl)
  | disturbed => exact .silent (List.append_nil _).symm rfl rfl

private theorem run_parsesWith (distinct : cache.paths.Nodup) (steps : List (World × Operation E))
    (tells : ∀ step ∈ steps, step.1.Tells arguments) :
    ParsesWith arguments cache.unlogged (cache.run steps).unlogged := by
  induction steps generalizing cache with
  | nil => exact .silent (List.append_nil _).symm rfl rfl
  | cons step rest ih =>
    have unique : cache.unlogged.paths.Nodup := distinct
    have move := perform_move cache step.1 step.2 distinct
    exact (move.parsesWith (tells step List.mem_cons_self)).trans
      (ih (move.distinct unique) fun other member => tells other (.tail _ member))

private theorem run_verbosity (engine : E.State) (verbosity : Verbosity)
    (steps : List (World × Operation E)) :
    ((create engine verbosity : Cache E).run steps).verbosity = verbosity :=
  @run_keeps E (fun cache => cache.verbosity = verbosity) (fun _ => True)
    (fun quiet held => quiet.verbosity.trans held)
    (fun _ _ refresh held => refresh.setting.1.trans held) engine verbosity [] steps rfl
    fun _ _ => trivial

/-- Wherever a cache is when it begins to ask a database, every listed file with an absolute path is
parsed with the arguments that the database lists for it. -/
theorem listed_arguments_are_used {text : String} {loaded : CommandDatabase}
    (loads : CommandDatabase.ofText text = .ok loaded) (defaults : List String) (engine : E.State)
    (verbosity : Verbosity) (before since : List (World × Operation E))
    (tells : ∀ step ∈ since,
      step.1.Tells (loaded.withDefaultArguments defaults).compileArguments)
    {report : CommandLine.SourceReport}
    (listed : report ∈ CommandLine.SourceReport.ofDatabase (loaded.withDefaultArguments defaults))
    (absolute : report.file.isAbsolute = true) :
    let cache : Cache E := (create engine verbosity).run before
    let after : Cache E := (create engine verbosity).run (before ++ since)
    (report.file, report.arguments) ∈ loaded.entries ∧
    ∃ events, after.unlogged.journal = cache.unlogged.journal ++ events ∧
      ∀ disk : Disk, ∀ request ∈ requests events, request.path = disk.absolute report.file →
        request.arguments = engineArguments verbosity report.arguments := by
  intro cache after
  let commands := loaded.withDefaultArguments defaults
  have indexed : CommandDatabase.Indexed commands.entries :=
    show CommandDatabase.Indexed loaded.entries from CommandDatabase.indexed_ofText loads
  have entered := CommandDatabase.mem_entries_of_listed indexed listed
  obtain ⟨events, journal, parses⟩ :=
    (run_parsesWith (run_distinct engine verbosity before) since tells).parses
  rw [← run_append] at journal
  refine ⟨entered, events, journal, ?_⟩
  intro disk request member key
  have canonical : IsCanonical report.file :=
    ⟨absolute, indexed.normal (report.file, report.arguments) entered⟩
  rw [canonical.absolute_eq disk] at key
  rw [parses request member, key, CommandDatabase.compileArguments_of_mem indexed entered]
  exact congrArg (engineArguments · report.arguments) (run_verbosity engine verbosity before)

theorem first_listing_is_used :
    let text := "[[\"/p/b\", \"../a.c\", [\"cc\", \"-DA\"]], [\"/p\", \"a.c\", [\"cc\", \"-DB\"]]]"
    let loaded : CommandDatabase := ⟨none, [(⟨"/p/a.c"⟩, ["-DA"])], []⟩
    let commands := loaded.withDefaultArguments ["-DEFAULT"]
    let world := { World.steady [] [⟨"/p/b/../a.c"⟩] 7 .empty with
      compileArguments := fun _ path => .ok (commands.compileArguments path) }
    let before : List (World × Operation Scripted.engine) :=
      [(World.steady ["-DB"] [] 7 .empty, .request ⟨"/p/a.c"⟩)]
    let since : List (World × Operation Scripted.engine) := [(world, .request ⟨"/p/h.h"⟩)]
    let cache : Cache Scripted.engine := (create Scripted.Script.empty .trace).run before
    let after : Cache Scripted.engine := (create Scripted.Script.empty .trace).run (before ++ since)
    CommandDatabase.ofText text = .ok loaded ∧
    (∀ step ∈ since, step.1.Tells commands.compileArguments) ∧
    ∃ events request, after.unlogged.journal = cache.unlogged.journal ++ events ∧
      requests events = [request] ∧ request.path = ⟨"/p/a.c"⟩ ∧
      request.arguments = ["-DA", "-v"] := by
  intro text loaded commands world before since cache after
  have loads : CommandDatabase.ofText text = .ok loaded := by
    have read : (CommandDatabase.ofText text).toOption = some loaded := by decide +kernel
    cases result : CommandDatabase.ofText text with
    | error error => simp [result, Except.toOption] at read
    | ok other => exact congrArg Except.ok (by simpa [result, Except.toOption] using read)
  have tells : ∀ step ∈ since, step.1.Tells commands.compileArguments := by
    intro step member journal path told answer
    obtain rfl := List.mem_singleton.mp member
    exact (Except.ok.inj answer).symm
  have listed : ⟨⟨"/p/a.c"⟩, ["-DA"]⟩ ∈ CommandLine.SourceReport.ofDatabase commands := by
    decide +kernel
  obtain ⟨_, events, journal, used⟩ := listed_arguments_are_used (E := Scripted.engine) loads
    ["-DEFAULT"] Scripted.Script.empty .trace before since tells listed (by decide)
  have told : events = after.unlogged.journal.drop cache.unlogged.journal.length := by
    rw [journal, List.drop_left]
  have parsed : (requests events).map ParseRequest.path = [⟨"/p/a.c"⟩] := by
    rw [told]
    decide +kernel
  obtain ⟨request, single, path⟩ := List.map_eq_singleton_iff.mp parsed
  have place : (⟨"/p/a.c"⟩ : Path) = Disk.empty.absolute ⟨"/p/a.c"⟩ := by decide +kernel
  exact ⟨loads, tells, events, request, journal, single, path,
    used .empty request (by simp [single]) (path.trans place)⟩

theorem relative_listing_gets_defaults :
    let text := "[[\"src\", \"a.c\", [\"cc\", \"-DX\", \"a.c\"]]]"
    let commands : CommandDatabase := ⟨none, [(⟨"src/a.c"⟩, ["-DX"])], ["-DEFAULT"]⟩
    let world := { World.steady [] [] 7 .empty with
      compileArguments := fun _ path => .ok (commands.compileArguments path) }
    let cache : Cache Scripted.engine := create .empty .quiet
    (CommandDatabase.ofText text).toOption.map (·.withDefaultArguments ["-DEFAULT"]) =
      some commands ∧
    CommandLine.SourceReport.ofDatabase commands = [⟨⟨"src/a.c"⟩, ["-DX"]⟩] ∧
    requests (cache.run [(world, .request ⟨"src/a.c"⟩)]).journal =
      [⟨⟨"/src/a.c"⟩, ["-DEFAULT"], [], .editing⟩] := by
  decide +kernel

end Cache
end UnitCache
