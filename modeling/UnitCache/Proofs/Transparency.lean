import UnitCache.Include.Engine
import UnitCache.Proofs.Provenance

/-! A cache over the include engine answers as if it had just been created. Reuse, reparse and full
parse all lead to the closure of the file as the files are now: a unit keeps the path and the
arguments of its entry, and so a reparse reads the same as a fresh parse would. -/

namespace UnitCache

/-- Collaborators at one moment, all of them answering. -/
structure Scene where
  files : VisibleFiles
  arguments : Path → List String
  sources : List Path
  times : Path → Except FileError Timestamp

def Scene.world (scene : Scene) : World where
  compileArguments _ path := .ok (scene.arguments path)
  listedSources _ := .ok scene.sources
  buffers _ := .ok scene.files.unsaved
  modified _ path := scene.times path
  disk := scene.files.disk

/-- The closure of a unit is the one that its file has in these files. -/
def IncludeUnit.Matches (unit : IncludeUnit) (files : VisibleFiles) : Prop :=
  (IncludeEngine.closureOf files unit.path unit.arguments).1 = .ok unit.closure

namespace IncludeEngine

variable {disk : Disk} {parsed : Nat} {index : Index} {request : ParseRequest} {unit : IncludeUnit}
  {unsaved : List Buffer} {cause : EngineFailure}

theorem parse_ok (outcome : (parse disk parsed index request).outcome = .ok unit) :
    ∃ closure, unit = ⟨parsed + 1, request.path, request.arguments, closure, index.diagnostics⟩ ∧
      (closureOf ⟨disk, request.unsaved⟩ request.path request.arguments).1 = .ok closure := by
  unfold parse at outcome
  split at outcome <;> rename_i told
  · cases outcome
  · rw [told]
    exact ⟨_, (Except.ok.inj outcome).symm, rfl⟩

private theorem parse_error (outcome : (parse disk parsed index request).outcome = .error cause) :
    (closureOf ⟨disk, request.unsaved⟩ request.path request.arguments).1 = .error cause := by
  unfold parse at outcome
  split at outcome <;> rename_i told
  · rw [told]
    exact congrArg _ (Except.error.inj outcome)
  · cases outcome

private theorem reparse_ok {flags : ReparseFlags} {reply : ReparseReply engine.State engine.Parsed}
    (replied : reply = engine.reparse disk parsed unit unsaved flags)
    (succeeded : reply.failure = none) :
    ∃ closure, reply.unit = { unit with closure } ∧
      (closureOf ⟨disk, unsaved⟩ unit.path unit.arguments).1 = .ok closure := by
  subst replied
  change (reparse disk parsed unit unsaved).failure = none at succeeded
  cases told : closureOf ⟨disk, unsaved⟩ unit.path unit.arguments with
  | mk result logs =>
    cases result with
    | error error => simp [reparse, told] at succeeded
    | ok closure => exact ⟨closure, by simp [engine, reparse, told], rfl⟩

end IncludeEngine

def IncludeUnit.content (unit : IncludeUnit) : IncludeUnit := { unit with id := 0 }

def ServedUnit.content (served : ServedUnit IncludeEngine.engine) : Path × IncludeUnit :=
  (served.path, IncludeUnit.content served.unit)

/-- The unit of a source file as a scan finds it, if the file can be read. -/
def Scene.scan (scene : Scene) (verbosity : Verbosity) (path : Path) : Option IncludeUnit :=
  let arguments := Cache.engineArguments verbosity (scene.arguments path)
  (IncludeEngine.closureOf scene.files path arguments).1.toOption.map fun closure =>
    ⟨0, path, arguments, closure, verbosity.aboveQuiet⟩

namespace Cache
open Proofs Journal

variable {world : World} {path : Path} {files : VisibleFiles} {verbosity : Verbosity}
  {cache final : Cache IncludeEngine.engine}
  {answer : Except CacheError (Option (Entry IncludeEngine.engine))}

structure Describes (verbosity : Verbosity) (entry : Entry IncludeEngine.engine)
    (unit : IncludeUnit) : Prop where
  path : unit.path = entry.path
  arguments : unit.arguments = engineArguments verbosity entry.arguments
  diagnostics : unit.diagnostics = verbosity.aboveQuiet

/-- Every unit was made for its entry, in an index of the cache's own tier. -/
structure Faithful (verbosity : Verbosity) (cache : Cache IncludeEngine.engine) : Prop where
  tier : cache.verbosity = verbosity
  index : ∀ index : IncludeEngine.Index, cache.index = some index →
    index.diagnostics = verbosity.aboveQuiet
  units : ∀ entry ∈ cache.entries, Describes verbosity entry entry.unit

theorem Faithful.quiet (quiet : Quiet cache final) (faithful : Faithful verbosity cache) :
    Faithful verbosity final := by
  refine ⟨quiet.verbosity.trans faithful.tier, ?_, ?_⟩
  · intro index opened
    have reflagged := quiet.index
    rw [opened] at reflagged
    generalize before : cache.index = old at reflagged
    cases reflagged with
    | same => exact faithful.index index before
    | @flagged _ old _ => exact faithful.index old before
  · intro entry member
    exact faithful.units entry (quiet.entries entry member)

theorem Faithful.refreshed (account : Accounts cache cache.entries)
    (refresh : Refresh world path cache answer final) (faithful : Faithful verbosity cache) :
    Faithful verbosity final := by
  obtain ⟨tier, index⟩ := refresh.setting
  obtain ⟨events, _, origin⟩ := refresh.origin account
  refine ⟨tier.trans faithful.tier, fun handle opened =>
    faithful.index handle (index.symm.trans opened), ?_⟩
  intro entry member
  cases origin entry member with
  | kept old => exact faithful.units entry old
  | parsed opened _ outcome =>
    obtain ⟨closure, unit, _⟩ := IncludeEngine.parse_ok outcome
    rw [unit]
    exact ⟨rfl, by rw [faithful.tier], faithful.index _ opened⟩
  | reparsed held _ replied succeeded renewed =>
    obtain ⟨closure, unit, _⟩ := IncludeEngine.reparse_ok replied succeeded
    have described := faithful.units _ held
    rw [renewed, unit]
    exact ⟨described.path, described.arguments, described.diagnostics⟩

/-- Units that were last parsed or reparsed since a point of the journal, and with the buffers of
these files, match the files. -/
def Fresh (files : VisibleFiles) (past : List Event) (cache : Cache IncludeEngine.engine) : Prop :=
  ∃ events, cache.journal = past ++ events ∧ ∀ entry ∈ cache.entries,
    (readings entry.serial events).getLast? = some files.unsaved →
    IncludeUnit.Matches entry.unit files

private theorem Fresh.quiet {past : List Event} (quiet : Quiet cache final)
    (fresh : Fresh files past cache) :
    Fresh files past final := by
  obtain ⟨events, journal, fits⟩ := fresh
  obtain ⟨more, later, silent⟩ := quiet.journal
  refine ⟨events ++ more, by rw [later, journal, List.append_assoc], ?_⟩
  intro entry member read
  rw [readings_append, silent, List.append_nil] at read
  exact fits entry (quiet.entries entry member) read

private theorem Fresh.refreshed {past : List Event} (shown : world.disk = files.disk)
    (account : Accounts cache cache.entries) (refresh : Refresh world path cache answer final)
    (fresh : Fresh files past cache) : Fresh files past final := by
  obtain ⟨events, journal, fits⟩ := fresh
  obtain ⟨more, later, origin⟩ := refresh.origin account
  refine ⟨events ++ more, by rw [later, journal, List.append_assoc], ?_⟩
  intro entry member read
  cases origin entry member with
  | kept old untouched =>
    rw [readings_append, untouched, List.append_nil] at read
    exact fits entry old read
  | parsed _ last outcome =>
    obtain rfl := Option.some.inj ((readings_getLast? last).symm.trans read)
    obtain ⟨closure, unit, scanned⟩ := IncludeEngine.parse_ok outcome
    rw [shown] at scanned
    rw [unit]
    exact scanned
  | reparsed _ last replied succeeded renewed =>
    obtain rfl := Option.some.inj ((readings_getLast? last).symm.trans read)
    obtain ⟨closure, unit, scanned⟩ := IncludeEngine.reparse_ok replied succeeded
    rw [shown] at scanned
    rw [renewed, unit]
    exact scanned

theorem Describes.content {entry : Entry IncludeEngine.engine} {unit : IncludeUnit} {scene : Scene}
    (described : Describes verbosity entry unit) (key : entry.path = path)
    (arguments : entry.arguments = scene.arguments path) (fits : unit.Matches scene.files) :
    some unit.content = scene.scan verbosity path := by
  obtain ⟨id, main, given, closure, diagnostics⟩ := unit
  obtain ⟨rfl, rfl, rfl⟩ := described
  subst key
  have scanned : (IncludeEngine.closureOf scene.files entry.path
      (engineArguments verbosity (scene.arguments entry.path))).1 = .ok closure := arguments ▸ fits
  rw [Scene.scan, scanned, arguments]
  rfl

def contentOf (entry : Entry IncludeEngine.engine) : IncludeUnit := IncludeUnit.content entry.unit

theorem FullParse.scanned {scene : Scene} {modified : Option Timestamp}
    (full : FullParse scene.world path (scene.arguments path) modified cache answer final)
    (tier : cache.verbosity = verbosity)
    (shown : ∀ index : IncludeEngine.Index, cache.index = some index →
      index.diagnostics = verbosity.aboveQuiet)
    (opened : cache.index.isSome = true) :
    ∃ found, answer = .ok found ∧ found.map contentOf = scene.scan verbosity path := by
  cases full with
  | unavailable buffers =>
    obtain ⟨_, _, refused⟩ := buffers
    cases refused
  | indexClosed _ closed =>
    rw [closed] at opened
    cases opened
  | @failed _ _ cause buffers _ outcome =>
    obtain ⟨_, _, told⟩ := buffers
    cases told
    have unread := IncludeEngine.parse_error outcome
    change (IncludeEngine.closureOf scene.files path
      (engineArguments cache.verbosity (scene.arguments path))).1 = .error cause at unread
    rw [tier] at unread
    refine ⟨none, rfl, ?_⟩
    rw [Scene.scan, unread]
    rfl
  | @parsed _ index unit buffers held outcome =>
    obtain ⟨_, _, told⟩ := buffers
    cases told
    obtain ⟨closure, made, scanned⟩ := IncludeEngine.parse_ok outcome
    let entry : Entry IncludeEngine.engine :=
      ⟨path, scene.arguments path, modified, cache.parsed + 1, unit⟩
    have described : Describes verbosity entry unit := by
      rw [made, ← tier]
      exact ⟨rfl, rfl, tier ▸ shown index held⟩
    have fits : IncludeUnit.Matches unit scene.files := by
      rw [made]
      exact scanned
    have same : some unit.content = scene.scan verbosity path := described.content rfl rfl fits
    exact ⟨some entry, rfl, same⟩

theorem Refresh.scanned {scene : Scene}
    (refresh : Refresh scene.world path cache answer final)
    (faithful : Faithful verbosity cache) (opened : cache.index.isSome = true)
    (current : ∀ entry ∈ cache.entries, entry.path = path →
      entry.arguments = scene.arguments path → entry.modified = (scene.times path).toOption →
      IncludeUnit.Matches entry.unit scene.files) :
    ∃ found, answer = .ok found ∧ found.map contentOf = scene.scan verbosity path := by
  have told : ∀ {arguments time}, Queried scene.world path cache arguments time →
      arguments = scene.arguments path ∧ time = scene.times path := by
    rintro arguments time ⟨⟨_, _, database⟩, ⟨_, _, file⟩⟩
    exact ⟨(Except.ok.inj database).symm, file.symm⟩
  cases refresh with
  | unavailable database =>
    obtain ⟨_, _, refused⟩ := database
    cases refused
  | absent queries _ full =>
    obtain ⟨rfl, rfl⟩ := told queries
    exact full.scanned faithful.tier faithful.index opened
  | @reused _ _ left entry right queries held key sameArguments sameTime =>
    obtain ⟨rfl, rfl⟩ := told queries
    have member : entry ∈ cache.entries := by simp [held]
    have fits := current entry member key sameArguments sameTime
    exact ⟨_, rfl, (faithful.units entry member).content key sameArguments fits⟩
  | noBuffers _ _ _ _ _ buffers =>
    obtain ⟨_, _, refused⟩ := buffers
    cases refused
  | @reparsed _ _ left entry right _ _ reply queries held key sameArguments _ buffers _ replied
      succeeded =>
    obtain ⟨rfl, rfl⟩ := told queries
    obtain ⟨_, _, answered⟩ := buffers
    cases answered
    -- The engine reads with the arguments kept in the unit. They are those of the entry, which are
    -- the ones that the database gives now.
    obtain ⟨closure, unit, scanned⟩ := IncludeEngine.reparse_ok replied succeeded
    have described := faithful.units entry (by simp [held])
    refine ⟨_, rfl, ?_⟩
    change some (IncludeUnit.content reply.unit) = _
    rw [unit]
    exact Describes.content ⟨described.path, described.arguments, described.diagnostics⟩ key
      sameArguments scanned
  | reparseFailed queries _ _ _ _ _ _ _ _ full =>
    obtain ⟨rfl, rfl⟩ := told queries
    exact full.scanned faithful.tier faithful.index opened
  | rebuilt queries _ _ _ full =>
    obtain ⟨rfl, rfl⟩ := told queries
    exact full.scanned faithful.tier faithful.index opened

theorem request_scanned {scene : Scene} (distinct : cache.paths.Nodup)
    (source : (FileRole.ofPath (scene.files.disk.absolute path)).isSource = true)
    (faithful : Faithful verbosity cache.unlogged) (opened : cache.index.isSome = true)
    (current : ∀ entry ∈ cache.entries, entry.path = scene.files.disk.absolute path →
      entry.arguments = scene.arguments entry.path →
      entry.modified = (scene.times entry.path).toOption →
      IncludeUnit.Matches entry.unit scene.files) :
    ∃ found, (cache.request scene.world path).1 = .ok found ∧
      found.map ServedUnit.content = (scene.scan verbosity (scene.files.disk.absolute path)).map
        fun unit => (scene.files.disk.absolute path, unit) := by
  obtain ⟨answer, serve, told⟩ := request_serve cache scene.world path distinct
  cases serve with
  | header role => cases source.symm.trans role
  | source _ refresh =>
    obtain ⟨found, rfl, scanned⟩ := refresh.scanned faithful opened fun entry member key =>
      key ▸ current entry member key
    refine ⟨found.map unitOf, told, ?_⟩
    change _ = (scene.scan verbosity (scene.world.disk.absolute path)).map _
    rw [← scanned]
    cases found with
    | none => rfl
    | some entry =>
      have key : entry.path = scene.files.disk.absolute path := (refresh.replaced.answered rfl).2
      rw [← key]
      rfl

section Runs
variable (engine other : IncludeEngine.engine.State) (verbosity : Verbosity)
  (steps : List (World × Operation IncludeEngine.engine))

theorem run_faithful : Faithful verbosity ((create engine verbosity).run steps).unlogged := by
  refine @run_keeps IncludeEngine.engine (Faithful verbosity) (fun _ => True)
    (fun quiet => .quiet quiet) (fun _ account refresh => .refreshed account refresh) engine verbosity
    [] steps ⟨rfl, ?_, nofun⟩ (fun _ _ => trivial)
  intro index opened
  cases opened
  rfl

/-- The disk has not changed since the last parse or reparse of a unit, nor have the buffers: from
some point of the run the disk is the one of these files, the unit was parsed or reparsed after that
point, and the last time it was with their buffers. -/
def Unchanged (files : VisibleFiles) (serial : Nat) : Prop :=
  ∃ before since, steps = before ++ since ∧ (∀ step ∈ since, step.1.disk = files.disk) ∧
    readings serial ((create engine verbosity).run before).journal ≠
      readings serial ((create engine verbosity).run steps).journal ∧
    (readings serial ((create engine verbosity).run steps).journal).getLast? = some files.unsaved

variable {engine other verbosity steps}

private theorem Unchanged.fits {entry : Entry IncludeEngine.engine}
    (unchanged : Unchanged engine verbosity steps files entry.serial)
    (member : entry ∈ ((create engine verbosity).run steps).entries) :
    IncludeUnit.Matches entry.unit files := by
  obtain ⟨before, since, rfl, shown, again, last⟩ := unchanged
  obtain ⟨events, journal, fits⟩ := @run_keeps IncludeEngine.engine
    (Fresh files ((create engine verbosity).run before).unlogged.journal)
    (fun world => world.disk = files.disk) (fun quiet => .quiet quiet)
    (fun shown account refresh => .refreshed shown account refresh) engine verbosity before since
    ⟨[], (List.append_nil _).symm, fun _ _ none => nomatch none⟩ shown
  have grown := congrArg (readings entry.serial) journal
  simp only [unlogged_journal, readings_append, readings_trace] at grown
  refine fits entry member ?_
  rw [grown] at again last
  cases read : (readings entry.serial events).getLast? with
  | none =>
    rw [List.getLast?_eq_none_iff.mp read, List.append_nil] at again
    exact absurd rfl again
  | some unsaved =>
    rw [List.getLast?_append, read] at last
    exact last

/-- What a request for a source file finds does not depend on what the cache has done before, unless
the files have changed behind an entry whose arguments and time have not: it is what a new cache
finds, and what a scan of the file finds. -/
theorem source_request_is_transparent (scene : Scene) (path : Path)
    (source : (FileRole.ofPath (scene.files.disk.absolute path)).isSource = true)
    (opened : ((create engine verbosity).run steps).index.isSome = true)
    (current : ∀ entry ∈ ((create engine verbosity).run steps).entries,
      entry.path = scene.files.disk.absolute path →
      entry.arguments = scene.arguments entry.path →
      entry.modified = (scene.times entry.path).toOption →
      Unchanged engine verbosity steps scene.files entry.serial) :
    let cache := (create engine verbosity).run steps
    let cold := create other verbosity
    let key := scene.files.disk.absolute path
    ∃ warm fresh, (cache.request scene.world path).1 = .ok warm ∧
      (cold.request scene.world path).1 = .ok fresh ∧
      warm.map ServedUnit.content = fresh.map ServedUnit.content ∧
      fresh.map ServedUnit.content = (scene.scan verbosity key).map fun unit => (key, unit) := by
  intro cache cold key
  obtain ⟨warm, answered, scanned⟩ := request_scanned (run_distinct engine verbosity steps) source
    (run_faithful engine verbosity steps) opened fun entry member path arguments time =>
      (current entry member path arguments time).fits member
  have nothing : cold.paths.Nodup := List.nodup_nil
  obtain ⟨fresh, answeredCold, scannedCold⟩ :=
    request_scanned nothing source (run_faithful other verbosity []) rfl nofun
  exact ⟨warm, fresh, answered, answeredCold, scanned.trans scannedCold.symm, scannedCold⟩

end Runs

theorem second_request_is_transparent :
    let scene : Scene := ⟨⟨.empty, [⟨⟨"/a.c"⟩, "#include \"b.h\"\n"⟩]⟩, fun _ => ["-O2"], [],
      fun _ => .ok 7⟩
    let steps : List (World × Operation IncludeEngine.engine) :=
      [(scene.world, .request ⟨"a.c"⟩)]
    let cache : Cache IncludeEngine.engine := (create (0 : Nat) .quiet).run steps
    (FileRole.ofPath (scene.files.disk.absolute ⟨"a.c"⟩)).isSource = true ∧
    cache.index.isSome = true ∧ cache.entries.map Entry.serial = [1] ∧
    Unchanged (0 : Nat) .quiet steps scene.files 1 ∧
    ∃ served, (cache.request scene.world ⟨"a.c"⟩).1 = .ok (some served) ∧
      some served.content = (scene.scan .quiet ⟨"/a.c"⟩).map fun unit => (⟨"/a.c"⟩, unit) := by
  intro scene steps cache
  have source : (FileRole.ofPath (scene.files.disk.absolute ⟨"a.c"⟩)).isSource = true := by
    decide +kernel
  have opened : cache.index.isSome = true := by decide +kernel
  have serials : cache.entries.map Entry.serial = [1] := by decide +kernel
  have shown : ∀ step ∈ steps, step.1.disk = scene.files.disk := by
    intro step member
    obtain rfl := List.mem_singleton.mp member
    rfl
  have unchanged : Unchanged (0 : Nat) .quiet steps scene.files 1 :=
    ⟨[], steps, rfl, shown, by decide +kernel, by decide +kernel⟩
  have current : ∀ entry ∈ cache.entries, Unchanged (0 : Nat) .quiet steps scene.files
      entry.serial := by
    intro entry member
    have number : entry.serial ∈ cache.entries.map Entry.serial := List.mem_map_of_mem member
    rw [serials] at number
    exact List.mem_singleton.mp number ▸ unchanged
  obtain ⟨warm, fresh, answered, _, same, scanned⟩ :=
    @source_request_is_transparent (0 : Nat) (0 : Nat) .quiet steps scene ⟨"a.c"⟩ source opened
      fun entry member _ _ _ => current entry member
  have key : scene.files.disk.absolute ⟨"a.c"⟩ = ⟨"/a.c"⟩ := by decide +kernel
  have present : (scene.scan .quiet ⟨"/a.c"⟩).isSome = true := by decide +kernel
  rw [← same, key] at scanned
  refine ⟨source, opened, serials, unchanged, ?_⟩
  cases warm with
  | none =>
    rw [← Option.isSome_map (f := fun unit => ((⟨"/a.c"⟩ : Path), unit)), ← scanned] at present
    cases present
  | some served => exact ⟨served, answered, scanned⟩

end Cache
end UnitCache
