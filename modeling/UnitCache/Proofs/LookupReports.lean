import UnitCache.CommandLine.Run
import UnitCache.Proofs.HeaderResolution
import UnitCache.Proofs.Refusals
import UnitCache.Proofs.Transparency

/-! What a lookup tells of the paths it was asked for. All requests share a cache, and each may
bring in units, use them again and drop them. But the files stay as they are while it runs, so every
unit that is cached tells of its file what a scan of it would, however it came there. -/

namespace UnitCache
open Proofs

/-- Collaborators that answer refuse no question. -/
theorem Scene.unrefused {scene : Scene} {past : List Event} {event : Event}
    (truthful : event.Truthful scene.world past) : event.refusal? = none := by
  cases event with
  | askArguments path answer =>
    obtain ⟨_, _, rfl⟩ := truthful
    rfl
  | askSources answer =>
    obtain ⟨_, _, rfl⟩ := truthful
    rfl
  | askBuffers answer =>
    obtain ⟨_, _, rfl⟩ := truthful
    rfl
  | _ => rfl

private theorem Witnessed.last {world : World} {past before : List Event} {last : Event}
    (witnessed : Witnessed world past (before ++ [last])) :
    last.Truthful world (past ++ before) := by
  induction before generalizing past with
  | nil => simpa using witnessed.1
  | cons event rest ih => simpa using ih witnessed.2

private theorem Reported.answered_of_scene {α : Type} {scene : Scene} {past events : List Event}
    {answer : Except CacheError α} (reported : Reported scene.world past answer events) :
    ∃ value, answer = .ok value := by
  cases reported with
  | @answered value => exact ⟨value, rfl⟩
  | refused witnessed _ refusal =>
    rw [Scene.unrefused witnessed.last] at refusal
    cases refusal

/-- A unit that tells what a scan finds matches the files that are scanned. -/
theorem IncludeUnit.matches_of_scan {unit : IncludeUnit} {scene : Scene} {verbosity : Verbosity}
    {path : Path} (scanned : some unit.content = scene.scan verbosity path) :
    unit.Matches scene.files := by
  obtain ⟨closure, read, made⟩ := Option.map_eq_some_iff.mp scanned.symm
  have main : path = unit.path := congrArg IncludeUnit.path made
  have given : Cache.engineArguments verbosity (scene.arguments path) = unit.arguments :=
    congrArg IncludeUnit.arguments made
  have own : closure = unit.closure := congrArg IncludeUnit.closure made
  rw [main] at read given
  rw [given] at read
  rw [Matches, ← own]
  cases found : (IncludeEngine.closureOf scene.files unit.path unit.arguments).1 with
  | error => simp [found, Except.toOption] at read
  | ok other => simpa [found, Except.toOption] using read

namespace Cache

section Index
variable {E : Engine} {world : World} {path header listed : Path} {sources : List Path}
  {cache final : Cache E} {answer : Except CacheError (Option (Entry E))}

private theorem Pass.index (pass : Pass world header listed cache final) :
    final.index = cache.index := by
  cases pass with
  | skipped => rfl
  | failed _ refresh => exact refresh.setting.2
  | kept _ refresh => exact refresh.setting.2
  | evicted _ refresh => exact refresh.setting.2

private theorem Passed.index (passed : Passed world header sources cache final) :
    final.index = cache.index := by
  induction passed with
  | nil => rfl
  | cons pass _ ih => exact ih.trans pass.index

private theorem Search.index (search : Search world header sources cache answer final) :
    final.index = cache.index := by
  cases search with
  | exhausted passed => exact passed.index
  | unavailable _ passed _ refresh => exact refresh.setting.2.trans passed.index
  | found _ passed _ refresh => exact refresh.setting.2.trans passed.index

private theorem Serve.index (serve : Serve world path cache answer final) :
    final.index = cache.index := by
  cases serve with
  | source _ refresh => exact refresh.setting.2
  | header _ resolve =>
    cases resolve with
    | cached => rfl
    | unavailable => rfl
    | searched _ _ search => exact search.index

private theorem request_index (cache : Cache E) (world : World) (path : Path)
    (distinct : cache.paths.Nodup) : (cache.request world path).2.index = cache.index := by
  obtain ⟨_, serve, _⟩ := request_serve cache world path distinct
  exact serve.index

end Index

variable {scene : Scene} {verbosity : Verbosity} {path : Path}
  {cache final : Cache IncludeEngine.engine}
  {answer : Except CacheError (Option (Entry IncludeEngine.engine))}

/-- As long as units can be parsed at all, all that are cached match the files. -/
structure Current (verbosity : Verbosity) (files : VisibleFiles)
    (cache : Cache IncludeEngine.engine) : Prop where
  faithful : Faithful verbosity cache
  fits : cache.index.isSome = true → ∀ entry ∈ cache.entries, IncludeUnit.Matches entry.unit files

private theorem Current.quiet {files : VisibleFiles} (quiet : Quiet cache final)
    (current : Current verbosity files cache) : Current verbosity files final := by
  refine ⟨current.faithful.quiet quiet, fun opened entry member => ?_⟩
  refine current.fits ?_ entry (quiet.entries entry member)
  have reflagged := quiet.index
  cases before : cache.index with
  | some => rfl
  | none =>
    rw [before] at reflagged
    generalize final.index = after at reflagged opened
    cases reflagged <;> exact opened

private theorem Current.refreshed (account : Accounts cache cache.entries)
    (refresh : Refresh scene.world path cache answer final)
    (current : Current verbosity scene.files cache) : Current verbosity scene.files final := by
  refine ⟨current.faithful.refreshed account refresh, fun opened entry member => ?_⟩
  rw [refresh.setting.2] at opened
  rcases refresh.replaced.origin member with old | rfl
  · exact current.fits opened entry old
  · obtain ⟨found, answered, scanned⟩ := refresh.scanned current.faithful opened
      fun entry member _ _ _ => current.fits opened entry member
    cases answered
    exact IncludeUnit.matches_of_scan scanned

private theorem run_current (engine : IncludeEngine.engine.State) (verbosity : Verbosity)
    (steps : List (World × Operation IncludeEngine.engine))
    (still : ∀ step ∈ steps, step.1 = scene.world) :
    Current verbosity scene.files ((create engine verbosity).run steps).unlogged :=
  @run_keeps IncludeEngine.engine (Current verbosity scene.files) (fun world => world = scene.world)
    (fun quiet current => current.quiet quiet)
    (fun same account refresh current => current.refreshed account (same ▸ refresh))
    engine verbosity [] steps ⟨run_faithful engine verbosity [], nofun⟩ still

end Cache

namespace CommandLine
open Cache

/-- What a report tells of a source file: the file's own unit, as a scan finds it. -/
def PathReport.ofScan (scene : Scene) (verbosity : Verbosity) (path : Path) : PathReport :=
  match scene.scan verbosity (scene.files.disk.absolute path) with
  | none => ⟨path, none, []⟩
  | some unit => ⟨path, some (scene.files.disk.absolute path), unit.closure.includes⟩

private theorem PathReport.unit_ofScan {scene : Scene} {verbosity : Verbosity} {path unit : Path}
    (shown : (ofScan scene verbosity path).unit = some unit) :
    unit = scene.files.disk.absolute path := by
  unfold ofScan at shown
  split at shown
  · cases shown
  · exact (Option.some.inj shown).symm

private theorem PathReport.path_ofUnit (path : Path)
    (found : Option (ServedUnit IncludeEngine.engine)) :
    (ofUnit path found).path = path := by
  cases found <;> rfl

private theorem PathReport.ofUnit_of_scanned {scene : Scene} {verbosity : Verbosity} {path : Path}
    {found : Option (ServedUnit IncludeEngine.engine)}
    (scanned : found.map ServedUnit.content =
      (scene.scan verbosity (scene.files.disk.absolute path)).map
        fun unit => (scene.files.disk.absolute path, unit)) :
    ofUnit path found = .ofScan scene verbosity path := by
  cases found with
  | none =>
    have unread : scene.scan verbosity (scene.files.disk.absolute path) = none := by
      simpa using scanned.symm
    simp only [ofScan, unread]
    rfl
  | some served =>
    obtain ⟨unit, read, pair⟩ := Option.map_eq_some_iff.mp scanned.symm
    obtain ⟨key, rfl⟩ := Prod.mk.inj pair
    simp only [ofScan, read]
    rw [key]
    rfl

private theorem PathReport.answerAll_cons {cache after : Cache IncludeEngine.engine} {world : World}
    {path : Path} {found : Option (ServedUnit IncludeEngine.engine)}
    (answered : cache.request world path = (.ok found, after)) (rest : List Path) :
    (answerAll cache world (path :: rest)).1 =
      (answerAll after world rest).1.map (ofUnit path found :: ·) := by
  simp only [answerAll, answered]

/-- What a report tells of the path it is on, while the files stay as they are. -/
structure PathReport.Tells (scene : Scene) (verbosity : Verbosity) (report : PathReport) :
    Prop where
  source : (FileRole.ofPath (scene.files.disk.absolute report.path)).isSource = true →
    report = .ofScan scene verbosity report.path
  header : (FileRole.ofPath (scene.files.disk.absolute report.path)).isSource = false →
    ∀ unit, report.unit = some unit → (FileRole.ofPath unit).isSource = true ∧
      scene.files.disk.absolute report.path ∈ report.includes

section Requests
variable {scene : Scene} {verbosity : Verbosity} (engine : IncludeEngine.engine.State)
  {steps : List (World × Operation IncludeEngine.engine)}
  (placed : scene.files.disk.workingDirectory.isSome = true)
  (still : ∀ step ∈ steps, step.1 = scene.world)
  (opened : ((create engine verbosity).run steps).index.isSome = true)
include still

private theorem still_after (path : Path) :
    ∀ step ∈ steps ++ [(scene.world, Operation.request path)], step.1 = scene.world := by
  intro step member
  rcases List.mem_append.mp member with earlier | last
  · exact still step earlier
  · rw [List.mem_singleton.mp last]

include placed in
private theorem run_sources : ∀ entry ∈ ((create engine verbosity).run steps).entries,
    (FileRole.ofPath entry.path).isSource = true := by
  have everywhere : ∀ step ∈ steps, step.1.disk.workingDirectory.isSome = true := by
    intro step member
    rw [still step member]
    exact placed
  intro entry member
  exact ((run_represents engine verbosity steps everywhere).genuine entry member).source

include placed opened

private theorem request_tells (path : Path) :
    ∃ found, (((create engine verbosity).run steps).request scene.world path).1 = .ok found ∧
      (PathReport.ofUnit path found).Tells scene verbosity := by
  let cache := (create engine verbosity).run steps
  let key := scene.files.disk.absolute path
  have distinct := run_distinct engine verbosity steps
  have current := run_current engine verbosity steps still
  obtain ⟨answer, serve, told⟩ := request_serve cache scene.world path distinct
  obtain ⟨events, _, reported⟩ := serve.reported
  obtain ⟨found, rfl⟩ := reported.answered_of_scene
  refine ⟨found.map unitOf, told, ?_, ?_⟩ <;> rw [PathReport.path_ofUnit]
  · intro source
    obtain ⟨other, answered, scanned⟩ := request_scanned distinct source current.faithful opened
      fun entry member _ _ _ => current.fits opened entry member
    cases answered.symm.trans told
    exact PathReport.ofUnit_of_scanned scanned
  · intro header unit shown
    cases found with
    | none => cases shown
    | some entry =>
      obtain rfl : entry.path = unit := Option.some.inj shown
      have sources := @run_sources scene verbosity engine _ placed (still_after still path)
      rw [run_append] at sources
      refine ⟨sources entry serve.answered, ?_⟩
      cases serve with
      | source role => cases header.symm.trans role
      | header _ resolve =>
        have included : key.normalize ∈ (show IncludeUnit from entry.unit).closure.includes :=
          of_decide_eq_true resolve.includes
        rwa [CanonicalPath.normalize_absolute] at included

/-- Every request is answered, and each report tells what it would tell alone. -/
theorem answerAll_tells (paths : List Path) :
    ∃ reports, (PathReport.answerAll ((create engine verbosity).run steps) scene.world paths).1 =
        .ok reports ∧
      reports.map PathReport.path = paths ∧ ∀ report ∈ reports, report.Tells scene verbosity := by
  induction paths generalizing steps with
  | nil => exact ⟨[], rfl, rfl, nofun⟩
  | cons path rest ih =>
    obtain ⟨found, answered, tells⟩ := request_tells engine placed still opened path
    have later : ((create engine verbosity).run steps).request scene.world path =
        (.ok found, (create engine verbosity).run (steps ++ [(scene.world, .request path)])) := by
      rw [run_append]
      exact Prod.ext answered rfl
    have index := request_index _ scene.world path (run_distinct engine verbosity steps)
    rw [later] at index
    obtain ⟨reports, below, paths, all⟩ :=
      ih (still_after still path) (index ▸ opened)
    refine ⟨.ofUnit path found :: reports, ?_, ?_, ?_⟩
    · rw [PathReport.answerAll_cons later, below]
      rfl
    · rw [List.map_cons, PathReport.path_ofUnit, paths]
    · exact List.forall_mem_cons.mpr ⟨tells, all⟩

end Requests

/-- A database and the files on disk, without unsaved buffers. -/
def sceneOf (commands : CommandDatabase) (disk : Disk) : Scene :=
  ⟨⟨disk, []⟩, commands.compileArguments, commands.listedSources, disk.modified⟩

private theorem Project.placed_of_load {flags : GlobalFlags} {disk : Disk}
    {loaded : Project × CommandDatabase} {logs : List LogEntry}
    (loads : Project.load flags disk = (.ok loaded, logs)) :
    disk.workingDirectory.isSome = true := by
  cases place : disk.workingDirectory with
  | some => rfl
  | none =>
    simp only [load, find, place] at loads
    cases loads

private theorem Project.answerAll_tells {disk : Disk} (placed : disk.workingDirectory.isSome = true)
    (project : Project) (flags : GlobalFlags) (commands : CommandDatabase) (paths : List Path) :
    ∃ reports, (PathReport.answerAll (project.cache flags) (worldOf commands disk) paths).1 =
        .ok reports ∧
      reports.map PathReport.path = paths ∧
      ∀ report ∈ reports, report.Tells (sceneOf commands disk) (project.verbosity flags) := by
  let scene := sceneOf commands disk
  let settings : List (World × Operation IncludeEngine.engine) :=
    [(scene.world, .setFlags project.config.index.flags)]
  have still : ∀ step ∈ settings, step.1 = scene.world := by simp [settings]
  exact CommandLine.answerAll_tells (0 : Nat) placed still rfl paths

private theorem PathReport.missing_eq_zero_iff {reports : List PathReport} :
    missing reports = 0 ↔ ∀ report ∈ reports, report.unit.isSome = true := by
  simp [missing, List.filter_eq_nil_iff, Option.isSome_iff_ne_none]

private theorem runLookup_of_answered {flags : GlobalFlags} {disk : Disk} {project : Project}
    {commands : CommandDatabase} {logs : List LogEntry} {paths : List Path}
    {reports : List PathReport}
    (loads : Project.load flags disk = (.ok (project, commands), logs))
    (answered : (PathReport.answerAll (project.cache flags) (worldOf commands disk) paths).1 =
      .ok reports) (format : Format) :
    (runLookup flags disk paths format).output = PathReport.render reports format ∧
    (runLookup flags disk paths format).exitCode =
      if PathReport.missing reports = 0 then 0 else 1 := by
  cases told : PathReport.answerAll (project.cache flags) (worldOf commands disk) paths with
  | mk result cache =>
    obtain rfl : result = .ok reports := by rw [← answered, told]
    simp [runLookup, loads, told]

/-- A lookup reports on each path it was asked for, in order. A source file is served by its own
unit, whatever else was asked for, a header by the unit of a source file that includes it, and only
a path without a unit makes the run fail. -/
theorem lookup_reports_on_requests {flags : GlobalFlags} {disk : Disk} {project : Project}
    {commands : CommandDatabase} {logs : List LogEntry}
    (loads : Project.load flags disk = (.ok (project, commands), logs)) (paths : List Path)
    (format : Format) :
    let answers := fun requested =>
      (PathReport.answerAll (project.cache flags) (worldOf commands disk) requested).1
    ∃ reports, answers paths = .ok reports ∧ reports.map PathReport.path = paths ∧
      (∀ report ∈ reports, (FileRole.ofPath (disk.absolute report.path)).isSource = true →
        (∀ unit, report.unit = some unit → unit = disk.absolute report.path) ∧
        answers [report.path] = .ok [report]) ∧
      (∀ report ∈ reports, (FileRole.ofPath (disk.absolute report.path)).isSource = false →
        ∀ unit, report.unit = some unit →
          (FileRole.ofPath unit).isSource = true ∧ disk.absolute report.path ∈ report.includes) ∧
      (runLookup flags disk paths format).output = PathReport.render reports format ∧
      ((runLookup flags disk paths format).exitCode = 0 ↔
        ∀ report ∈ reports, report.unit.isSome = true) := by
  intro answers
  have placed := Project.placed_of_load loads
  obtain ⟨reports, answered, requested, tells⟩ :=
    project.answerAll_tells placed flags commands paths
  refine ⟨reports, answered, requested, ?_, ?_, ?_⟩
  · intro report member source
    have scanned := (tells report member).source source
    refine ⟨fun unit shown => ?_, ?_⟩
    · rw [scanned] at shown
      exact PathReport.unit_ofScan shown
    · obtain ⟨alone, answer, same, others⟩ :=
        project.answerAll_tells placed flags commands [report.path]
      obtain ⟨other, rfl, path⟩ := List.map_eq_singleton_iff.mp same
      have again := (others other (List.mem_singleton.mpr rfl)).source (path ▸ source)
      rw [path, ← scanned] at again
      exact again ▸ answer
  · exact fun report member header => (tells report member).header header
  · obtain ⟨output, exitCode⟩ := runLookup_of_answered loads answered format
    refine ⟨output, ?_⟩
    rw [exitCode, ← PathReport.missing_eq_zero_iff]
    by_cases none : PathReport.missing reports = 0 <;> simp [none]

theorem lookup_of_source_and_header :
    let disk : Disk := ⟨[(["p"], .directory), (["p", "h.h"], .file (some "") 0),
      (["p", "a.c"], .file (some "#include \"h.h\"\n") 0),
      (["p", "compile_commands.json"], .file (some "[[\"/p\", \"a.c\", [\"cc\"]]]") 0)],
      some ["p"], [], 0⟩
    let flags : GlobalFlags := ⟨false, 0, none, none⟩
    let project : Project := ⟨.default, ⟨"/p"⟩⟩
    let commands : CommandDatabase := ⟨some ⟨"/p/compile_commands.json"⟩, [(⟨"/p/a.c"⟩, [])], []⟩
    ∃ logs, Project.load flags disk = (.ok (project, commands), logs) ∧
    ∃ source header, (PathReport.answerAll (project.cache flags) (worldOf commands disk)
        [⟨"./a.c"⟩, ⟨"h.h"⟩]).1 = .ok [source, header] ∧
      source.unit = some ⟨"/p/a.c"⟩ ∧
      (∀ unit, header.unit = some unit →
        (FileRole.ofPath unit).isSource = true ∧ ⟨"/p/h.h"⟩ ∈ header.includes) ∧
      ((runLookup flags disk [⟨"./a.c"⟩, ⟨"h.h"⟩] .text).exitCode = 0 ↔
        header.unit.isSome = true) := by
  intro disk flags project commands
  have read : (Project.load flags disk).1.toOption = some (project, commands) := by decide +kernel
  have loads : Project.load flags disk =
      (.ok (project, commands), (Project.load flags disk).2) := by
    cases result : Project.load flags disk with
    | mk outcome logs =>
      rw [result] at read
      cases outcome with
      | error => cases read
      | ok loaded => rw [Option.some.inj read]
  obtain ⟨reports, answered, requested, sources, headers, _, exitCode⟩ :=
    lookup_reports_on_requests loads [⟨"./a.c"⟩, ⟨"h.h"⟩] .text
  obtain ⟨source, header, rfl, sourcePath, headerPath⟩ : ∃ source header,
      reports = [source, header] ∧ source.path = ⟨"./a.c"⟩ ∧ header.path = ⟨"h.h"⟩ := by
    obtain ⟨source, rest, rfl, first, others⟩ := List.map_eq_cons_iff.mp requested
    obtain ⟨header, rfl, second⟩ := List.map_eq_singleton_iff.mp others
    exact ⟨source, header, rfl, first, second⟩
  have places : disk.absolute ⟨"./a.c"⟩ = ⟨"/p/a.c"⟩ ∧ disk.absolute ⟨"h.h"⟩ = ⟨"/p/h.h"⟩ := by
    decide +kernel
  obtain ⟨own, alone⟩ := sources source (by simp) (by rw [sourcePath, places.1]; decide +kernel)
  have found : (PathReport.answerAll (project.cache flags) (worldOf commands disk)
      [⟨"./a.c"⟩]).1.toOption.map (List.map PathReport.unit) = some [some ⟨"/p/a.c"⟩] := by
    decide +kernel
  have unit : source.unit = some ⟨"/p/a.c"⟩ := by
    simp only at alone
    rw [← sourcePath, alone] at found
    simpa [Except.toOption] using found
  refine ⟨_, loads, source, header, answered, unit, ?_, ?_⟩
  · have included := headers header (by simp) (by rw [headerPath, places.2]; decide +kernel)
    rwa [headerPath, places.2] at included
  · rw [exitCode]
    simp [unit]

end CommandLine
end UnitCache
