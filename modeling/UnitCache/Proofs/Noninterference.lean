import UnitCache.Collaborators
import UnitCache.Include.Engine
import UnitCache.Proofs.IncludeArguments
import UnitCache.Proofs.Runs

/-! How verbose a cache is shows in what it logs and not in what it finds. Two caches over the
include engine that differ in verbosity are run side by side and stay alike after every step, as
long as the argument that asks the engine to be verbose is no directory that a flag awaits. -/

namespace UnitCache

/-- What a unit found, and where it would look again. -/
structure IncludeUnit.Findings where
  id : Nat
  path : Path
  closure : Closure
  search : SearchDirectories

def IncludeUnit.findings (unit : IncludeUnit) : Findings :=
  ⟨unit.id, unit.path, unit.closure,
    .ofArguments (Closure.directoryOf unit.path) unit.arguments⟩

structure EntryFindings where
  path : Path
  arguments : List String
  modified : Option Timestamp
  serial : Nat
  unit : IncludeUnit.Findings

def Entry.findings (entry : Entry IncludeEngine.engine) : EntryFindings :=
  ⟨entry.path, entry.arguments, entry.modified, entry.serial, IncludeUnit.findings entry.unit⟩

def ServedUnit.findings (served : ServedUnit IncludeEngine.engine) :
    Path × Nat × IncludeUnit.Findings :=
  (served.path, served.serial, IncludeUnit.findings served.unit)

/-- What remains of an event when verbosity is left out of it: nothing of a log line, and no
arguments of a parse. -/
def Event.muted? : Event → Option Event
  | .log _ => none
  | .openIndex _ => some (.openIndex false)
  | .parse request outcome => some (.parse { request with arguments := [] } outcome)
  | event => some event

namespace Proofs.Journal

def muted (journal : List Event) : List Event := journal.filterMap Event.muted?

@[simp] theorem muted_append (first last : List Event) :
    muted (first ++ last) = muted first ++ muted last := List.filterMap_append

@[simp] theorem muted_trace (journal : List Event) : muted (trace journal) = muted journal :=
  filterMap_trace _ (fun _ => rfl) journal

end Proofs.Journal

open Proofs Journal

/-- Collaborators whose answers do not depend on how verbose a cache is. -/
structure World.Deaf (world : World) : Prop where
  compileArguments {first last : List Event} (same : muted first = muted last) :
    world.compileArguments first = world.compileArguments last
  listedSources {first last : List Event} (same : muted first = muted last) :
    world.listedSources first = world.listedSources last
  buffers {first last : List Event} (same : muted first = muted last) :
    world.buffers first = world.buffers last
  modified {first last : List Event} (same : muted first = muted last) :
    world.modified first = world.modified last

private theorem Collaborators.deaf_world (collaborators : Collaborators) (held : Held) :
    (collaborators.world held).Deaf :=
  ⟨fun _ => rfl, fun _ => rfl, fun _ => rfl, fun _ => rfl⟩

namespace IncludeEngine

variable {disk : Disk} {parsed : Nat}

private theorem closureOf_congr {files : VisibleFiles} {path : Path} {first last : List String}
    (same : SearchDirectories.ofArguments (Closure.directoryOf path) first =
      SearchDirectories.ofArguments (Closure.directoryOf path) last) :
    (closureOf files path first).1 = (closureOf files path last).1 := by
  unfold closureOf
  split
  · rfl
  · rw [same]

theorem parse_eq (index : Index) (request : ParseRequest) :
    (parse disk parsed index request).outcome =
      (closureOf ⟨disk, request.unsaved⟩ request.path request.arguments).1.map
        (⟨parsed + 1, request.path, request.arguments, ·, index.diagnostics⟩) ∧
    (parse disk parsed index request).state =
      if (closureOf ⟨disk, request.unsaved⟩ request.path request.arguments).1.isOk then parsed + 1
      else parsed := by
  unfold parse
  split <;> rename_i told <;> rw [told] <;> exact ⟨rfl, rfl⟩

/-- The same file parsed under names for the same directories. -/
theorem parse_alike {one two : ParseRequest} (first last : Index) (path : one.path = two.path)
    (unsaved : one.unsaved = two.unsaved)
    (search : SearchDirectories.ofArguments (Closure.directoryOf two.path) one.arguments =
      SearchDirectories.ofArguments (Closure.directoryOf two.path) two.arguments) :
    (parse disk parsed first one).outcome.map IncludeUnit.findings =
      (parse disk parsed last two).outcome.map IncludeUnit.findings ∧
    (parse disk parsed first one).state = (parse disk parsed last two).state := by
  obtain ⟨outcome, state⟩ := @parse_eq disk parsed first one
  obtain ⟨outcome', state'⟩ := @parse_eq disk parsed last two
  rw [outcome, state, outcome', state', path, unsaved, closureOf_congr search]
  refine ⟨?_, rfl⟩
  cases (closureOf ⟨disk, two.unsaved⟩ two.path two.arguments).1 with
  | error => rfl
  | ok closure => simp [Except.map, IncludeUnit.findings, search]

private theorem reparse_alike {one two : IncludeUnit} (same : one.findings = two.findings)
    (unsaved : List Buffer) :
    (reparse disk parsed one unsaved).failure = (reparse disk parsed two unsaved).failure ∧
    (reparse disk parsed one unsaved).unit.findings =
      (reparse disk parsed two unsaved).unit.findings ∧
    (reparse disk parsed one unsaved).state = (reparse disk parsed two unsaved).state := by
  simp only [IncludeUnit.findings, IncludeUnit.Findings.mk.injEq] at same
  obtain ⟨id, path, closure, search⟩ := same
  rw [path] at search
  have found : (closureOf ⟨disk, unsaved⟩ one.path one.arguments).1 =
      (closureOf ⟨disk, unsaved⟩ two.path two.arguments).1 := by
    rw [path, closureOf_congr search]
  unfold reparse
  split <;> rename_i first <;> split <;> rename_i last <;> rw [first, last] at found
  · obtain rfl := Except.error.inj found
    exact ⟨rfl, by simp [IncludeUnit.findings, id, path, closure, search], rfl⟩
  · cases found
  · cases found
  · obtain rfl := Except.ok.inj found
    exact ⟨rfl, by simp [IncludeUnit.findings, id, path, search], rfl⟩

end IncludeEngine

namespace Cache

def Answer.findings (answer : Answer IncludeEngine.engine) :
    Except CacheError (Option (Path × Nat × IncludeUnit.Findings)) :=
  answer.map (Option.map ServedUnit.findings)

/-- The same directories are named to the engine at both tiers. -/
def Agree (loud soft : Verbosity) (arguments : List String) : Prop :=
  ∀ base, SearchDirectories.ofArguments base (engineArguments loud arguments) =
    SearchDirectories.ofArguments base (engineArguments soft arguments)

/-- Collaborators that answer two tiers alike, with arguments on which the tiers agree. -/
structure Impartial (loud soft : Verbosity) (world : World) : Prop where
  deaf : world.Deaf
  agree {journal : List Event} {path : Path} {arguments : List String}
    (answer : world.compileArguments journal path = .ok arguments) : Agree loud soft arguments

/-- Two caches that differ in nothing but their verbosity and what it shows. -/
structure Alike (loud soft : Verbosity) (first last : Cache IncludeEngine.engine) : Prop where
  loud : first.verbosity = loud
  soft : last.verbosity = soft
  engine : first.engine = last.engine
  flags : first.index.map IncludeEngine.Index.flags = last.index.map IncludeEngine.Index.flags
  entries : first.entries.map Entry.findings = last.entries.map Entry.findings
  parsed : first.parsed = last.parsed
  journal : muted first.journal = muted last.journal

/-- Two outcomes that say the same and leave caches that are alike. -/
structure Abreast {α β : Type} (loud soft : Verbosity) (read : α → β)
    (one two : α × Cache IncludeEngine.engine) : Prop where
  answer : read one.1 = read two.1
  caches : Alike loud soft one.2 two.2

section Lockstep

variable {loud soft : Verbosity} {first last : Cache IncludeEngine.engine} {world : World}

private theorem Abreast.pair {α : Type} {one two : α × Cache IncludeEngine.engine}
    (abreast : Abreast loud soft id one two) :
    ∃ answer first last, one = (answer, first) ∧ two = (answer, last) ∧
      Alike loud soft first last :=
  ⟨one.1, one.2, two.2, rfl, Prod.ext abreast.answer.symm rfl, abreast.caches⟩

private theorem both_of_map_eq {α β : Type} {read : α → β} {one two : Option α}
    (same : one.map read = two.map read) :
    (one = none ∧ two = none) ∨
    ∃ left right, one = some left ∧ two = some right ∧ read left = read right := by
  cases one <;> cases two
  case none.none => exact .inl ⟨rfl, rfl⟩
  case none.some => cases same
  case some.none => cases same
  case some.some left right => exact .inr ⟨left, right, rfl, rfl, Option.some.inj same⟩

private theorem Alike.index (alike : Alike loud soft first last) :
    (first.index = none ∧ last.index = none) ∨ ∃ left right : IncludeEngine.Index,
      first.index = some left ∧ last.index = some right ∧ left.flags = right.flags :=
  both_of_map_eq alike.flags

private theorem Alike.unlogged (alike : Alike loud soft first last) :
    Alike loud soft first.unlogged last.unlogged :=
  ⟨alike.loud, alike.soft, alike.engine, alike.flags, alike.entries, alike.parsed,
    by simpa using alike.journal⟩

private theorem Alike.of_unlogged (alike : Alike loud soft first.unlogged last.unlogged) :
    Alike loud soft first last :=
  ⟨alike.loud, alike.soft, alike.engine, alike.flags, alike.entries, alike.parsed,
    by simpa using alike.journal⟩

private theorem Alike.log (alike : Alike loud soft first last) (level : LogLevel) (message : String)
    (fields : List (String × String)) :
    Alike loud soft (first.log level message fields) (last.log level message fields) :=
  .of_unlogged (by simpa using alike.unlogged)

private theorem Alike.told {one two : Event} (alike : Alike loud soft first last)
    (same : one.muted? = two.muted?) : Alike loud soft (first.note one) (last.note two) :=
  ⟨alike.loud, alike.soft, alike.engine, alike.flags, alike.entries, alike.parsed, by
    simp only [note_journal, muted_append, alike.journal]
    simp [muted, List.filterMap_cons, same]⟩

private theorem Alike.note (alike : Alike loud soft first last) (event : Event) :
    Alike loud soft (first.note event) (last.note event) := alike.told rfl

/-- Both caches have an entry for a path, and then with the same findings, or neither has. -/
theorem Alike.entry? (alike : Alike loud soft first last) (path : Path) :
    (first.entry? path = none ∧ last.entry? path = none) ∨ ∃ one two,
      first.entry? path = some one ∧ last.entry? path = some two ∧ one.findings = two.findings := by
  have found : ∀ cache : Cache IncludeEngine.engine, (cache.entry? path).map Entry.findings =
      (cache.entries.map Entry.findings).find? fun entry => entry.path = path := by
    intro cache
    rw [List.find?_map]
    rfl
  exact both_of_map_eq (by rw [found, found, alike.entries])

private theorem Alike.isSome_entry? (alike : Alike loud soft first last) (path : Path) :
    (first.entry? path).isSome = (last.entry? path).isSome := by
  rcases alike.entry? path with ⟨none, none'⟩ | ⟨one, two, held, held', _⟩
  · rw [none, none']
  · rw [held, held']
    rfl

private theorem dispose_eq (cache : Cache IncludeEngine.engine)
    (entry : Entry IncludeEngine.engine) :
    cache.dispose entry = (none, cache.note (.dispose entry.serial none)) := rfl

private theorem Alike.disposed {one two : Entry IncludeEngine.engine}
    (alike : Alike loud soft first last) (same : one.findings = two.findings) :
    Alike loud soft (first.dispose one).2 (last.dispose two).2 := by
  have serial : one.serial = two.serial := congrArg EntryFindings.serial same
  rw [dispose_eq, dispose_eq, serial]
  exact alike.note _

private theorem Alike.removeAt (alike : Alike loud soft first last) (path : Path) :
    Abreast loud soft id (first.removeAt path) (last.removeAt path) := by
  have others : ∀ cache : Cache IncludeEngine.engine,
      (cache.entries.filter fun other => !decide (other.path = path)).map Entry.findings =
        (cache.entries.map Entry.findings).filter fun other => !decide (other.path = path) := by
    intro cache
    rw [List.filter_map]
    rfl
  rcases alike.entry? path with ⟨none, none'⟩ | ⟨one, two, held, held', same⟩
  · simp only [Cache.removeAt, none, none']
    exact ⟨rfl, alike⟩
  · simp only [Cache.removeAt, held, held']
    refine ⟨rfl, Alike.disposed ?_ same⟩
    exact ⟨alike.loud, alike.soft, alike.engine, alike.flags, by
      rw [others, others, alike.entries], alike.parsed, alike.journal⟩

private theorem Alike.askModified (alike : Alike loud soft first last) (deaf : world.Deaf)
    (path : Path) :
    Abreast loud soft id (first.askModified world path) (last.askModified world path) := by
  have same : world.modified first.journal = world.modified last.journal :=
    deaf.modified alike.journal
  refine ⟨by simp only [askModified_fst, same], .of_unlogged ?_⟩
  rw [unlogged_askModified, unlogged_askModified, same]
  exact alike.unlogged.note _

private theorem Alike.askBuffers (alike : Alike loud soft first last) (deaf : world.Deaf) :
    Abreast loud soft id (first.askBuffers world) (last.askBuffers world) := by
  have same : world.buffers first.journal = world.buffers last.journal := deaf.buffers alike.journal
  unfold Cache.askBuffers
  rw [← same]
  exact ⟨rfl, alike.note _⟩

private theorem Alike.parseInto {disk : Disk} {one two : ParseRequest}
    (alike : Alike loud soft first last) (left right : IncludeEngine.Index)
    (path : one.path = two.path) (unsaved : one.unsaved = two.unsaved) (flags : one.flags = two.flags)
    (search : SearchDirectories.ofArguments (Closure.directoryOf two.path) one.arguments =
      SearchDirectories.ofArguments (Closure.directoryOf two.path) two.arguments)
    (arguments : List String) (modified : Option Timestamp) :
    Abreast loud soft id (first.parseInto disk left one arguments modified)
      (last.parseInto disk right two arguments modified) := by
  have muted : ∀ outcome, (Event.parse one outcome).muted? = (Event.parse two outcome).muted? := by
    simp [Event.muted?, path, unsaved, flags]
  have engine : first.engine = last.engine := alike.engine
  obtain ⟨outcome, state⟩ :=
    @IncludeEngine.parse_alike disk first.engine one two left right path unsaved search
  cases done : (IncludeEngine.parse disk first.engine left one).outcome <;>
    cases done' : (IncludeEngine.parse disk first.engine right two).outcome <;>
    rw [done, done'] at outcome
  case error.error cause cause' =>
    obtain rfl := Except.error.inj outcome
    obtain ⟨no, final⟩ := parseInto_error first arguments modified done
    obtain ⟨no', final'⟩ := parseInto_error last arguments modified (engine ▸ done')
    refine ⟨no.trans no'.symm, .of_unlogged ?_⟩
    rw [final, final']
    refine Alike.told ⟨alike.loud, alike.soft, ?_, alike.flags, alike.entries, alike.parsed, ?_⟩
      (muted _)
    · exact state.trans (engine ▸ rfl)
    · simpa using alike.journal
  case error.ok => cases outcome
  case ok.error => cases outcome
  case ok.ok unit unit' =>
    obtain ⟨yes, final⟩ := parseInto_ok first arguments modified done
    obtain ⟨yes', final'⟩ := parseInto_ok last arguments modified (engine ▸ done')
    refine ⟨yes.trans yes'.symm, .of_unlogged ?_⟩
    rw [final, final', alike.parsed]
    refine Alike.told ⟨alike.loud, alike.soft, ?_, alike.flags, ?_, rfl, ?_⟩ (muted _)
    · exact state.trans (engine ▸ rfl)
    · simp [alike.entries, Entry.findings, path, Except.ok.inj outcome]
    · simpa using alike.journal

private theorem Alike.parseAfresh (alike : Alike loud soft first last) (deaf : world.Deaf)
    (path : Path) {arguments : List String} (agree : Agree loud soft arguments)
    (modified : Option Timestamp) :
    Abreast loud soft id (first.parseAfresh world path arguments modified)
      (last.parseAfresh world path arguments modified) := by
  obtain ⟨answer, first', last', one, two, asked⟩ := (alike.askBuffers deaf).pair
  simp only [Cache.parseAfresh, one, two]
  cases answer with
  | error reason => exact ⟨rfl, asked⟩
  | ok unsaved =>
    rcases asked.index with ⟨none, none'⟩ | ⟨left, right, opened, opened', _⟩
    · simp only [none, none']
      exact ⟨rfl, asked.log ..⟩
    · simp only [opened, opened']
      have parsed := @Alike.parseInto _ _ _ _ world.disk
        ⟨path, engineArguments first'.verbosity arguments, unsaved, .editing⟩
        ⟨path, engineArguments last'.verbosity arguments, unsaved, .editing⟩
        (asked.note .readEditingFlags) left right rfl rfl rfl
        (by rw [asked.loud, asked.soft]; exact agree _) arguments modified
      exact ⟨congrArg Except.ok parsed.answer, parsed.caches⟩

private theorem Alike.rebuild (alike : Alike loud soft first last) (deaf : world.Deaf) (path : Path)
    {arguments : List String} (agree : Agree loud soft arguments) (modified : Option Timestamp) :
    Abreast loud soft id (first.rebuild world path arguments modified)
      (last.rebuild world path arguments modified) :=
  (alike.removeAt (world.disk.absolute path)).caches.parseAfresh deaf path agree modified

private theorem Alike.replace {one two : Entry IncludeEngine.engine}
    (alike : Alike loud soft first last) (same : one.findings = two.findings) :
    Alike loud soft (first.replace one) (last.replace two) := by
  have placed : ∀ (cache : Cache IncludeEngine.engine) (entry : Entry IncludeEngine.engine),
      (cache.replace entry).entries.map Entry.findings =
        (cache.entries.map Entry.findings).map fun other =>
          if other.path = entry.findings.path then entry.findings else other := by
    intro cache entry
    simp only [Cache.replace, List.map_map]
    congr 1
    funext other
    simp only [Function.comp_apply]
    split <;> rename_i key <;> simp [Entry.findings, key]
  exact ⟨alike.loud, alike.soft, alike.engine, alike.flags, by
    rw [placed, placed, alike.entries, same], alike.parsed, alike.journal⟩

private theorem Alike.reparseUnit {one two : Entry IncludeEngine.engine}
    (alike : Alike loud soft first last) (same : one.findings = two.findings) (disk : Disk)
    (unsaved : List Buffer) :
    Abreast loud soft (fun reply => (reply.failure, IncludeUnit.findings reply.unit))
      (first.reparseUnit disk one unsaved) (last.reparseUnit disk two unsaved) := by
  obtain ⟨failure, unit, state⟩ := @IncludeEngine.reparse_alike disk first.engine one.unit two.unit
    (congrArg EntryFindings.unit same) unsaved
  obtain ⟨reply, final⟩ := unlogged_reparseUnit first disk one unsaved rfl rfl
  obtain ⟨reply', final'⟩ := unlogged_reparseUnit last disk two unsaved rfl rfl
  have engine : first.engine = last.engine := alike.engine
  have serial : one.serial = two.serial := congrArg EntryFindings.serial same
  refine ⟨?_, .of_unlogged ?_⟩
  · rw [reply, reply', ← engine]
    exact Prod.ext failure unit
  · have told : Event.reparse two.serial unsaved ⟨0⟩
          (IncludeEngine.reparse disk first.engine one.unit unsaved).failure =
        .reparse two.serial unsaved ⟨0⟩
          (IncludeEngine.reparse disk first.engine two.unit unsaved).failure := by rw [failure]
    rw [final, final', serial, ← engine]
    refine Alike.told (Alike.note ?_ _) (congrArg Event.muted? told)
    exact ⟨alike.loud, alike.soft, state, alike.flags, alike.entries, alike.parsed,
      by simpa using alike.journal⟩

private theorem Alike.reparse {one two : Entry IncludeEngine.engine}
    (alike : Alike loud soft first last) (deaf : world.Deaf) (same : one.findings = two.findings)
    (agree : Agree loud soft two.arguments) (modified : Option Timestamp) :
    Abreast loud soft id (first.reparse world one modified) (last.reparse world two modified) := by
  obtain ⟨answer, first', last', told, told', asked⟩ := (alike.askBuffers deaf).pair
  simp only [Cache.reparse, told, told']
  cases answer with
  | error reason => exact ⟨rfl, asked⟩
  | ok unsaved =>
    obtain ⟨replies, parsed⟩ := asked.reparseUnit same world.disk unsaved
    obtain ⟨failure, unit⟩ := Prod.mk.inj replies
    have path : one.path = two.path := congrArg EntryFindings.path same
    have arguments : one.arguments = two.arguments := congrArg EntryFindings.arguments same
    have serial : one.serial = two.serial := congrArg EntryFindings.serial same
    dsimp only at parsed ⊢
    generalize first'.reparseUnit world.disk one unsaved = reply at *
    generalize last'.reparseUnit world.disk two unsaved = reply' at *
    rw [failure, path, arguments]
    cases reply'.1.failure with
    | none =>
      refine ⟨rfl, Alike.log (parsed.replace ?_) ..⟩
      simp [Entry.findings, serial, unit]
    | some cause =>
      refine Alike.rebuild (Alike.log (parsed.replace ?_) ..) deaf two.path agree modified
      simp [Entry.findings, serial, unit, show one.modified = two.modified from
        congrArg EntryFindings.modified same]

private theorem Alike.update (alike : Alike loud soft first last)
    (impartial : Impartial loud soft world) (path : Path) :
    Abreast loud soft id (first.update world path) (last.update world path) := by
  have same : world.compileArguments first.journal = world.compileArguments last.journal :=
    impartial.deaf.compileArguments alike.journal
  have asked := alike.note (.askArguments path (world.compileArguments first.journal path))
  cases answer : world.compileArguments first.journal path with
  | error reason =>
    rw [answer] at asked
    simp only [Cache.update, ← same, answer]
    exact ⟨rfl, asked⟩
  | ok arguments =>
    rw [answer] at asked
    obtain ⟨modified, first', last', told, told', known⟩ :=
      (asked.askModified impartial.deaf path).pair
    simp only [Cache.update, ← same, answer, told, told']
    rcases known.entry? path with ⟨none, none'⟩ | ⟨one, two, held, held', same⟩
    · simp only [none, none']
      exact known.rebuild impartial.deaf path (impartial.agree answer) modified
    · simp only [held, held']
      have sameArguments : one.arguments = two.arguments := congrArg EntryFindings.arguments same
      have sameTime : one.modified = two.modified := congrArg EntryFindings.modified same
      rw [sameArguments, sameTime]
      split
      · rename_i current
        split
        · exact ⟨rfl, known.log ..⟩
        · exact known.reparse impartial.deaf same (current ▸ impartial.agree answer) modified
      · exact (known.log ..).rebuild impartial.deaf path (impartial.agree answer) modified

/-- An update that is reported is an update but for its log lines. -/
theorem updateReported_update {E : Engine} (cache : Cache E) (world : World) (path : Path) :
    ∃ begun : Cache E, begun.unlogged = cache.unlogged ∧
      (cache.updateReported world path).1 = (begun.update world path).1 ∧
      (cache.updateReported world path).2.unlogged = (begun.update world path).2.unlogged := by
  unfold Cache.updateReported
  split
  · exact ⟨_, unlogged_log .., rfl, unlogged_log ..⟩
  · exact ⟨cache, rfl, rfl, rfl⟩

private theorem Alike.updateReported (alike : Alike loud soft first last)
    (impartial : Impartial loud soft world) (path : Path) :
    Abreast loud soft id (first.updateReported world path) (last.updateReported world path) := by
  obtain ⟨begun, before, answer, after⟩ := updateReported_update first world path
  obtain ⟨begun', before', answer', after'⟩ := updateReported_update last world path
  have ready : Alike loud soft begun begun' :=
    .of_unlogged (by rw [before, before']; exact alike.unlogged)
  have updated := ready.update impartial path
  refine ⟨?_, .of_unlogged ?_⟩
  · rw [answer, answer']
    exact updated.answer
  · rw [after, after']
    exact updated.caches.unlogged

private theorem includes_congr {one two : Entry IncludeEngine.engine}
    (same : one.findings = two.findings) (first last : Nat) (header : Path) :
    IncludeEngine.engine.includes first one.unit header =
      IncludeEngine.engine.includes last two.unit header := by
  have closure : IncludeUnit.closure one.unit = IncludeUnit.closure two.unit :=
    congrArg (fun entry => entry.unit.closure) same
  exact congrArg (fun closure : Closure => decide (header.normalize ∈ closure.includes)) closure

private theorem Alike.includer? (alike : Alike loud soft first last) (header : Path)
    {entries others : List (Entry IncludeEngine.engine)}
    (same : entries.map Entry.findings = others.map Entry.findings) :
    Abreast loud soft (Option.map Entry.findings) (first.includer? header entries)
      (last.includer? header others) := by
  induction entries generalizing others first last with
  | nil =>
    obtain rfl := List.map_eq_nil_iff.mp same.symm
    exact ⟨rfl, alike⟩
  | cons one rest ih =>
    obtain ⟨two, others, rfl, head, tail⟩ := List.map_eq_cons_iff.mp same.symm
    have serial : one.serial = two.serial := congrArg EntryFindings.serial head.symm
    have asked := alike.note (.checkIncludes two.serial header)
    simp only [Cache.includer?, serial, includes_congr head.symm first.engine last.engine header]
    split
    · exact ⟨congrArg some head.symm, asked⟩
    · exact ih asked tail.symm

private theorem findings_unitOf {one two : Entry IncludeEngine.engine}
    (same : one.findings = two.findings) : (unitOf one).findings = (unitOf two).findings :=
  congrArg (fun entry : EntryFindings => (entry.path, entry.serial, entry.unit)) same

private theorem Alike.served {one two : Entry IncludeEngine.engine}
    (alike : Alike loud soft first last) (same : one.findings = two.findings) :
    Abreast loud soft Answer.findings
      (.ok (some (unitOf one)), first) (.ok (some (unitOf two)), last) :=
  ⟨congrArg (fun served => Except.ok (some served)) (findings_unitOf same), alike⟩

private theorem Alike.searchSources (alike : Alike loud soft first last)
    (impartial : Impartial loud soft world) (header : Path) (sources : List Path) :
    Abreast loud soft Answer.findings
      (first.searchSources world header sources) (last.searchSources world header sources) := by
  induction sources generalizing first last with
  | nil => exact ⟨rfl, alike.log ..⟩
  | cons listed rest ih =>
    have cached := alike.isSome_entry? (world.disk.absolute listed)
    obtain ⟨answer, first', last', told, told', updated⟩ :=
      (alike.updateReported impartial (world.disk.absolute listed)).pair
    simp only [Cache.searchSources, told, told', cached]
    split
    · exact ih (alike.log ..)
    cases answer with
    | error error => exact ⟨rfl, updated⟩
    | ok present =>
      cases present with
      | false => exact ih updated
      | true =>
        rcases updated.entry? (world.disk.absolute listed) with
          ⟨none, none'⟩ | ⟨one, two, held, held', same⟩
        · simp only [none, none']
          exact ih updated
        · simp only [held, held']
          have serial : one.serial = two.serial := congrArg EntryFindings.serial same
          have asked := updated.note (.checkIncludes two.serial header)
          rw [serial, includes_congr same first'.engine last'.engine header]
          split
          · exact (asked.log ..).served same
          split
          · exact ih asked
          · exact ih ((asked.log ..).removeAt _).caches

private theorem Alike.requestHeader (alike : Alike loud soft first last)
    (impartial : Impartial loud soft world) (header : Path) :
    Abreast loud soft Answer.findings
      (first.requestHeader world header) (last.requestHeader world header) := by
  obtain ⟨answer, checked⟩ := alike.includer? header alike.entries
  unfold Cache.requestHeader
  generalize first.includer? header first.entries = asked at *
  generalize last.includer? header last.entries = asked' at *
  obtain ⟨found, first'⟩ := asked
  obtain ⟨found', last'⟩ := asked'
  rcases both_of_map_eq answer with ⟨rfl, rfl⟩ | ⟨one, two, rfl, rfl, same⟩
  · have same : world.listedSources first'.journal = world.listedSources last'.journal :=
      impartial.deaf.listedSources checked.journal
    have listed := checked.note (.askSources (world.listedSources first'.journal))
    cases told : world.listedSources first'.journal with
    | error reason =>
      rw [told] at listed
      simp only [← same, told]
      exact ⟨rfl, listed⟩
    | ok sources =>
      rw [told] at listed
      simp only [← same, told]
      exact listed.searchSources impartial header sources
  · exact checked.served same

private theorem Alike.requestSource (alike : Alike loud soft first last)
    (impartial : Impartial loud soft world) (path : Path) :
    Abreast loud soft Answer.findings
      (first.requestSource world path) (last.requestSource world path) := by
  obtain ⟨answer, first', last', told, told', updated⟩ :=
    (alike.updateReported impartial path).pair
  simp only [Cache.requestSource, told, told']
  rcases answer with error | _ | _
  · exact ⟨rfl, updated⟩
  · exact ⟨rfl, updated⟩
  · rcases updated.entry? path with ⟨none, none'⟩ | ⟨one, two, held, held', same⟩
    · simp only [none, none']
      exact ⟨rfl, updated⟩
    · simp only [held, held']
      exact updated.served same

private theorem Alike.request (alike : Alike loud soft first last)
    (impartial : Impartial loud soft world) (path : Path) :
    Abreast loud soft Answer.findings
      (first.request world path) (last.request world path) := by
  unfold Cache.request
  dsimp only
  split
  · exact alike.requestSource impartial _
  · exact alike.requestHeader impartial _

private theorem Alike.disposeAll (alike : Alike loud soft first last)
    {entries others : List (Entry IncludeEngine.engine)}
    (same : entries.map Entry.findings = others.map Entry.findings) :
    Abreast loud soft id (first.disposeAll entries) (last.disposeAll others) := by
  induction entries generalizing others first last with
  | nil =>
    obtain rfl := List.map_eq_nil_iff.mp same.symm
    exact ⟨rfl, alike⟩
  | cons one rest ih =>
    obtain ⟨two, others, rfl, head, tail⟩ := List.map_eq_cons_iff.mp same.symm
    exact ih (alike.disposed head.symm) tail.symm

private theorem Alike.clear (alike : Alike loud soft first last) :
    Abreast loud soft id first.clear last.clear := by
  have emptied : Alike loud soft { first with entries := [] } { last with entries := [] } :=
    ⟨alike.loud, alike.soft, alike.engine, alike.flags, rfl, alike.parsed, alike.journal⟩
  exact emptied.disposeAll alike.entries

private theorem Alike.closeIndex (alike : Alike loud soft first last) :
    Abreast loud soft id first.closeIndex last.closeIndex := by
  rcases alike.index with ⟨none, none'⟩ | ⟨left, right, opened, opened', flags⟩
  · simp only [Cache.closeIndex, none, none']
    exact ⟨rfl, alike⟩
  · simp only [Cache.closeIndex, opened, opened']
    have told : Event.closeIndex left.flags none = .closeIndex right.flags none := by rw [flags]
    refine ⟨rfl, Alike.told ?_ (congrArg Event.muted? told)⟩
    exact ⟨alike.loud, alike.soft, alike.engine, rfl, alike.entries, alike.parsed, alike.journal⟩

private theorem Alike.close (alike : Alike loud soft first last) :
    Abreast loud soft id first.close last.close := by
  obtain ⟨failures, first', last', told, told', cleared⟩ := alike.clear.pair
  obtain ⟨failure, first', last', closed, closed', final⟩ := cleared.closeIndex.pair
  simp only [Cache.close, told, told', closed, closed']
  exact ⟨rfl, final⟩

private theorem Alike.indexFlags (alike : Alike loud soft first last) :
    Abreast loud soft id first.indexFlags last.indexFlags := by
  rcases alike.index with ⟨none, none'⟩ | ⟨left, right, opened, opened', flags⟩
  · simp only [Cache.indexFlags, none, none']
    exact ⟨rfl, alike⟩
  · simp only [Cache.indexFlags, opened, opened']
    exact ⟨flags, alike.note _⟩

private theorem Alike.setIndexFlags (alike : Alike loud soft first last) (flags : IndexFlags) :
    Alike loud soft (first.setIndexFlags flags) (last.setIndexFlags flags) := by
  rcases alike.index with ⟨none, none'⟩ | ⟨left, right, opened, opened', _⟩
  · simp only [Cache.setIndexFlags, none, none']
    exact alike
  · simp only [Cache.setIndexFlags, opened, opened']
    refine Alike.note ?_ _
    exact ⟨alike.loud, alike.soft, alike.engine, rfl, alike.entries, alike.parsed, alike.journal⟩

private theorem Alike.contains (alike : Alike loud soft first last) (disk : Disk) (path : Path) :
    first.contains disk path = last.contains disk path :=
  alike.isSome_entry? (disk.absolute path)

private theorem outcome_congr {one two : Answer IncludeEngine.engine}
    (same : one.findings = two.findings) :
    (one.map fun _ => ()) = two.map fun _ => () := by
  cases one <;> cases two
  case error.error => exact congrArg Except.error (Except.error.inj same)
  case error.ok => cases same
  case ok.error => cases same
  case ok.ok => rfl

/-- One operation: the same reply, and caches that are alike after it. -/
theorem Alike.perform (alike : Alike loud soft first last)
    (impartial : Impartial loud soft world) (operation : Operation IncludeEngine.engine) :
    (first.reply world operation).map ServedUnit.findings =
        (last.reply world operation).map ServedUnit.findings ∧
      Alike loud soft (first.perform world operation) (last.perform world operation) := by
  cases operation with
  | request path =>
    obtain ⟨answer, final⟩ := alike.request impartial path
    exact ⟨congrArg Reply.served answer, final⟩
  | ensure path =>
    obtain ⟨answer, final⟩ := alike.request impartial path
    simp only [reply, Cache.perform, Cache.ensure, alike.contains]
    split
    · exact ⟨rfl, alike⟩
    · exact ⟨congrArg Reply.done (outcome_congr answer), final⟩
  | renew path =>
    obtain ⟨answer, final⟩ := alike.request impartial path
    simp only [reply, Cache.perform, Cache.renew, alike.contains]
    split
    · exact ⟨congrArg Reply.done (outcome_congr answer), final⟩
    · exact ⟨rfl, alike⟩
  | remove path =>
    obtain ⟨answer, final⟩ := alike.removeAt (world.disk.absolute path)
    exact ⟨congrArg Reply.removed answer, final⟩
  | clear =>
    obtain ⟨answer, final⟩ := alike.clear
    exact ⟨congrArg Reply.failed answer, final⟩
  | readFlags =>
    obtain ⟨answer, final⟩ := alike.indexFlags
    exact ⟨congrArg Reply.flags answer, final⟩
  | setFlags flags => exact ⟨rfl, alike.setIndexFlags flags⟩
  | close =>
    obtain ⟨answer, final⟩ := alike.close
    exact ⟨congrArg Reply.failed answer, final⟩
  | disturb engine =>
    exact ⟨rfl, alike.loud, alike.soft, rfl, alike.flags, alike.entries, alike.parsed,
      alike.journal⟩

private theorem Alike.run (alike : Alike loud soft first last)
    (steps : List (World × Operation IncludeEngine.engine))
    (impartial : ∀ step ∈ steps, Impartial loud soft step.1) :
    (first.replies steps).map (Reply.map ServedUnit.findings) =
        (last.replies steps).map (Reply.map ServedUnit.findings) ∧
      Alike loud soft (first.run steps) (last.run steps) := by
  induction steps generalizing first last with
  | nil => exact ⟨rfl, alike⟩
  | cons step rest ih =>
    obtain ⟨reply, next⟩ := alike.perform (impartial step List.mem_cons_self) step.2
    obtain ⟨replies, final⟩ := ih next fun other member => impartial other (.tail _ member)
    exact ⟨congrArg₂ List.cons reply replies, final⟩

end Lockstep

private theorem alike_create (parsed : Nat) (loud soft : Verbosity) :
    Alike loud soft (create parsed loud) (create parsed soft) :=
  ⟨rfl, rfl, rfl, rfl, rfl, rfl, rfl⟩

/-- The argument that asks the engine to be verbose names a directory exactly if a flag awaits
one. -/
theorem agree_iff {loud soft : Verbosity} {arguments : List String} :
    Agree loud soft arguments ↔
      loud.isHighest = soft.isHighest ∨ SearchDirectories.awaitsDirectory arguments = false := by
  have unread : IncludeFlag.split? verboseArgument = none := by decide
  have added := @SearchDirectories.ofArguments_concat_iff arguments _ unread
  unfold Agree engineArguments
  cases loud.isHighest <;> cases soft.isHighest
  case false.false => simp
  case true.true => simp
  case false.true =>
    simp only [Bool.false_eq_true, if_false, if_true, false_or]
    exact ⟨fun same => (added ⟨"/"⟩).mp (same _).symm, fun complete base =>
      ((added base).mpr complete).symm⟩
  case true.false =>
    simp only [Bool.true_eq_false, Bool.false_eq_true, if_false, if_true, false_or]
    exact ⟨fun same => (added ⟨"/"⟩).mp (same _), fun complete base => (added base).mpr complete⟩

/-- However verbose two caches are, they tell their callers the same and hold the same, unless one
of them asks the engine to be verbose behind a flag that awaits a directory. -/
theorem verbosity_changes_no_finding (parsed : Nat) (loud soft : Verbosity)
    (steps : List (World × Operation IncludeEngine.engine)) (deaf : ∀ step ∈ steps, step.1.Deaf)
    (complete : ∀ step ∈ steps, ∀ {journal path arguments},
      step.1.compileArguments journal path = .ok arguments →
      loud.isHighest = soft.isHighest ∨ SearchDirectories.awaitsDirectory arguments = false) :
    ((create parsed loud).replies steps).map (Reply.map ServedUnit.findings) =
        ((create parsed soft).replies steps).map (Reply.map ServedUnit.findings) ∧
      Alike loud soft ((create parsed loud).run steps) ((create parsed soft).run steps) :=
  (alike_create parsed loud soft).run steps fun step member =>
    ⟨deaf step member, fun answer => agree_iff.mpr (complete step member answer)⟩

theorem trace_finds_what_quiet_finds :
    let collaborators : Collaborators := ⟨.table ⟨[⟨"/a.c"⟩], ["-I", "inc"], [], []⟩, .disk, false,
      ⟨[⟨⟨"/a.c"⟩, "#include <x.h>\n"⟩, ⟨⟨"/inc/x.h"⟩, ""⟩]⟩, true, false, .empty⟩
    let world := collaborators.world ⟨false, false, false⟩
    let steps : List (World × Operation IncludeEngine.engine) := [(world, .request ⟨"/inc/x.h"⟩)]
    let first : Cache IncludeEngine.engine := create (0 : Nat) .trace
    let last : Cache IncludeEngine.engine := create (0 : Nat) .quiet
    (∀ step ∈ steps, step.1.Deaf) ∧
    (∀ step ∈ steps, ∀ {journal path arguments},
      step.1.compileArguments journal path = .ok arguments →
      SearchDirectories.awaitsDirectory arguments = false) ∧
    (first.replies steps).map (Reply.map ServedUnit.findings) =
      (last.replies steps).map (Reply.map ServedUnit.findings) ∧
    (first.run steps).entries.map (fun entry => IncludeUnit.closure entry.unit) =
      [⟨[⟨"/inc/x.h"⟩], []⟩] := by
  intro collaborators world steps first last
  have deaf : ∀ step ∈ steps, step.1.Deaf := by
    intro step member
    obtain rfl := List.mem_singleton.mp member
    exact collaborators.deaf_world _
  have complete : ∀ step ∈ steps, ∀ {journal path arguments},
      step.1.compileArguments journal path = .ok arguments →
      SearchDirectories.awaitsDirectory arguments = false := by
    intro step member journal path arguments answer
    obtain rfl := List.mem_singleton.mp member
    obtain rfl : ["-I", "inc"] = arguments := Except.ok.inj answer
    decide
  have alike := verbosity_changes_no_finding (0 : Nat) .trace .quiet steps deaf
    fun step member _ _ _ answer => .inr (complete step member answer)
  exact ⟨deaf, complete, alike.1, by decide +kernel⟩

theorem awaited_directory_shows_verbosity :
    let world : World := ⟨fun _ _ => .ok ["-I"], fun _ => .ok [], fun _ => .ok [
      ⟨⟨"/a.c"⟩, "#include <x.h>\n"⟩, ⟨⟨"/-v/x.h"⟩, ""⟩], fun _ _ => .ok 0, .empty⟩
    let closures := fun verbosity : Verbosity =>
      ((create (0 : Nat) verbosity).run [(world, .request ⟨"/a.c"⟩)]).entries.map
        fun entry : Entry IncludeEngine.engine => IncludeUnit.closure entry.unit
    closures .quiet = [⟨[], ["x.h"]⟩] ∧ closures .trace = [⟨[⟨"/-v/x.h"⟩], []⟩] := by
  decide +kernel

end Cache
end UnitCache
