import UnitCache.Cache.Request
import UnitCache.Proofs.Journal

/-! Everything that bringing an entry up to date can do, told once. Log lines are left
out: what a cache does next never depends on them, and all that is claimed of a cache
is claimed of its calls, its questions and its entries. -/

namespace UnitCache.Cache
open Proofs

variable {E : Engine}

/-- The cache with a journal that tells no log lines. -/
def unlogged (cache : Cache E) : Cache E := { cache with journal := Journal.trace cache.journal }

@[simp] theorem unlogged_engine (cache : Cache E) : cache.unlogged.engine = cache.engine := rfl
@[simp] theorem unlogged_index (cache : Cache E) : cache.unlogged.index = cache.index := rfl
@[simp] theorem unlogged_entries (cache : Cache E) : cache.unlogged.entries = cache.entries := rfl
@[simp] theorem unlogged_parsed (cache : Cache E) : cache.unlogged.parsed = cache.parsed := rfl
@[simp] theorem unlogged_verbosity (cache : Cache E) :
    cache.unlogged.verbosity = cache.verbosity := rfl
@[simp] theorem unlogged_journal (cache : Cache E) :
    cache.unlogged.journal = Journal.trace cache.journal := rfl

@[simp] theorem note_engine (cache : Cache E) (event : Event) :
    (cache.note event).engine = cache.engine := rfl
@[simp] theorem note_index (cache : Cache E) (event : Event) :
    (cache.note event).index = cache.index := rfl
@[simp] theorem note_entries (cache : Cache E) (event : Event) :
    (cache.note event).entries = cache.entries := rfl
@[simp] theorem note_journal (cache : Cache E) (event : Event) :
    (cache.note event).journal = cache.journal ++ [event] := rfl

theorem unlogged_note (cache : Cache E) {event : Event} (told : event.isLog = false) :
    (cache.note event).unlogged = cache.unlogged.note event := by
  simp [unlogged, note, Journal.trace, told]

@[simp] theorem unlogged_log (cache : Cache E) (level : LogLevel) (message : String)
    (fields : List (String × String)) : (cache.log level message fields).unlogged = cache.unlogged := by
  simp [unlogged, log, note, Journal.trace, Event.isLog]

@[simp] theorem unlogged_report (cache : Cache E) (level : LogLevel) (error : CacheError) :
    (cache.report level error).unlogged = cache.unlogged := unlogged_log ..

@[simp] theorem unlogged_noteAll (cache : Cache E) (logs : List LogEntry) :
    (cache.noteAll (logs.map .log)).unlogged = cache.unlogged := by
  simp [unlogged, noteAll, Journal.trace, Event.isLog]

/-- An answer that a collaborator has at this point of a run, whatever has been logged. -/
def Answered {α : Type} (cache : Cache E) (ask : List Event → α) (answer : α) : Prop :=
  ∃ history, Journal.trace history = cache.journal ∧ ask history = answer

/-- Gives the unit of an entry back to the engine. -/
def giveBack (cache : Cache E) (entry : Entry E) : Cache E :=
  { cache with
    engine := (E.dispose cache.engine entry.unit).2
    journal := cache.journal ++ [.dispose entry.serial (E.dispose cache.engine entry.unit).1] }

def afterQueries (cache : Cache E) (path : Path) (arguments : List String)
    (time : Except FileError Timestamp) : Cache E :=
  { cache with
    journal := cache.journal ++ [.askArguments path (.ok arguments), .askModified path time] }

@[simp] theorem afterQueries_engine (cache : Cache E) (path : Path) (arguments : List String)
    (time : Except FileError Timestamp) :
    (cache.afterQueries path arguments time).engine = cache.engine := rfl
@[simp] theorem afterQueries_index (cache : Cache E) (path : Path) (arguments : List String)
    (time : Except FileError Timestamp) :
    (cache.afterQueries path arguments time).index = cache.index := rfl
@[simp] theorem afterQueries_entries (cache : Cache E) (path : Path) (arguments : List String)
    (time : Except FileError Timestamp) :
    (cache.afterQueries path arguments time).entries = cache.entries := rfl
@[simp] theorem afterQueries_parsed (cache : Cache E) (path : Path) (arguments : List String)
    (time : Except FileError Timestamp) :
    (cache.afterQueries path arguments time).parsed = cache.parsed := rfl
@[simp] theorem afterQueries_journal (cache : Cache E) (path : Path) (arguments : List String)
    (time : Except FileError Timestamp) :
    (cache.afterQueries path arguments time).journal =
      cache.journal ++ [.askArguments path (.ok arguments), .askModified path time] := rfl

/-- What the database and the file system answer, one after the other. -/
structure Queried (world : World) (path : Path) (cache : Cache E) (arguments : List String)
    (time : Except FileError Timestamp) : Prop where
  database : cache.Answered (world.compileArguments · path) (.ok arguments)
  file : (cache.note (.askArguments path (.ok arguments))).Answered (world.modified · path) time

def requestFor (cache : Cache E) (path : Path) (arguments : List String) (unsaved : List Buffer) :
    ParseRequest :=
  ⟨path, engineArguments cache.verbosity arguments, unsaved, E.editingFlags cache.engine⟩

@[simp] theorem requestFor_unlogged (cache : Cache E) :
    cache.unlogged.requestFor = cache.requestFor := rfl
@[simp] theorem requestFor_path (cache : Cache E) (path : Path) (arguments : List String)
    (unsaved : List Buffer) : (cache.requestFor path arguments unsaved).path = path := rfl

/-- The full parse of a path that has no entry: its result is the new entry, if one comes of it. -/
inductive FullParse (world : World) (path : Path) (arguments : List String)
    (modified : Option Timestamp) (cache : Cache E) :
    Except CacheError (Option (Entry E)) → Cache E → Prop where
  | unavailable {reason} (buffers : cache.Answered world.buffers (.error reason)) :
      FullParse world path arguments modified cache (.error (.unavailable .buffers reason))
        { cache with journal := cache.journal ++ [.askBuffers (.error reason)] }
  | indexClosed {unsaved} (buffers : cache.Answered world.buffers (.ok unsaved))
      (closed : cache.index = none) :
      FullParse world path arguments modified cache (.ok none)
        { cache with journal := cache.journal ++ [.askBuffers (.ok unsaved)] }
  | failed {unsaved index cause} (buffers : cache.Answered world.buffers (.ok unsaved))
      (opened : cache.index = some index)
      (outcome : (E.parse world.disk cache.engine index
        (cache.requestFor path arguments unsaved)).outcome = .error cause) :
      FullParse world path arguments modified cache (.ok none)
        { cache with
          engine := (E.parse world.disk cache.engine index
            (cache.requestFor path arguments unsaved)).state
          journal := cache.journal ++ [.askBuffers (.ok unsaved), .readEditingFlags,
            .parse (cache.requestFor path arguments unsaved) (.error cause)] }
  | parsed {unsaved index unit} (buffers : cache.Answered world.buffers (.ok unsaved))
      (opened : cache.index = some index)
      (outcome : (E.parse world.disk cache.engine index
        (cache.requestFor path arguments unsaved)).outcome = .ok unit) :
      FullParse world path arguments modified cache
        (.ok (some ⟨path, arguments, modified, cache.parsed + 1, unit⟩))
        { cache with
          engine := (E.parse world.disk cache.engine index
            (cache.requestFor path arguments unsaved)).state
          parsed := cache.parsed + 1
          entries := cache.entries ++ [⟨path, arguments, modified, cache.parsed + 1, unit⟩]
          journal := cache.journal ++ [.askBuffers (.ok unsaved), .readEditingFlags,
            .parse (cache.requestFor path arguments unsaved) (.ok (cache.parsed + 1))] }

/-- The staleness policy for one source file: its result is the entry there is afterwards. -/
inductive Refresh (world : World) (path : Path) (cache : Cache E) :
    Except CacheError (Option (Entry E)) → Cache E → Prop where
  | unavailable {reason}
      (database : cache.Answered (world.compileArguments · path) (.error reason)) :
      Refresh world path cache (.error (.unavailable .database reason))
        { cache with journal := cache.journal ++ [.askArguments path (.error reason)] }
  | absent {arguments time result final}
      (queries : Queried world path cache arguments time)
      (missing : ∀ entry ∈ cache.entries, entry.path ≠ path)
      (full : FullParse world path arguments time.toOption (cache.afterQueries path arguments time)
        result final) :
      Refresh world path cache result final
  | reused {arguments time left entry right}
      (queries : Queried world path cache arguments time)
      (held : cache.entries = left ++ entry :: right) (key : entry.path = path)
      (sameArguments : entry.arguments = arguments) (sameTime : entry.modified = time.toOption) :
      Refresh world path cache (.ok (some entry)) (cache.afterQueries path arguments time)
  | noBuffers {arguments time left entry right reason}
      (queries : Queried world path cache arguments time)
      (held : cache.entries = left ++ entry :: right) (key : entry.path = path)
      (sameArguments : entry.arguments = arguments) (otherTime : entry.modified ≠ time.toOption)
      (buffers : (cache.afterQueries path arguments time).Answered world.buffers (.error reason)) :
      Refresh world path cache (.error (.unavailable .buffers reason))
        ((cache.afterQueries path arguments time).note (.askBuffers (.error reason)))
  | reparsed {arguments time left entry right unsaved flags reply}
      (queries : Queried world path cache arguments time)
      (held : cache.entries = left ++ entry :: right) (key : entry.path = path)
      (sameArguments : entry.arguments = arguments) (otherTime : entry.modified ≠ time.toOption)
      (buffers : (cache.afterQueries path arguments time).Answered world.buffers (.ok unsaved))
      (preferred : flags = E.reparseFlags cache.engine entry.unit)
      (replied : reply = E.reparse world.disk cache.engine entry.unit unsaved flags)
      (succeeded : reply.failure = none) :
      Refresh world path cache
        (.ok (some { entry with unit := reply.unit, modified := time.toOption }))
        { cache with
          engine := reply.state
          entries := left ++ { entry with unit := reply.unit, modified := time.toOption } :: right
          journal := (cache.afterQueries path arguments time).journal ++ [.askBuffers (.ok unsaved),
            .readReparseFlags entry.serial, .reparse entry.serial unsaved flags none] }
  | reparseFailed {arguments time left entry right unsaved flags reply cause result final}
      (queries : Queried world path cache arguments time)
      (held : cache.entries = left ++ entry :: right) (key : entry.path = path)
      (sameArguments : entry.arguments = arguments) (otherTime : entry.modified ≠ time.toOption)
      (buffers : (cache.afterQueries path arguments time).Answered world.buffers (.ok unsaved))
      (preferred : flags = E.reparseFlags cache.engine entry.unit)
      (replied : reply = E.reparse world.disk cache.engine entry.unit unsaved flags)
      (failed : reply.failure = some cause)
      (full : FullParse world path arguments time.toOption
        (giveBack { cache with
          engine := reply.state
          entries := left ++ right
          journal := (cache.afterQueries path arguments time).journal ++ [.askBuffers (.ok unsaved),
            .readReparseFlags entry.serial, .reparse entry.serial unsaved flags (some cause)] }
          { entry with unit := reply.unit }) result final) :
      Refresh world path cache result final
  | rebuilt {arguments time left entry right result final}
      (queries : Queried world path cache arguments time)
      (held : cache.entries = left ++ entry :: right) (key : entry.path = path)
      (otherArguments : entry.arguments ≠ arguments)
      (full : FullParse world path arguments time.toOption
        (giveBack { cache.afterQueries path arguments time with entries := left ++ right } entry)
        result final) :
      Refresh world path cache result final

inductive Removal (path : Path) (cache : Cache E) : Bool → Cache E → Prop where
  | absent (missing : ∀ entry ∈ cache.entries, entry.path ≠ path) : Removal path cache false cache
  | removed {left entry right} (held : cache.entries = left ++ entry :: right)
      (key : entry.path = path) :
      Removal path cache true (giveBack { cache with entries := left ++ right } entry)

theorem unlogged_dispose (cache : Cache E) (entry : Entry E) :
    (cache.dispose entry).2.unlogged = cache.unlogged.giveBack entry := by
  have told : ∀ engine failure, (note { cache with engine } (.dispose entry.serial failure)).unlogged =
      note { cache.unlogged with engine } (.dispose entry.serial failure) :=
    fun engine failure => unlogged_note _ rfl
  unfold dispose
  cases failure : (E.dispose cache.engine entry.unit).1 with
  | none => simp only [failure, told]; simp [giveBack, note, failure]
  | some cause => simp only [failure, unlogged_report, told]; simp [giveBack, note, failure]

theorem entry?_eq_none {cache : Cache E} {path : Path} (absent : cache.entry? path = none) :
    ∀ entry ∈ cache.entries, entry.path ≠ path := by
  intro entry member same
  have := List.find?_eq_none.mp absent entry member
  simp [same] at this

theorem mem_around {Item : Type} {left right : List Item} {item other : Item} :
    other ∈ left ++ item :: right ↔ other = item ∨ other ∈ left ++ right :=
  List.perm_middle.mem_iff.trans List.mem_cons

theorem mem_split {Item : Type} {left right : List Item} {item other : Item}
    (member : other ∈ left ++ right) : other ∈ left ++ item :: right :=
  mem_around.mpr (.inr member)

theorem apart_of_distinct {Item α : Type} {read : Item → α} {left right : List Item}
    {entry : Item} (distinct : ((left ++ entry :: right).map read).Nodup) :
    ∀ other ∈ left ++ right, read other ≠ read entry := by
  rw [List.map_append, List.map_cons, List.nodup_append, List.nodup_cons] at distinct
  obtain ⟨_, ⟨behind, _⟩, apart⟩ := distinct
  intro other member
  rcases List.mem_append.mp member with before | after
  · exact apart _ (List.mem_map_of_mem before) _ List.mem_cons_self
  · exact fun same => behind (same ▸ List.mem_map_of_mem after)

theorem split_of_entry? {cache : Cache E} {path : Path} {entry : Entry E}
    (distinct : cache.paths.Nodup) (found : cache.entry? path = some entry) :
    ∃ left right, cache.entries = left ++ entry :: right ∧ entry.path = path ∧
      ∀ other ∈ left ++ right, other.path ≠ path := by
  obtain ⟨same, left, right, split, _⟩ := List.find?_eq_some_iff_append.mp found
  have key : entry.path = path := of_decide_eq_true same
  rw [paths, split] at distinct
  exact ⟨left, right, split, key, key ▸ apart_of_distinct distinct⟩

private theorem filter_split {path : Path} {left right : List (Entry E)} {entry : Entry E}
    (key : entry.path = path) (apart : ∀ other ∈ left ++ right, other.path ≠ path) :
    (left ++ entry :: right).filter (fun other => !decide (other.path = path)) = left ++ right := by
  have kept : (left ++ right).filter (fun other => !decide (other.path = path)) = left ++ right :=
    List.filter_eq_self.mpr fun other member => by simpa using apart other member
  rw [List.filter_append, List.filter_cons_of_neg (by simpa using key), ← List.filter_append, kept]

private theorem replace_split {cache : Cache E} {left right : List (Entry E)}
    {entry fresh : Entry E}
    (split : cache.entries = left ++ entry :: right) (key : fresh.path = entry.path)
    (apart : ∀ other ∈ left ++ right, other.path ≠ entry.path) :
    cache.replace fresh = { cache with entries := left ++ fresh :: right } := by
  have kept : ∀ others : List (Entry E), (∀ other ∈ others, other.path ≠ entry.path) →
      others.map (fun other => if other.path = fresh.path then fresh else other) = others := by
    intro others differ
    have same : ∀ other ∈ others, (if other.path = fresh.path then fresh else other) = id other :=
      fun other member => if_neg (key ▸ differ other member)
    exact (List.map_congr_left same).trans (List.map_id others)
  rw [replace, split, List.map_append, List.map_cons, if_pos key.symm,
    kept left fun other member => apart other (List.mem_append_left _ member),
    kept right fun other member => apart other (List.mem_append_right _ member)]

theorem entry?_of_split {cache : Cache E} {path : Path} {left right : List (Entry E)}
    {entry : Entry E} (split : cache.entries = left ++ entry :: right) (key : entry.path = path)
    (apart : ∀ other ∈ left ++ right, other.path ≠ path) : cache.entry? path = some entry := by
  refine List.find?_eq_some_iff_append.mpr ⟨decide_eq_true key, left, right, split, ?_⟩
  intro other member
  simpa using apart other (List.mem_append_left _ member)

theorem removeAt_of_split {cache : Cache E} {path : Path} {left right : List (Entry E)}
    {entry : Entry E} (split : cache.entries = left ++ entry :: right) (key : entry.path = path)
    (apart : ∀ other ∈ left ++ right, other.path ≠ path) :
    cache.removeAt path = (true, (dispose { cache with entries := left ++ right } entry).2) := by
  simp only [removeAt, entry?_of_split split key apart, split, filter_split key apart]

theorem removeAt_removal {cache : Cache E} (distinct : cache.paths.Nodup) (path : Path) :
    Removal path cache.unlogged (cache.removeAt path).1 (cache.removeAt path).2.unlogged := by
  cases found : cache.entry? path with
  | none =>
    simp only [removeAt, found]
    exact .absent (entry?_eq_none found)
  | some entry =>
    obtain ⟨left, right, split, key, apart⟩ := split_of_entry? distinct found
    rw [removeAt_of_split split key apart, unlogged_dispose]
    exact .removed split key

theorem removeAt_found (cache : Cache E) (path : Path) :
    (cache.removeAt path).1 = (cache.entry? path).isSome := by
  unfold removeAt
  cases cache.entry? path <;> rfl

/-- A removal leaves nothing under its key. -/
theorem entry?_removeAt (cache : Cache E) (path : Path) :
    Cache.entry? (cache.removeAt path).2 path = none := by
  unfold removeAt
  cases found : cache.entry? path with
  | none => exact found
  | some entry =>
    have kept : ∀ emptied : Cache E, (emptied.dispose entry).2.entries = emptied.entries := by
      intro emptied
      rw [← unlogged_entries, unlogged_dispose]
      rfl
    simp [kept, entry?]

theorem askModified_fst (cache : Cache E) (world : World) (path : Path) :
    (cache.askModified world path).1 = (world.modified cache.journal path).toOption := by
  simp only [askModified]
  split <;> rename_i same <;> simp [same, Except.toOption]

theorem unlogged_askModified (cache : Cache E) (world : World) (path : Path) :
    (cache.askModified world path).2.unlogged =
      cache.unlogged.note (.askModified path (world.modified cache.journal path)) := by
  have told := @unlogged_note E cache (.askModified path (world.modified cache.journal path)) rfl
  simp only [askModified]
  split <;> simpa using told

theorem parseInto_error (cache : Cache E) {disk : Disk} {index : E.Index} {request : ParseRequest}
    {cause : EngineFailure} (arguments : List String) (modified : Option Timestamp)
    (outcome : (E.parse disk cache.engine index request).outcome = .error cause) :
    (cache.parseInto disk index request arguments modified).1 = false ∧
    (cache.parseInto disk index request arguments modified).2.unlogged =
      note { cache.unlogged with engine := (E.parse disk cache.engine index request).state }
        (.parse request (.error cause)) := by
  simp only [parseInto, outcome, unlogged_report, unlogged_noteAll, true_and]
  exact unlogged_note _ rfl

theorem parseInto_ok (cache : Cache E) {disk : Disk} {index : E.Index} {request : ParseRequest}
    {unit : E.Parsed} (arguments : List String) (modified : Option Timestamp)
    (outcome : (E.parse disk cache.engine index request).outcome = .ok unit) :
    (cache.parseInto disk index request arguments modified).1 = true ∧
    (cache.parseInto disk index request arguments modified).2.unlogged =
      note { cache.unlogged with
        engine := (E.parse disk cache.engine index request).state
        parsed := cache.parsed + 1
        entries := cache.entries ++ [⟨request.path, arguments, modified, cache.parsed + 1, unit⟩] }
        (.parse request (.ok (cache.parsed + 1))) := by
  simp only [parseInto, outcome, unlogged_log, unlogged_noteAll, true_and]
  exact unlogged_note _ rfl

private theorem parseAfresh_fullParse (cache : Cache E) (world : World) (path : Path)
    (arguments : List String) (modified : Option Timestamp) :
    ∃ result, FullParse world path arguments modified cache.unlogged result
        (cache.parseAfresh world path arguments modified).2.unlogged ∧
      (cache.parseAfresh world path arguments modified).1 = result.map Option.isSome := by
  have asked : cache.unlogged.Answered world.buffers (world.buffers cache.journal) :=
    ⟨cache.journal, rfl, rfl⟩
  cases answer : world.buffers cache.journal with
  | error reason =>
    rw [answer] at asked
    have run : cache.parseAfresh world path arguments modified =
        (.error (.unavailable .buffers reason), cache.note (.askBuffers (.error reason))) := by
      simp only [parseAfresh, askBuffers, answer]
    rw [run, unlogged_note _ rfl]
    exact ⟨_, .unavailable asked, rfl⟩
  | ok unsaved =>
    rw [answer] at asked
    cases opened : cache.index with
    | none =>
      have run : cache.parseAfresh world path arguments modified =
          (.ok false, (cache.note (.askBuffers (.ok unsaved))).log .error
            "cannot parse translation unit: index has been shut down" [("path", path.text)]) := by
        simp only [parseAfresh, askBuffers, answer, note_index, opened]
      rw [run, unlogged_log, unlogged_note _ rfl]
      exact ⟨_, .indexClosed asked opened, rfl⟩
    | some index =>
      let ready := (cache.note (.askBuffers (.ok unsaved))).note .readEditingFlags
      let request := cache.requestFor path arguments unsaved
      have run : cache.parseAfresh world path arguments modified =
          (.ok (ready.parseInto world.disk index request arguments modified).1,
            (ready.parseInto world.disk index request arguments modified).2) := by
        simp only [parseAfresh, askBuffers, answer, note_index, opened]
        rfl
      have seen : ready.unlogged = { cache.unlogged with
          journal := cache.unlogged.journal ++ [.askBuffers (.ok unsaved), .readEditingFlags] } := by
        rw [unlogged_note _ rfl, unlogged_note _ rfl]
        simp [note]
      rw [run]
      cases outcome : (E.parse world.disk cache.engine index request).outcome with
      | error cause =>
        obtain ⟨answered, final⟩ := parseInto_error ready arguments modified outcome
        have full := @FullParse.failed E world path arguments modified cache.unlogged
          unsaved index cause asked opened outcome
        refine ⟨.ok none, ?_, by rw [answered]; rfl⟩
        rw [final, seen]
        simpa [note, ready, request] using full
      | ok unit =>
        obtain ⟨answered, final⟩ := parseInto_ok ready arguments modified outcome
        have full := @FullParse.parsed E world path arguments modified cache.unlogged
          unsaved index unit asked opened outcome
        refine ⟨.ok (some ⟨path, arguments, modified, cache.parsed + 1, unit⟩), ?_,
          by rw [answered]; rfl⟩
        rw [final, seen]
        simpa [note, ready, request] using full

private theorem rebuild_of_missing {cache : Cache E} {world : World} {path : Path}
    (canonical : world.disk.absolute path = path) (missing : cache.entry? path = none)
    (arguments : List String) (modified : Option Timestamp) :
    cache.rebuild world path arguments modified =
      cache.parseAfresh world path arguments modified := by
  simp only [rebuild, remove, canonical, removeAt, missing]

/-- What is parsed has no entry any more, so putting its new entry last is inserting it by its key. -/
theorem missing_of_remove (cache : Cache E) {world : World} {path : Path}
    (canonical : world.disk.absolute path = path) :
    ∀ entry ∈ (cache.remove world path).2.entries, entry.path ≠ path := by
  rw [remove, canonical]
  exact entry?_eq_none (entry?_removeAt cache path)

private theorem rebuild_fullParse (cache : Cache E) {world : World} {path : Path}
    {left right : List (Entry E)} {entry : Entry E} (canonical : world.disk.absolute path = path)
    (split : cache.entries = left ++ entry :: right) (key : entry.path = path)
    (apart : ∀ other ∈ left ++ right, other.path ≠ path)
    (arguments : List String) (modified : Option Timestamp) :
    ∃ result, FullParse world path arguments modified
        (giveBack { cache.unlogged with entries := left ++ right } entry) result
        (cache.rebuild world path arguments modified).2.unlogged ∧
      (cache.rebuild world path arguments modified).1 = result.map Option.isSome := by
  have run : cache.rebuild world path arguments modified =
      (dispose { cache with entries := left ++ right } entry).2.parseAfresh world path arguments
        modified := by
    rw [rebuild, remove, canonical, removeAt_of_split split key apart]
  have full := parseAfresh_fullParse (dispose { cache with entries := left ++ right } entry).2
    world path arguments modified
  rwa [← run, unlogged_dispose] at full

theorem unlogged_reparseUnit (cache : Cache E) (disk : Disk) (entry : Entry E)
    (unsaved : List Buffer) {flags : ReparseFlags} {reply : ReparseReply E.State E.Parsed}
    (preferred : flags = E.reparseFlags cache.engine entry.unit)
    (replied : reply = E.reparse disk cache.engine entry.unit unsaved flags) :
    (cache.reparseUnit disk entry unsaved).1 = reply ∧
    (cache.reparseUnit disk entry unsaved).2.unlogged =
      note (note { cache.unlogged with engine := reply.state } (.readReparseFlags entry.serial))
        (.reparse entry.serial unsaved flags reply.failure) := by
  subst preferred replied
  refine ⟨rfl, ?_⟩
  rw [reparseUnit, unlogged_noteAll, unlogged_note _ rfl, unlogged_note _ rfl]
  rfl

private theorem reparse_refresh {cache known : Cache E} {world : World} {path : Path}
    {arguments : List String} {time : Except FileError Timestamp} {left right : List (Entry E)}
    {entry : Entry E} (canonical : world.disk.absolute path = path)
    (queries : Queried world path cache arguments time)
    (seen : known.unlogged = cache.afterQueries path arguments time)
    (held : cache.entries = left ++ entry :: right) (key : entry.path = path)
    (apart : ∀ other ∈ left ++ right, other.path ≠ path)
    (sameArguments : entry.arguments = arguments) (otherTime : entry.modified ≠ time.toOption) :
    ∃ result, Refresh world path cache result (known.reparse world entry time.toOption).2.unlogged ∧
      (known.reparse world entry time.toOption).1 = result.map Option.isSome := by
  have engine : known.engine = cache.engine := by rw [← unlogged_engine, seen]; rfl
  have entries : known.entries = left ++ entry :: right := by
    rw [← held, ← unlogged_entries, seen]; rfl
  have asked : (cache.afterQueries path arguments time).Answered world.buffers
      (world.buffers known.journal) := ⟨known.journal, by rw [← unlogged_journal, seen], rfl⟩
  subst key sameArguments
  cases answer : world.buffers known.journal with
  | error reason =>
    rw [answer] at asked
    have run : known.reparse world entry time.toOption =
        (.error (.unavailable .buffers reason), known.note (.askBuffers (.error reason))) := by
      simp only [reparse, askBuffers, answer]
    rw [run, unlogged_note _ rfl, seen]
    exact ⟨_, .noBuffers queries held rfl rfl otherTime asked, rfl⟩
  | ok unsaved =>
    rw [answer] at asked
    generalize preferred : E.reparseFlags cache.engine entry.unit = flags
    generalize replied : E.reparse world.disk cache.engine entry.unit unsaved flags = reply
    let called := ((known.note (.askBuffers (.ok unsaved))).reparseUnit world.disk entry unsaved).2
    obtain ⟨answered, calledSeen⟩ := unlogged_reparseUnit
      (known.note (.askBuffers (.ok unsaved))) world.disk entry unsaved
      (show flags = _ by rw [note_engine, engine, preferred])
      (show reply = _ by rw [note_engine, engine, replied])
    have calledEntries : called.entries = left ++ entry :: right := entries
    rw [unlogged_note _ rfl, seen] at calledSeen
    cases failure : reply.failure with
    | none =>
      have run : known.reparse world entry time.toOption =
          (.ok true, (called.replace { entry with unit := reply.unit, modified := time.toOption }).log
            .debug "re-parsed translation unit" [("path", entry.path.text)]) := by
        simp only [reparse, askBuffers, answer, answered, failure]
        rfl
      let fresh : Entry E := { entry with unit := reply.unit, modified := time.toOption }
      have placed : called.replace fresh = { called with entries := left ++ fresh :: right } :=
        replace_split calledEntries rfl apart
      have reparsed := Refresh.reparsed queries held rfl rfl otherTime asked preferred.symm
        replied.symm failure
      rw [run]
      refine ⟨.ok (some fresh), ?_, rfl⟩
      rw [unlogged_log, placed]
      change Refresh _ _ _ _ { called.unlogged with entries := left ++ fresh :: right }
      rw [calledSeen, failure]
      simpa [note, afterQueries] using reparsed
    | some cause =>
      have run : known.reparse world entry time.toOption =
          ((called.replace { entry with unit := reply.unit }).report .error
            (.reparseFailed entry.path cause)).rebuild world entry.path entry.arguments
              time.toOption := by
        simp only [reparse, askBuffers, answer, answered, failure]
        rfl
      let spoilt : Entry E := { entry with unit := reply.unit }
      have placed : called.replace spoilt = { called with entries := left ++ spoilt :: right } :=
        replace_split calledEntries rfl apart
      obtain ⟨result, full, finished⟩ := rebuild_fullParse
        ((called.replace spoilt).report .error (.reparseFailed entry.path cause)) canonical
        (show _ = left ++ spoilt :: right by rw [placed]; rfl) rfl apart entry.arguments
        time.toOption
      rw [run]
      refine ⟨result, .reparseFailed queries held rfl rfl otherTime asked preferred.symm
        replied.symm failure ?_, finished⟩
      have shape : { (called.replace spoilt).unlogged with entries := left ++ right } =
          { called.unlogged with entries := left ++ right } := by rw [placed]; rfl
      rw [unlogged_report, shape, calledSeen, failure] at full
      simpa [note, afterQueries] using full

/-- An update does what the relation tells of it, for a path that is its own absolute form. -/
theorem update_refresh {cache : Cache E} {world : World} {path : Path}
    (canonical : world.disk.absolute path = path) (distinct : cache.paths.Nodup) :
    ∃ result, Refresh world path cache.unlogged result (cache.update world path).2.unlogged ∧
      (cache.update world path).1 = result.map Option.isSome := by
  have database : cache.unlogged.Answered (world.compileArguments · path)
      (world.compileArguments cache.journal path) := ⟨cache.journal, rfl, rfl⟩
  cases answer : world.compileArguments cache.journal path with
  | error reason =>
    rw [answer] at database
    have run : cache.update world path = (.error (.unavailable .database reason),
        cache.note (.askArguments path (.error reason))) := by simp only [update, answer]
    rw [run, unlogged_note _ rfl]
    exact ⟨_, .unavailable database, rfl⟩
  | ok arguments =>
    rw [answer] at database
    let asked := cache.note (.askArguments path (.ok arguments))
    let known := (asked.askModified world path).2
    have queries : Queried world path cache.unlogged arguments (world.modified asked.journal path) :=
      ⟨database, asked.journal, by simp [asked, Journal.trace, Event.isLog], rfl⟩
    generalize told : world.modified asked.journal path = time at queries
    have seen : known.unlogged = cache.unlogged.afterQueries path arguments time := by
      rw [unlogged_askModified, unlogged_note _ rfl, told]
      simp [afterQueries, note]
    have entries : known.entries = cache.entries := by
      rw [← unlogged_entries, seen]; rfl
    have pair : (cache.note (.askArguments path (.ok arguments))).askModified world path =
        (time.toOption, known) := Prod.ext (by rw [askModified_fst, ← told]) rfl
    cases found : known.entry? path with
    | none =>
      have run : cache.update world path = known.rebuild world path arguments time.toOption := by
        simp only [update, answer, pair, found]
      obtain ⟨result, full, answered⟩ :=
        parseAfresh_fullParse known world path arguments time.toOption
      rw [seen] at full
      have missing : ∀ entry ∈ cache.entries, entry.path ≠ path := entries ▸ entry?_eq_none found
      rw [run, rebuild_of_missing canonical found]
      exact ⟨result, .absent queries missing full, answered⟩
    | some entry =>
      have distinctKnown : known.paths.Nodup := by rwa [paths, entries]
      obtain ⟨left, right, split, key, apart⟩ := split_of_entry? distinctKnown found
      have held : cache.unlogged.entries = left ++ entry :: right := entries ▸ split
      by_cases sameArguments : entry.arguments = arguments
      · by_cases sameTime : entry.modified = time.toOption
        · have run : cache.update world path =
              (.ok true, known.log .debug "translation unit up to date" [("path", path.text)]) := by
            simp only [update, answer, pair, found, if_pos sameArguments, if_pos sameTime]
          rw [run, unlogged_log, seen]
          exact ⟨_, .reused queries held key sameArguments sameTime, rfl⟩
        · have run : cache.update world path = known.reparse world entry time.toOption := by
            simp only [update, answer, pair, found, if_pos sameArguments, if_neg sameTime]
          rw [run]
          exact reparse_refresh canonical queries seen held key apart sameArguments sameTime
      · have run : cache.update world path =
            (known.log .debug "compile arguments changed; rebuilding"
              [("path", path.text)]).rebuild world path arguments time.toOption := by
          simp only [update, answer, pair, found, if_neg sameArguments]
        obtain ⟨result, full, answered⟩ := rebuild_fullParse
          (known.log .debug "compile arguments changed; rebuilding" [("path", path.text)])
          canonical split key apart arguments time.toOption
        rw [unlogged_log, seen] at full
        rw [run]
        exact ⟨result, .rebuilt queries held key sameArguments full, answered⟩

theorem updateReported_refresh {cache : Cache E} {world : World} {path : Path}
    (canonical : world.disk.absolute path = path) (distinct : cache.paths.Nodup) :
    ∃ result, Refresh world path cache.unlogged result
        (cache.updateReported world path).2.unlogged ∧
      (cache.updateReported world path).1 = result.map Option.isSome := by
  unfold updateReported
  split
  · have refreshed := update_refresh canonical
      (show (cache.log .info "indexing translation unit" [("path", path.text)]).paths.Nodup from
        distinct)
    simpa using refreshed
  · exact update_refresh canonical distinct

end UnitCache.Cache
