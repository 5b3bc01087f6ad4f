import UnitCache.Proofs.FirstCommands
import UnitCache.Proofs.History

/-! What a database knows after it was read again and again while its file changed. It is the
database of the last reading that succeeded. A reading fails as loading would, wherever the fault
is, and then leaves nothing behind. -/

namespace UnitCache.CommandDatabase
open History

section Map
variable {Failure Value Result : Type} {change : Value → Result} {loading : Except Failure Value}

private theorem map_eq_error_iff {failure : Failure} :
    loading.map change = .error failure ↔ loading = .error failure := by
  cases loading <;> simp [Except.map]

private theorem map_eq_ok_iff {result : Result} :
    loading.map change = .ok result ↔ ∃ value, loading = .ok value ∧ change value = result := by
  cases loading <;> simp [Except.map]

end Map

/-- What can keep a file from being loaded: it cannot be read, its text is no list of commands, or
one of the commands cannot be read. -/
inductive Fault (disk : Disk) (path : Path) : CommandDatabaseError → Prop where
  | unreadable {cause : FileError} (unread : disk.readText path = .error cause) :
      Fault disk path (.unreadable path cause.message)
  | malformed {text : String} (read : disk.readText path = .ok text)
      (untold : commandsOfText? text = none) :
      Fault disk path (.malformed "no array of compile commands")
  | refused {text : String} {commands : List CompileCommand} {error : CommandDatabaseError}
      (read : disk.readText path = .ok text) (told : commandsOfText? text = some commands)
      (refused : Refused commands error) : Fault disk path error

variable {disk : Disk} {path : Path} {text : String} {commands loaded fresh : CommandDatabase}
  {error : CommandDatabaseError}

private theorem ofFile_of_unread {cause : FileError} (unread : disk.readText path = .error cause) :
    ofFile disk path = .error (.unreadable path cause.message) := by
  simp only [ofFile, unread]

private theorem ofFile_of_read (read : disk.readText path = .ok text) :
    ofFile disk path = (ofText text).map fun loaded => { loaded with origin := some path } := by
  simp only [ofFile, read]

private theorem ofText_eq_error_iff :
    ofText text = .error error ↔
      (commandsOfText? text = none ∧ error = .malformed "no array of compile commands") ∨
        ∃ commands, commandsOfText? text = some commands ∧ Refused commands error := by
  unfold ofText
  cases commandsOfText? text with
  | none => simp [eq_comm]
  | some commands => simp [ofCommands_eq_error_iff]

/-- Loading fails exactly for what is wrong with the file. -/
theorem ofFile_eq_error_iff : ofFile disk path = .error error ↔ Fault disk path error := by
  constructor
  · intro failed
    cases read : disk.readText path with
    | error cause =>
      rw [ofFile_of_unread read] at failed
      cases failed
      exact .unreadable read
    | ok text =>
      rw [ofFile_of_read read, map_eq_error_iff, ofText_eq_error_iff] at failed
      rcases failed with ⟨untold, rfl⟩ | ⟨commands, told, refused⟩
      · exact .malformed read untold
      · exact .refused read told refused
  · rintro (unread | ⟨read, untold⟩ | ⟨read, told, refused⟩)
    · exact ofFile_of_unread unread
    · rw [ofFile_of_read read, map_eq_error_iff, ofText_eq_error_iff]
      exact .inl ⟨untold, rfl⟩
    · rw [ofFile_of_read read, map_eq_error_iff, ofText_eq_error_iff]
      exact .inr ⟨_, told, refused⟩

private theorem origin_of_ofFile (read : ofFile disk path = .ok loaded) :
    loaded.origin = some path := by
  cases held : disk.readText path with
  | error cause =>
    rw [ofFile_of_unread held] at read
    cases read
  | ok text =>
    rw [ofFile_of_read held, map_eq_ok_iff] at read
    obtain ⟨unplaced, _, rfl⟩ := read
    rfl

private theorem origin_of_ofText (read : ofText text = .ok loaded) : loaded.origin = none := by
  unfold ofText at read
  split at read
  · cases read
  · rw [ofCommands, map_eq_ok_iff] at read
    obtain ⟨entries, _, rfl⟩ := read
    rfl

private theorem reread_of_ok (origin : commands.origin = some path)
    (read : ofFile disk path = .ok fresh) :
    commands.reread disk = (fresh.withDefaultArguments commands.defaultArguments, none) := by
  simp only [reread, origin, read, withDefaultArguments, origin_of_ofFile read]

private theorem reread_of_error (origin : commands.origin = some path)
    (failed : ofFile disk path = .error error) :
    commands.reread disk = (commands, some error) := by
  simp only [reread, origin, failed]

private theorem reread_of_no_origin (origin : commands.origin = none) (disk : Disk) :
    commands.reread disk = (commands, none) := by
  simp only [reread, origin]

/-- What happens to a database and to the disk its file may be on. -/
inductive FileStep where
  | change (disk : Disk)
  | reread

/-- A database in use, with the disk and what the readings so far saw and gave. -/
structure Rereading where
  disk : Disk
  commands : CommandDatabase
  readings : List (Disk × Option CommandDatabaseError)

namespace Rereading

def start (disk : Disk) (commands : CommandDatabase) : Rereading := ⟨disk, commands, []⟩

def step (state : Rereading) : FileStep → Rereading
  | .change disk => { state with disk }
  | .reread =>
    let (commands, reply) := state.commands.reread state.disk
    { state with commands, readings := state.readings ++ [(state.disk, reply)] }

def run (state : Rereading) (steps : List FileStep) : Rereading := steps.foldl step state

private theorem run_concat (state : Rereading) (steps : List FileStep) (last : FileStep) :
    state.run (steps ++ [last]) = (state.run steps).step last := by
  simp [run]

end Rereading

/-- On the last of the disks on which nothing was wrong with the file, this was loaded from it. -/
def LoadedLast (path : Path) (disks : List Disk) (loaded : CommandDatabase) : Prop :=
  Since (fun _ disk => ofFile disk path = .ok loaded) (fun disk => ∀ error, ¬Fault disk path error)
    disks

/-- The database is the one that was last loaded from the file, with the given default arguments,
and each reading gave what loading would have. -/
structure Rereading.Follows (path : Path) (defaults : List String) (first : Disk)
    (state : Rereading) : Prop where
  latest : ∃ latest, LoadedLast path (first :: state.readings.map Prod.fst) latest ∧
    state.commands = latest.withDefaultArguments defaults
  replies : ∀ reading ∈ state.readings, ∀ error,
    reading.2 = some error ↔ ofFile reading.1 path = .error error

variable {defaults : List String} {first : Disk} {state : Rereading}

private theorem LoadedLast.origin {disks : List Disk} (last : LoadedLast path disks loaded) :
    loaded.origin = some path := by
  obtain ⟨_, _, _, _, read, _⟩ := last
  exact origin_of_ofFile read

private theorem Rereading.Follows.start (read : ofFile first path = .ok loaded) :
    Follows path defaults first (.start first (loaded.withDefaultArguments defaults)) where
  latest := ⟨loaded, ⟨[], first, [], rfl, read, by simp⟩, rfl⟩
  replies := by simp [Rereading.start]

private theorem Rereading.Follows.reread (follows : Follows path defaults first state) :
    Follows path defaults first (state.step .reread) := by
  obtain ⟨latest, last, held⟩ := follows.latest
  have origin : state.commands.origin = some path := held ▸ last.origin
  have told : ∀ {reply}, (∀ error, reply = some error ↔ ofFile state.disk path = .error error) →
      ∀ reading ∈ state.readings ++ [(state.disk, reply)], ∀ error,
        reading.2 = some error ↔ ofFile reading.1 path = .error error := fun same =>
    List.forall_mem_append.mpr ⟨follows.replies, List.forall_mem_singleton.mpr same⟩
  cases read : ofFile state.disk path with
  | ok fresh =>
    have again := reread_of_ok origin read
    simp only [Rereading.step, again]
    refine ⟨⟨fresh, ?_, by simp [held, withDefaultArguments]⟩, told (by simp [read])⟩
    simp only [List.map_append, List.map_cons, List.map_nil, ← List.cons_append]
    exact since_concat.mpr (.inl read)
  | error error =>
    have again := reread_of_error origin read
    simp only [Rereading.step, again]
    refine ⟨⟨latest, ?_, held⟩, told (by simp [read])⟩
    simp only [List.map_append, List.map_cons, List.map_nil, ← List.cons_append]
    have wrong : ¬∀ error, ¬Fault state.disk path error := fun sound =>
      sound error (ofFile_eq_error_iff.mp read)
    exact since_concat.mpr (.inr ⟨last, wrong⟩)

private theorem Rereading.Follows.run (follows : Follows path defaults first state)
    (steps : List FileStep) : Follows path defaults first (state.run steps) := by
  induction steps using List.reverseRecOn with
  | nil => exact follows
  | append_singleton steps last ih =>
    rw [run_concat]
    cases last with
    | change disk => exact ⟨ih.latest, ih.replies⟩
    | reread => exact ih.reread

/-- A database that comes from no file stays what it is. -/
theorem Rereading.run_of_no_origin (origin : commands.origin = none) (steps : List FileStep) :
    let state := (Rereading.start first commands).run steps
    state.commands = commands ∧ ∀ reading ∈ state.readings, reading.2 = none := by
  intro state
  induction steps using List.reverseRecOn with
  | nil => exact ⟨rfl, by simp [state, run, start]⟩
  | append_singleton steps last ih =>
    obtain ⟨held, quiet⟩ := ih
    simp only [state, run_concat]
    cases last with
    | change disk => exact ⟨held, quiet⟩
    | reread =>
      have again := reread_of_no_origin (held ▸ origin) ((start first commands).run steps).disk
      simp only [step, again]
      exact ⟨held, List.forall_mem_append.mpr ⟨quiet, List.forall_mem_singleton.mpr rfl⟩⟩

/-- However often a database is read again while its file changes, it is the one that was last
loaded from the file, with the default arguments it was given. A reading succeeds if the file can be
loaded, also after others failed, and otherwise changes nothing and tells what loading would. A
database that was made from a text never changes, and reading it again never fails. -/
theorem rereading_is_all_or_nothing (first : Disk) (defaults : List String)
    (steps : List FileStep) :
    (∀ path loaded, ofFile first path = .ok loaded →
      let state := (Rereading.start first (loaded.withDefaultArguments defaults)).run steps
      state.Follows path defaults first ∧
      (∀ disk fresh, ofFile disk path = .ok fresh →
        state.commands.reread disk = (fresh.withDefaultArguments defaults, none)) ∧
      ∀ disk error, Fault disk path error ↔
        state.commands.reread disk = (state.commands, some error)) ∧
    ∀ text loaded, ofText text = .ok loaded →
      let state := (Rereading.start first (loaded.withDefaultArguments defaults)).run steps
      state.commands = loaded.withDefaultArguments defaults ∧
      ∀ reading ∈ state.readings, reading.2 = none := by
  constructor
  · intro path loaded read state
    have follows : state.Follows path defaults first := (Rereading.Follows.start read).run steps
    obtain ⟨latest, last, held⟩ := follows.latest
    have origin : state.commands.origin = some path := held ▸ last.origin
    refine ⟨follows, fun disk fresh again => ?_, fun disk error => ?_⟩
    · rw [reread_of_ok origin again, held]
      rfl
    · rw [← ofFile_eq_error_iff]
      refine ⟨reread_of_error origin, fun same => ?_⟩
      cases again : ofFile disk path with
      | ok fresh => simp [reread_of_ok origin again] at same
      | error other => simpa [reread_of_error origin again] using same
  · intro text loaded read
    have origin : (loaded.withDefaultArguments defaults).origin = none :=
      show loaded.origin = none from origin_of_ofText read
    exact Rereading.run_of_no_origin origin steps

theorem spoilt_file_keeps_last_commands :
    let file := fun text => ({ Disk.empty with nodes := [(["db"], .file text 1)] } : Disk)
    let one := file (some "[[\"/p\", \"a.c\", [\"cc\", \"-DA\"]]]")
    let two := file (some "[[\"/p\", \"b.c\", null, \"cc -DB\"]]")
    let spoilt := file (some "[[\"/p\", \"b.c\", null, \"cc\"], [\"/p\", \"c.c\", null, \"'\"]]")
    let loaded : CommandDatabase := ⟨some ⟨"/db"⟩, [(⟨"/p/a.c"⟩, ["-DA"])], []⟩
    let state := (Rereading.start one (loaded.withDefaultArguments ["-DX"])).run
      [.change spoilt, .reread, .change .empty, .reread, .change (file none), .reread]
    ofFile one ⟨"/db"⟩ = .ok loaded ∧ state.Follows ⟨"/db"⟩ ["-DX"] one ∧
    state.commands = loaded.withDefaultArguments ["-DX"] ∧
    state.readings.map Prod.snd = [some (.unbalancedCommand ⟨"/p/c.c"⟩),
      some (.unreadable ⟨"/db"⟩ FileError.notFound.message),
      some (.unreadable ⟨"/db"⟩ FileError.notText.message)] ∧
    state.commands.reread two = (⟨some ⟨"/db"⟩, [(⟨"/p/b.c"⟩, ["-DB"])], ["-DX"]⟩, none) := by
  intro file one two spoilt loaded state
  have read : ofFile one ⟨"/db"⟩ = .ok loaded := by decide +kernel
  have recovered : ofFile two ⟨"/db"⟩ = .ok ⟨some ⟨"/db"⟩, [(⟨"/p/b.c"⟩, ["-DB"])], []⟩ := by
    decide +kernel
  obtain ⟨follows, succeeds, _⟩ := (rereading_is_all_or_nothing one ["-DX"]
    [.change spoilt, .reread, .change .empty, .reread, .change (file none), .reread]).1 _ _ read
  exact ⟨read, follows, by decide +kernel, by decide +kernel, succeeds two _ recovered⟩

end UnitCache.CommandDatabase
