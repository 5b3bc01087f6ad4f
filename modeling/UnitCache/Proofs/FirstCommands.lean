import UnitCache.Proofs.ListedArguments

/-! Which commands a database is made of. The first command for a file is entered, in its place, and
later ones for the file are not. But every command must be readable, and the first that is not
decides, whether it would have been entered or not. -/

namespace UnitCache

namespace CompileCommand

/-- The words of the command line if they can be told: the list of arguments, and else the text as a
shell splits it. -/
def words? (command : CompileCommand) : Option (List String) :=
  command.arguments.or (command.command.bind ShellWords.split)

/-- What is wrong with a command whose words cannot be told. -/
def refusal (command : CompileCommand) : CommandDatabaseError :=
  if command.command.isSome then .unbalancedCommand command.key else .missingCommand command.key

def parserArguments? (command : CompileCommand) : Option (List String) :=
  command.words?.map fun words =>
    CommandDatabase.parserArguments words command.directory command.key

private theorem words_eq (command : CompileCommand) :
    command.words = command.words?.elim (.error command.refusal) .ok := by
  unfold words words? refusal
  cases command.arguments with
  | some arguments => rfl
  | none =>
    cases command.command with
    | none => rfl
    | some line => cases split : ShellWords.split line <;> simp [split]

end CompileCommand

namespace CommandDatabase
open CompileCommand

variable {entries final : List (Path × List String)} {commands rest : List CompileCommand}
  {command : CompileCommand} {words : List String} {error : CommandDatabaseError}

/-- The first command that cannot be read, wherever it stands, is refused. -/
def Refused (commands : List CompileCommand) (error : CommandDatabaseError) : Prop :=
  ∃ before command after, commands = before ++ command :: after ∧
    (∀ earlier ∈ before, earlier.words?.isSome = true) ∧
    command.words? = none ∧ error = command.refusal

private theorem refused_cons_of_unreadable (unreadable : command.words? = none) :
    Refused (command :: rest) error ↔ error = command.refusal := by
  constructor
  · rintro ⟨before, refused, after, parts, readable, missing, rfl⟩
    cases before with
    | nil => rw [(List.cons.inj parts).1]
    | cons first before =>
      have read := readable first List.mem_cons_self
      rw [← (List.cons.inj parts).1, unreadable] at read
      cases read
  · rintro rfl
    exact ⟨[], command, rest, rfl, by simp, unreadable, rfl⟩

private theorem refused_cons_of_readable (readable : command.words? = some words) :
    Refused (command :: rest) error ↔ Refused rest error := by
  constructor
  · rintro ⟨before, refused, after, parts, earlier, missing, rfl⟩
    cases before with
    | nil =>
      rw [← (List.cons.inj parts).1, readable] at missing
      cases missing
    | cons first before =>
      exact ⟨before, refused, after, (List.cons.inj parts).2,
        fun other member => earlier other (.tail _ member), missing, rfl⟩
  · rintro ⟨before, refused, after, rfl, earlier, missing, rfl⟩
    refine ⟨command :: before, refused, after, rfl, ?_, missing, rfl⟩
    exact List.forall_mem_cons.mpr ⟨by rw [readable]; rfl, earlier⟩

private theorem exists_refused (member : command ∈ commands) (unreadable : command.words? = none) :
    ∃ error, Refused commands error := by
  induction commands with
  | nil => cases member
  | cons first rest ih =>
    cases read : first.words? with
    | none => exact ⟨first.refusal, (refused_cons_of_unreadable read).mpr rfl⟩
    | some words =>
      have later : command ∈ rest := by
        rcases List.mem_cons.mp member with rfl | later
        · rw [unreadable] at read
          cases read
        · exact later
      obtain ⟨error, refused⟩ := ih later
      exact ⟨error, (refused_cons_of_readable read).mpr refused⟩

/-- The entries with one more command, which counts if its file is new. -/
def entered (entries : List (Path × List String)) (command : CompileCommand)
    (words : List String) : List (Path × List String) :=
  if (lookup? entries command.key).isSome then entries
  else entries ++ [(command.key, parserArguments words command.directory command.key)]

private theorem addCommands_cons_of_unreadable (unreadable : command.words? = none) :
    addCommands entries (command :: rest) = .error command.refusal := by
  rw [addCommands, words_eq, unreadable]
  rfl

private theorem addCommands_cons_of_readable (readable : command.words? = some words) :
    addCommands entries (command :: rest) = addCommands (entered entries command words) rest := by
  rw [addCommands, words_eq, readable, entered]
  exact (apply_ite (addCommands · rest) _ _ _).symm

private theorem addCommands_cons_eq_ok (read : addCommands entries (command :: rest) = .ok final) :
    ∃ words, command.words? = some words ∧
      addCommands (entered entries command words) rest = .ok final := by
  cases told : command.words? with
  | none =>
    rw [addCommands_cons_of_unreadable told] at read
    cases read
  | some words => exact ⟨words, rfl, addCommands_cons_of_readable told ▸ read⟩

/-- Whether a command is refused does not depend on what is entered before it. -/
theorem addCommands_eq_error_iff :
    addCommands entries commands = .error error ↔ Refused commands error := by
  induction commands generalizing entries with
  | nil => simp [addCommands, Refused]
  | cons command rest ih =>
    cases read : command.words? with
    | none =>
      rw [addCommands_cons_of_unreadable read, refused_cons_of_unreadable read, Except.error.injEq]
      exact eq_comm
    | some words =>
      rw [addCommands_cons_of_readable read, refused_cons_of_readable read]
      exact ih

private theorem lookup?_append_singleton (entry : Path × List String) (path : Path) :
    lookup? (entries ++ [entry]) path =
      (lookup? entries path).or (if entry.1 = path then some entry.2 else none) := by
  unfold lookup?
  rw [List.find?_append, Option.map_or, List.find?_singleton]
  split <;> simp_all

private theorem lookup?_entered (path : Path) :
    lookup? (entered entries command words) path = (lookup? entries path).or
      (if command.key = path then some (parserArguments words command.directory command.key)
        else none) := by
  unfold entered
  split
  · rename_i listed
    split
    · rename_i same
      obtain ⟨arguments, known⟩ := Option.isSome_iff_exists.mp (same ▸ listed)
      rw [known, Option.some_or]
    · rw [Option.or_none]
  · exact lookup?_append_singleton _ path

private theorem lookup?_addCommands (read : addCommands entries commands = .ok final)
    (path : Path) :
    lookup? final path = (lookup? entries path).or
      ((commands.find? fun command => command.key = path).bind parserArguments?) := by
  induction commands generalizing entries with
  | nil => rw [← Except.ok.inj read, List.find?_nil, Option.bind_none, Option.or_none]
  | cons command rest ih =>
    obtain ⟨words, told, later⟩ := addCommands_cons_eq_ok read
    rw [ih later, lookup?_entered, Option.or_assoc]
    congr 1
    -- The first command for the path is this one, or it is among the others.
    by_cases same : command.key = path
    · rw [List.find?_cons_of_pos (by simpa using same), if_pos same, Option.some_or]
      simp [parserArguments?, told]
    · rw [List.find?_cons_of_neg (by simpa using same), if_neg same, Option.none_or]

private theorem keys_entered :
    (entered entries command words).map Prod.fst =
      entries.map Prod.fst ++ [command.key].removeAll (entries.map Prod.fst) := by
  unfold entered
  by_cases listed : command.key ∈ entries.map Prod.fst
  · rw [if_pos (isSome_lookup?_iff.mpr listed)]
    simp [List.cons_removeAll, listed]
  · rw [if_neg (mt isSome_lookup?_iff.mp listed)]
    simp [List.cons_removeAll, listed]

private theorem removeAll_append_singleton (files seen : List Path) (file : Path) :
    files.removeAll (seen ++ [file]) =
      (files.removeAll seen).filter fun other => !other == file := by
  unfold List.removeAll
  rw [List.filter_filter]
  apply List.filter_congr
  intro other _
  by_cases same : other = file <;> simp [same]

private theorem keys_addCommands (read : addCommands entries commands = .ok final) :
    final.map Prod.fst = entries.map Prod.fst ++
      ((commands.map key).removeAll (entries.map Prod.fst)).eraseDups := by
  induction commands generalizing entries with
  | nil => simp [← Except.ok.inj read]
  | cons command rest ih =>
    obtain ⟨words, _, later⟩ := addCommands_cons_eq_ok read
    rw [ih later, keys_entered, List.append_assoc, List.map_cons]
    congr 1
    -- The key of a new file is the next one, and drops out of the keys to come.
    by_cases listed : command.key ∈ entries.map Prod.fst
    · simp [List.cons_removeAll, listed]
    · have new : (entries.map Prod.fst).contains command.key = false := by simpa using listed
      rw [List.cons_removeAll, List.cons_removeAll, if_pos new, if_pos new, List.nil_removeAll,
        removeAll_append_singleton, List.eraseDups_cons]
      rfl

/-- A database made of the first command for each file. -/
structure FirstOf (commands : List CompileCommand) (database : CommandDatabase) : Prop where
  files : database.entries.map Prod.fst = (commands.map key).eraseDups
  arguments : ∀ path, database.get? path =
    (commands.find? fun command => command.key = path.normalize).bind parserArguments?

private theorem firstOf_ofCommands {database : CommandDatabase}
    (read : ofCommands commands = .ok database) : FirstOf commands database := by
  have added := addCommands_of_ofCommands read
  constructor
  · have files := keys_addCommands added
    rwa [List.map_nil, List.removeAll_nil, List.nil_append] at files
  · intro path
    exact (lookup?_addCommands added path.normalize).trans (Option.none_or ..)

theorem ofCommands_eq_error_iff :
    ofCommands commands = .error error ↔ Refused commands error := by
  rw [← @addCommands_eq_error_iff [], ofCommands]
  cases addCommands [] commands <;> simp [Except.map]

private theorem exists_ofCommands_eq_ok_iff :
    (∃ loaded, ofCommands commands = .ok loaded) ↔
      ∀ command ∈ commands, command.words?.isSome = true := by
  constructor
  · rintro ⟨loaded, read⟩ command member
    cases unreadable : command.words? with
    | some words => rfl
    | none =>
      obtain ⟨error, refused⟩ := exists_refused member unreadable
      rw [ofCommands_eq_error_iff.mpr refused] at read
      cases read
  · intro readable
    cases read : ofCommands commands with
    | ok loaded => exact ⟨loaded, rfl⟩
    | error error =>
      obtain ⟨before, command, after, rfl, _, missing, _⟩ := ofCommands_eq_error_iff.mp read
      have told := readable command (by simp)
      rw [missing] at told
      cases told

private theorem listedSources_sublist (database : CommandDatabase) :
    database.listedSources.Sublist (database.entries.map Prod.fst) :=
  List.filter_sublist

private theorem isSome_get?_of_listed {database : CommandDatabase} {file : Path}
    (indexed : Indexed database.entries) (listed : file ∈ database.listedSources) :
    (database.get? file).isSome = true := by
  have member := (listedSources_sublist database).subset listed
  obtain ⟨entry, inside, rfl⟩ := List.mem_map.mp member
  rw [get?, indexed.normal entry inside]
  exact isSome_lookup?_iff.mpr member

/-- If all commands can be read, the database is made of the first for each file, and otherwise the
first that cannot be read is the error. -/
theorem first_commands_are_listed (commands : List CompileCommand) :
    (∀ text, commandsOfText? text = some commands → ofText text = ofCommands commands) ∧
    ((∃ loaded, ofCommands commands = .ok loaded) ↔
      ∀ command ∈ commands, command.words?.isSome = true) ∧
    (∀ error, ofCommands commands = .error error ↔ Refused commands error) ∧
    ∀ loaded, ofCommands commands = .ok loaded → ∀ defaults,
      let database := loaded.withDefaultArguments defaults
      FirstOf commands database ∧
      (∀ path other : Path, path.normalize = other.normalize →
        database.get? path = database.get? other) ∧
      database.listedSources =
        (commands.map key).eraseDups.filter (fun file => (FileRole.ofPath file).isSource) ∧
      database.listedSources.Nodup ∧
      (∀ file ∈ database.listedSources, (database.get? file).isSome = true) ∧
      ∀ path, database.compileArguments path = (database.get? path).getD defaults := by
  refine ⟨?_, exists_ofCommands_eq_ok_iff, fun _ => ofCommands_eq_error_iff, ?_⟩
  · intro text told
    rw [ofText, told]
  · intro loaded read defaults database
    obtain ⟨files, arguments⟩ := firstOf_ofCommands read
    have indexed : Indexed database.entries :=
      show Indexed loaded.entries from indexed_ofCommands read
    refine ⟨⟨files, arguments⟩, ?_, ?_, ?_, ?_, fun _ => rfl⟩
    · intro path other same
      rw [get?, get?, same]
    · exact congrArg (List.filter _) files
    · exact indexed.distinct.sublist (listedSources_sublist database)
    · exact fun file listed => isSome_get?_of_listed indexed listed

theorem repeated_file_keeps_first_command :
    let commands : List CompileCommand := [
      ⟨⟨"/p/b"⟩, ⟨"../a.c"⟩, some ["cc", "-DA"], some "cc 'open"⟩,
      ⟨⟨"/p"⟩, ⟨"h.h"⟩, none, some "cc -DH"⟩,
      ⟨⟨"/p"⟩, ⟨"./a.c"⟩, some ["cc", "-DB"], none⟩]
    let bare : CompileCommand := ⟨⟨"/p"⟩, ⟨"a.c"⟩, none, none⟩
    (∀ command ∈ commands, command.words?.isSome = true) ∧
    (∃ loaded, ofCommands commands = .ok loaded ∧
      (loaded.withDefaultArguments ["-DX"]).listedSources = [⟨"/p/a.c"⟩] ∧
      (loaded.withDefaultArguments ["-DX"]).get? ⟨"/p//a.c"⟩ = some ["-DA"] ∧
      (loaded.withDefaultArguments ["-DX"]).get? ⟨"/p/h.h"⟩ = some ["-DH"] ∧
      (loaded.withDefaultArguments ["-DX"]).compileArguments ⟨"/p/q.c"⟩ = ["-DX"]) ∧
    ofCommands (commands ++ [bare]) = .error (.missingCommand ⟨"/p/a.c"⟩) := by
  intro commands bare
  have readable : ∀ command ∈ commands, command.words?.isSome = true := by decide +kernel
  obtain ⟨_, loads, _, describes⟩ := first_commands_are_listed commands
  obtain ⟨loaded, read⟩ := loads.mpr readable
  obtain ⟨first, _, sources, _, _, defaults⟩ := describes loaded read ["-DX"]
  have missing : Refused (commands ++ [bare]) (.missingCommand ⟨"/p/a.c"⟩) :=
    ⟨commands, bare, [], rfl, readable, rfl, by decide +kernel⟩
  refine ⟨readable, ⟨loaded, read, ?_, ?_, ?_, ?_⟩,
    ((first_commands_are_listed (commands ++ [bare])).2.2.1 _).mpr missing⟩
  · rw [sources]
    decide +kernel
  · rw [first.arguments]
    decide +kernel
  · rw [first.arguments]
    decide +kernel
  · rw [defaults, first.arguments]
    decide +kernel

end CommandDatabase

end UnitCache
