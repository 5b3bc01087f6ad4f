import Mathlib.Data.List.Basic
import UnitCache.CommandDatabase.Arguments
import UnitCache.Include.SearchDirectories
import UnitCache.Proofs.CanonicalPath

/-! How a command line names include directories, and how the arguments that are kept of it do.
Both are read from left to right, and a flag that stands alone takes whatever comes next, so that
one word too many or too few would give every later word another meaning. -/

namespace UnitCache

namespace IncludeFlag

@[simp] theorem split?_append (flag : IncludeFlag) (text : String) :
    split? (flag.spelling ++ text) = some (flag, text) := by
  cases flag <;> simp [split?, strip?, spelling, String.toList_append, List.isPrefixOf?]

@[simp] theorem split?_spelling (flag : IncludeFlag) : split? flag.spelling = some (flag, "") := by
  cases flag <;> decide

theorem eq_of_split? {argument text : String} {flag : IncludeFlag}
    (read : split? argument = some (flag, text)) : argument = flag.spelling ++ text := by
  obtain ⟨other, _, found⟩ := List.exists_of_findSome?_eq_some read
  obtain ⟨rest, stripped, same⟩ := Option.map_eq_some_iff.mp found
  obtain ⟨chars, prefixed, rfl⟩ := Option.map_eq_some_iff.mp stripped
  obtain ⟨rfl, rfl⟩ := Prod.mk.inj same
  apply String.toList_injective
  rw [String.toList_append, String.toList_ofList, List.append_eq_of_isPrefixOf?_eq_some prefixed]

private theorem split?_eq_none_iff {argument : String} :
    split? argument = none ↔
      ∀ (flag : IncludeFlag) (text : String), argument ≠ flag.spelling ++ text := by
  refine ⟨?_, fun plain => ?_⟩
  · rintro unread flag text rfl
    simp at unread
  · cases read : split? argument with
    | none => rfl
    | some found => exact absurd (eq_of_split? read) (plain found.1 found.2)

/-- An include flag is no word that concerns output. -/
theorem append_ne_output (flag : IncludeFlag) (text : String) :
    flag.spelling ++ text ≠ "-c" ∧ flag.spelling ++ text ≠ "-o" ∧
    "-o".toList.isPrefixOf (flag.spelling ++ text).toList = false := by
  have apart : ∀ other : String, other.toList = ['-', 'c'] ∨ other.toList = ['-', 'o'] →
      flag.spelling ++ text ≠ other := by
    rintro other shape rfl
    cases flag <;> simp [spelling, String.toList_append] at shape
  refine ⟨apart "-c" (.inl rfl), apart "-o" (.inr rfl), ?_⟩
  rw [String.toList_append]
  cases flag <;> rfl

end IncludeFlag

namespace SearchDirectories

section Equations

variable {argument text : String} {flag : IncludeFlag} (base : Path)

theorem ofArguments_other (plain : IncludeFlag.split? argument = none) (rest : List String) :
    ofArguments base (argument :: rest) = ofArguments base rest := by
  rw [ofArguments, plain]

theorem ofArguments_separate (alone : IncludeFlag.split? argument = some (flag, ""))
    (operand : String) (rest : List String) :
    ofArguments base (argument :: operand :: rest) =
      (ofArguments base rest).cons flag (base.join ⟨operand⟩).normalize := by
  rw [ofArguments, alone]
  rfl

theorem ofArguments_lastFlag (alone : IncludeFlag.split? argument = some (flag, "")) :
    ofArguments base [argument] = empty := by
  rw [ofArguments, alone]
  rfl

theorem ofArguments_joined (joined : IncludeFlag.split? argument = some (flag, text))
    (written : text ≠ "") (rest : List String) :
    ofArguments base (argument :: rest) =
      (ofArguments base rest).cons flag (base.join ⟨text⟩).normalize := by
  rw [ofArguments, joined]
  exact if_neg written

end Equations

def append (first last : SearchDirectories) : SearchDirectories :=
  ⟨first.quote ++ last.quote, first.user ++ last.user, first.system ++ last.system⟩

private theorem append_empty (search : SearchDirectories) : search.append empty = search := by
  simp [append, empty]

private theorem cons_append (flag : IncludeFlag) (directory : Path)
    (first last : SearchDirectories) :
    (first.cons flag directory).append last = (first.append last).cons flag directory := by
  cases flag <;> rfl

/-- Whether the arguments end in an include flag that takes whatever is added next as its
directory. -/
def awaitsDirectory : List String → Bool
  | [] => false
  | argument :: rest =>
    match IncludeFlag.split? argument with
    | none => awaitsDirectory rest
    | some (_, text) =>
      if text = "" then
        match rest with
        | [] => true
        | _ :: rest => awaitsDirectory rest
      else awaitsDirectory rest

variable {first : List String}

/-- What is added to complete arguments is read by itself. -/
theorem ofArguments_append (complete : awaitsDirectory first = false) (base : Path)
    (last : List String) :
    ofArguments base (first ++ last) = (ofArguments base first).append (ofArguments base last) := by
  fun_induction awaitsDirectory first with
  | case1 => rfl
  | case2 argument rest plain ih =>
    rw [List.cons_append, ofArguments_other base plain, ofArguments_other base plain, ih complete]
  | case3 => cases complete
  | case4 argument flag operand rest alone ih =>
    rw [List.cons_append, List.cons_append, ofArguments_separate base alone,
      ofArguments_separate base alone, cons_append, ih complete]
  | case5 argument rest flag text joined written ih =>
    rw [List.cons_append, ofArguments_joined base joined written,
      ofArguments_joined base joined written, cons_append, ih complete]

private theorem ofArguments_append_awaited (awaits : awaitsDirectory first = true) (base : Path)
    (operand : String) :
    ∃ flag, ofArguments base (first ++ [operand]) =
      (ofArguments base first).append (empty.cons flag (base.join ⟨operand⟩).normalize) := by
  fun_induction awaitsDirectory first with
  | case1 => cases awaits
  | case2 argument rest plain ih =>
    obtain ⟨last, found⟩ := ih awaits
    refine ⟨last, ?_⟩
    rw [List.cons_append, ofArguments_other base plain, ofArguments_other base plain, found]
  | case3 argument flag alone =>
    refine ⟨flag, ?_⟩
    rw [List.singleton_append, ofArguments_separate base alone, ofArguments_lastFlag base alone]
    rfl
  | case4 argument flag directory rest alone ih =>
    obtain ⟨last, found⟩ := ih awaits
    refine ⟨last, ?_⟩
    rw [List.cons_append, List.cons_append, ofArguments_separate base alone,
      ofArguments_separate base alone, cons_append, found]
  | case5 argument rest flag text joined written ih =>
    obtain ⟨last, found⟩ := ih awaits
    refine ⟨last, ?_⟩
    rw [List.cons_append, ofArguments_joined base joined written,
      ofArguments_joined base joined written, cons_append, found]

private theorem append_cons_ne (search : SearchDirectories) (flag : IncludeFlag)
    (directory : Path) :
    search.append (empty.cons flag directory) ≠ search := by
  intro same
  cases flag with
  | quote => exact absurd (congrArg quote same) (by simp [append, cons])
  | user => exact absurd (congrArg user same) (by simp [append, cons])
  | system => exact absurd (congrArg system same) (by simp [append, cons])

/-- A word that begins with no include flag names a directory exactly if it is awaited. -/
theorem ofArguments_concat_iff {argument : String} (plain : IncludeFlag.split? argument = none)
    (base : Path) :
    ofArguments base (first ++ [argument]) = ofArguments base first ↔
      awaitsDirectory first = false := by
  refine ⟨fun same => ?_, fun complete => ?_⟩
  · cases awaits : awaitsDirectory first with
    | false => rfl
    | true =>
      obtain ⟨flag, found⟩ := ofArguments_append_awaited awaits base argument
      exact absurd (found.symm.trans same) (append_cons_ne _ _ _)
  · rw [ofArguments_append complete, ofArguments_other base plain, ofArguments, append_empty]

end SearchDirectories

/-- The include directories that the words after the compiler's name, seen from the directory the
compiler runs in. A word that names the output takes the next one with it, and so does an include
flag that stands alone. -/
inductive CommandDatabase.Names (directory : Path) : List String → SearchDirectories → Prop where
  | nothing : Names directory [] .empty
  | output {rest search} (operand : String) (later : Names directory rest search) :
      Names directory ("-o" :: operand :: rest) search
  | lastOutput : Names directory ["-o"] .empty
  | separate {rest search} (flag : IncludeFlag) (operand : String)
      (later : Names directory rest search) :
      Names directory (flag.spelling :: operand :: rest)
        (search.cons flag (directory.join ⟨operand⟩).normalize)
  | lastFlag (flag : IncludeFlag) : Names directory [flag.spelling] .empty
  | joined {rest search} (flag : IncludeFlag) (text : String) (written : text ≠ "")
      (later : Names directory rest search) :
      Names directory ((flag.spelling ++ text) :: rest)
        (search.cons flag (directory.join ⟨text⟩).normalize)
  | other {argument rest search} (keeps : argument ≠ "-o")
      (plain : ∀ (flag : IncludeFlag) (text : String), argument ≠ flag.spelling ++ text)
      (later : Names directory rest search) : Names directory (argument :: rest) search

namespace CommandDatabase
open SearchDirectories Proofs.CanonicalPath

variable {directory : Path} {words : List String} {search : SearchDirectories}

/-- Every command line can be read. -/
theorem exists_names (directory : Path) : ∀ words, ∃ search, Names directory words search
  | [] => ⟨_, .nothing⟩
  | argument :: rest => by
    by_cases output : argument = "-o"
    · subst output
      match rest with
      | [] => exact ⟨_, .lastOutput⟩
      | operand :: rest =>
        obtain ⟨search, later⟩ := exists_names directory rest
        exact ⟨search, .output operand later⟩
    cases read : IncludeFlag.split? argument with
    | none =>
      obtain ⟨search, later⟩ := exists_names directory rest
      exact ⟨search, .other output (IncludeFlag.split?_eq_none_iff.mp read) later⟩
    | some found =>
      obtain ⟨flag, text⟩ := found
      obtain rfl := IncludeFlag.eq_of_split? read
      by_cases written : text = ""
      · subst written
        rw [String.append_empty]
        match rest with
        | [] => exact ⟨_, .lastFlag flag⟩
        | operand :: rest =>
          obtain ⟨search, later⟩ := exists_names directory rest
          exact ⟨_, .separate flag operand later⟩
      · obtain ⟨search, later⟩ := exists_names directory rest
        exact ⟨_, .joined flag text written later⟩

/-- A directory that has been made absolute is the same from everywhere. -/
theorem join_absoluteDirectory (absolute : directory.isAbsolute = true) (base : Path)
    (text : String) :
    (base.join ⟨absoluteDirectory directory text⟩).normalize =
      (directory.join ⟨text⟩).normalize := by
  have rooted := isAbsolute_normalize (@isAbsolute_join directory ⟨text⟩ absolute)
  have placed : base.join (directory.join ⟨text⟩).normalize = (directory.join ⟨text⟩).normalize :=
    if_pos rooted
  exact (congrArg Path.normalize placed).trans (normalize_normalize _)

theorem absoluteDirectory_ne_empty (absolute : directory.isAbsolute = true) (text : String) :
    absoluteDirectory directory text ≠ "" :=
  text_ne_empty (isAbsolute_normalize (isAbsolute_join absolute))

/-- A word that is of no use to a parser. -/
def isDropped (directory file : Path) (word : String) : Bool :=
  word = "-c" || "-o".toList.isPrefixOf word.toList || spellsInput directory file word

section Words

variable (directory file : Path) (flag : IncludeFlag) (operand : String) (rest : List String)

theorem keptArguments_joined {text : String} (written : text ≠ "") :
    keptArguments directory file ((flag.spelling ++ text) :: rest) =
      (flag.spelling ++ absoluteDirectory directory text) :: keptArguments directory file rest := by
  obtain ⟨notCompile, notOutput, unjoined⟩ := flag.append_ne_output text
  rw [keptArguments.eq_def]
  simp only [notCompile, notOutput, unjoined, Bool.false_eq_true, if_false,
    IncludeFlag.split?_append, written]

theorem keptArguments_separate :
    keptArguments directory file (flag.spelling :: operand :: rest) =
      flag.spelling :: absoluteDirectory directory operand ::
        keptArguments directory file rest := by
  cases flag <;> rfl

theorem keptArguments_lastFlag :
    keptArguments directory file [flag.spelling] = [flag.spelling] := by
  cases flag <;> rfl

/-- Any other word is kept or dropped as it stands, and nothing after it is. -/
theorem keptArguments_other {word : String} (keeps : word ≠ "-o")
    (plain : IncludeFlag.split? word = none) :
    keptArguments directory file (word :: rest) =
      if isDropped directory file word then keptArguments directory file rest
      else word :: keptArguments directory file rest := by
  rw [keptArguments.eq_def, isDropped]
  simp only [keeps, plain, if_false, Bool.or_eq_true, decide_eq_true_eq, ite_or]

end Words

/-- The arguments kept of a command line name the directories that the command line names, from
wherever they are read. -/
theorem Names.eq_ofArguments (names : Names directory words search)
    (absolute : directory.isAbsolute = true) (base file : Path) :
    search = ofArguments base (keptArguments directory file words) := by
  induction names with
  | nothing => rfl
  | output _ _ ih => exact ih
  | lastOutput => rfl
  | separate flag operand _ ih =>
    rw [keptArguments_separate, ofArguments_separate base flag.split?_spelling,
      join_absoluteDirectory absolute, ← ih]
  | lastFlag flag =>
    rw [keptArguments_lastFlag, ofArguments_lastFlag base flag.split?_spelling]
  | joined flag text written _ ih =>
    rw [keptArguments_joined _ _ _ _ written, ofArguments_joined base (flag.split?_append _)
      (absoluteDirectory_ne_empty absolute text), join_absoluteDirectory absolute, ← ih]
  | @other argument rest _ keeps plain _ ih =>
    have unsplit := IncludeFlag.split?_eq_none_iff.mpr plain
    rw [keptArguments_other directory file rest keeps unsplit]
    split
    · exact ih
    · rw [ofArguments_other base unsplit, ih]

/-- The arguments kept of a command line name exactly the directories that the command line names,
in the same order, and name them from everywhere. -/
theorem parserArguments_name_directories (absolute : directory.isAbsolute = true)
    (words : List String) (base file : Path) (search : SearchDirectories) :
    Names directory words.tail search ↔
      search = ofArguments base (parserArguments words directory file) := by
  refine ⟨fun names => names.eq_ofArguments absolute base file, ?_⟩
  rintro rfl
  obtain ⟨named, names⟩ := exists_names directory words.tail
  have same := names.eq_ofArguments absolute base file
  rwa [parserArguments, ← same]

theorem operands_are_no_flags :
    (Path.mk "/b").isAbsolute = true ∧
    ofArguments ⟨"/elsewhere"⟩ (parserArguments ["cc", "-o", "-I", "-I", "-o", "-iquote", "-Ix",
      "-isystem../s", "a.c", "-I"] ⟨"/b"⟩ ⟨"/b/a.c"⟩) = ⟨[⟨"/b/-Ix"⟩], [⟨"/b/-o"⟩], [⟨"/s"⟩]⟩ := by
  refine ⟨by decide, ((parserArguments_name_directories (by decide) _ _ _ _).mp ?_).symm⟩
  have file : ∀ (flag : IncludeFlag) (text : String), "a.c" ≠ flag.spelling ++ text :=
    IncludeFlag.split?_eq_none_iff.mp (by decide)
  exact .output "-I" <| .separate .user "-o" <| .separate .quote "-Ix" <|
    .joined .system "../s" (by decide) <| .other (by decide) file <| .lastFlag .user

end CommandDatabase

end UnitCache
