import UnitCache.CommandDatabase.Basic
import UnitCache.Proofs.IncludeArguments
import UnitCache.Proofs.LexicalPlace

/-! Command lines told argument by argument. What is kept of a command line is kept of each of its
arguments by itself, as long as every include directory that is joined to its flag stays there: a
flag without one takes the next word, and the reading of all later words is off by one. -/

namespace UnitCache

/-- One argument of a command line, with the operand that it takes. -/
inductive Argument where
  | joined (flag : IncludeFlag) (directory : String)
  | separate (flag : IncludeFlag) (directory : String)
  /-- An include flag that ends the line and has no directory. -/
  | unfinished (flag : IncludeFlag)
  | output (target : Option String)
  | other (word : String)
deriving DecidableEq

namespace Argument
open CommandDatabase

def words : Argument → List String
  | .joined flag directory => [flag.spelling ++ directory]
  | .separate flag directory => [flag.spelling, directory]
  | .unfinished flag => [flag.spelling]
  | .output target => "-o" :: target.toList
  | .other word => [word]

/-- Reads a line from left to right. An include flag that stands alone takes the next word, and so
does `-o` if `outputs` says so. -/
def read (outputs : Bool) : List String → List Argument
  | [] => []
  | word :: rest =>
    match IncludeFlag.split? word with
    | some (flag, text) =>
      if text = "" then
        match rest with
        | [] => [.unfinished flag]
        | directory :: rest => .separate flag directory :: read outputs rest
      else .joined flag text :: read outputs rest
    | none =>
      if outputs && word = "-o" then
        match rest with
        | [] => [.output none]
        | target :: rest => .output (some target) :: read outputs rest
      else .other word :: read outputs rest

section Equations

variable (outputs : Bool) (flag : IncludeFlag) (rest : List String)

private theorem read_joined {text : String} (written : text ≠ "") :
    read outputs ((flag.spelling ++ text) :: rest) = .joined flag text :: read outputs rest := by
  rw [read.eq_def]
  simp only [IncludeFlag.split?_append, written, if_false]

private theorem read_separate (directory : String) :
    read outputs (flag.spelling :: directory :: rest) =
      .separate flag directory :: read outputs rest := by
  rw [read.eq_def]
  simp only [IncludeFlag.split?_spelling, if_true]

private theorem read_unfinished : read outputs [flag.spelling] = [.unfinished flag] := by
  rw [read.eq_def]
  simp only [IncludeFlag.split?_spelling, if_true]

private theorem read_other {word : String} (plain : IncludeFlag.split? word = none)
    (keeps : word ≠ "-o") :
    read outputs (word :: rest) = .other word :: read outputs rest := by
  rw [read.eq_def]
  simp only [plain, keeps, decide_false, Bool.and_false, Bool.false_eq_true, if_false]

end Equations

theorem flatMap_words_read (outputs : Bool) (line : List String) :
    (read outputs line).flatMap words = line := by
  fun_induction read outputs line with
  | case1 => rfl
  | case2 word flag alone =>
    obtain rfl := IncludeFlag.eq_of_split? alone
    simp [words]
  | case3 word flag directory rest alone ih =>
    obtain rfl := IncludeFlag.eq_of_split? alone
    rw [List.flatMap_cons, ih, words, String.append_empty]
    rfl
  | case4 word rest flag text joined written ih =>
    obtain rfl := IncludeFlag.eq_of_split? joined
    rw [List.flatMap_cons, ih]
    rfl
  | case5 word plain output =>
    have named : word = "-o" := by simp_all
    rw [named]
    rfl
  | case6 word plain output target rest ih =>
    have named : word = "-o" := by simp_all
    rw [List.flatMap_cons, ih, named]
    rfl
  | case7 word rest plain keeps ih =>
    rw [List.flatMap_cons, ih]
    rfl

theorem ne_empty_of_mem_read {outputs : Bool} {line : List String} {flag : IncludeFlag}
    {directory : String} (member : .joined flag directory ∈ read outputs line) :
    directory ≠ "" := by
  fun_induction read outputs line with
  | case1 => cases member
  | case2 => simp at member
  | case3 _ _ _ _ _ ih => exact ih (by simpa using member)
  | case4 word rest other text joined written ih =>
    rcases List.mem_cons.mp member with same | later
    · cases same
      exact written
    · exact ih later
  | case5 => simp at member
  | case6 _ _ _ _ _ ih => exact ih (by simpa using member)
  | case7 _ _ _ _ ih => exact ih (by simpa using member)

def directory? : Argument → Option String
  | .joined _ directory | .separate _ directory => some directory
  | _ => none

def naming (line : List Argument) : List Argument :=
  line.filter fun argument => argument.directory?.isSome

def plain? : Argument → Option String
  | .output _ => some "-o"
  | .other word => some word
  | _ => none

/-- The argument with its include directory as seen from the one the compiler ran in. -/
def placed (directory : Path) : Argument → Argument
  | .joined flag text => .joined flag (absoluteDirectory directory text)
  | .separate flag text => .separate flag (absoluteDirectory directory text)
  | argument => argument

def isKept (directory file : Path) : Argument → Bool
  | .output _ => false
  | .other word => !isDropped directory file word
  | _ => true

variable (directory file : Path) (argument : Argument)

@[simp] theorem directory?_placed : (argument.placed directory).directory? =
    argument.directory?.map (absoluteDirectory directory) := by
  cases argument <;> rfl

@[simp] theorem isKept_placed :
    (argument.placed directory).isKept directory file = argument.isKept directory file := by
  cases argument <;> rfl

@[simp] theorem plain?_placed : (argument.placed directory).plain? = argument.plain? := by
  cases argument <;> rfl

private theorem isKept_of_directory? {argument : Argument}
    (names : argument.directory?.isSome = true) :
    argument.isKept directory file = true := by
  cases argument with
  | joined => rfl
  | separate => rfl
  | unfinished => cases names
  | output => cases names
  | other => cases names

end Argument

namespace CommandDatabase
open Argument Proofs.CanonicalPath

variable {directory file : Path}

/-- A directory is lost where it leads back to where the path begins. -/
theorem absoluteDirectory_eq_empty_iff {text : String} :
    absoluteDirectory directory text = "" ↔
      (directory.join ⟨text⟩).place = .relative 0 [] := by
  have start : (⟨""⟩ : Path).normalize = ⟨""⟩ := by decide
  have place : (⟨""⟩ : Path).place = .relative 0 [] := by decide
  rw [← place, ← Path.normalize_eq_iff, start, absoluteDirectory]
  exact ⟨fun empty => congrArg Path.mk empty, fun same => congrArg Path.text same⟩

/-- No directory that is joined to its flag leads back to where the path begins. -/
def StaysJoined (directory : Path) (line : List Argument) : Prop :=
  ∀ flag text, .joined flag text ∈ line → (directory.join ⟨text⟩).place ≠ .relative 0 []

private theorem staysJoined_of_isAbsolute (absolute : directory.isAbsolute = true)
    (line : List Argument) : StaysJoined directory line := by
  intro flag text _
  rw [ne_eq, ← absoluteDirectory_eq_empty_iff]
  exact absoluteDirectory_ne_empty absolute text

theorem read_keptArguments {line : List String} (stays : StaysJoined directory (read true line))
    (outputs : Bool) :
    read outputs (keptArguments directory file line) =
      ((read true line).filter (isKept directory file)).map (placed directory) := by
  fun_induction read true line with
  | case1 => rfl
  | case2 word flag alone =>
    obtain rfl := IncludeFlag.eq_of_split? alone
    rw [String.append_empty, keptArguments_lastFlag, read_unfinished]
    rfl
  | case3 word flag text rest alone ih =>
    obtain rfl := IncludeFlag.eq_of_split? alone
    have later := ih fun flag text member => stays flag text (List.mem_cons_of_mem _ member)
    rw [String.append_empty, keptArguments_separate, read_separate, later]
    rfl
  | case4 word rest flag text joined written ih =>
    obtain rfl := IncludeFlag.eq_of_split? joined
    have later := ih fun flag text member => stays flag text (List.mem_cons_of_mem _ member)
    have here : absoluteDirectory directory text ≠ "" :=
      mt absoluteDirectory_eq_empty_iff.mp (stays flag text List.mem_cons_self)
    rw [keptArguments_joined _ _ _ _ written, read_joined _ _ _ here, later]
    rfl
  | case5 word plain output =>
    have named : word = "-o" := by simp_all
    rw [named]
    rfl
  | case6 word plain output target rest ih =>
    have named : word = "-o" := by simp_all
    have later := ih fun flag text member => stays flag text (List.mem_cons_of_mem _ member)
    rw [named, List.filter_cons_of_neg (by simp [isKept])]
    exact later
  | case7 word rest plain output ih =>
    have other : word ≠ "-o" := by simpa using output
    have later := ih fun flag text member => stays flag text (List.mem_cons_of_mem _ member)
    rw [keptArguments_other _ _ _ other plain]
    cases drops : isDropped directory file word with
    | true => simpa [isKept, drops] using later
    | false => simp [isKept, drops, placed, read_other outputs _ plain other, later]

private theorem placed_placed (absolute : directory.isAbsolute = true) (argument : Argument) :
    (argument.placed directory).placed directory = argument.placed directory := by
  have twice : ∀ text, absoluteDirectory directory (absoluteDirectory directory text) =
      absoluteDirectory directory text :=
    fun text => congrArg Path.text (join_absoluteDirectory absolute directory text)
  cases argument <;> simp [placed, twice]

private theorem isDropped_iff (normal : file.normalize = file) {word : String} :
    isDropped directory file word = true ↔ word = "-c" ∨ "-o".toList <+: word.toList ∨
      word.toList.head? ≠ some '-' ∧ (directory.join ⟨word⟩).normalize = file := by
  have same : (directory.join ⟨word⟩).normalize.Same file ↔
      (directory.join ⟨word⟩).normalize = file :=
    ⟨Path.eq_of_same (normalize_normalize _) normal, fun equal => congrArg Path.components equal⟩
  simp only [isDropped, spellsInput, Bool.or_eq_true, Bool.and_eq_true, decide_eq_true_eq, same,
    List.isPrefixOf_iff_prefix, or_assoc]

theorem keptArguments_keptArguments (absolute : directory.isAbsolute = true)
    (line : List String) :
    keptArguments directory file (keptArguments directory file line) =
      keptArguments directory file line := by
  have stays := staysJoined_of_isAbsolute absolute
  have reading := @read_keptArguments directory file line (stays _) true
  have again :=
    @read_keptArguments directory file (keptArguments directory file line) (stays _) true
  have same : read true (keptArguments directory file (keptArguments directory file line)) =
      read true (keptArguments directory file line) := by
    rw [again, reading, List.filter_map, List.map_map]
    simp only [Function.comp_def, isKept_placed, placed_placed absolute, List.filter_filter,
      Bool.and_self]
  rw [← flatMap_words_read true (keptArguments directory file (keptArguments directory file line)),
    same, flatMap_words_read]

theorem filterMap_plain?_kept (line : List Argument) :
    ((line.filter (isKept directory file)).map (placed directory)).filterMap plain? =
      (line.filterMap plain?).filter fun word => !isDropped directory file word := by
  have unplaced : plain? ∘ placed directory = plain? := funext (plain?_placed directory)
  rw [List.filterMap_map, unplaced, List.filterMap_filter, List.filter_filterMap]
  refine List.filterMap_congr fun argument _ => ?_
  cases argument with
  | joined => rfl
  | separate => rfl
  | unfinished => rfl
  | output =>
    have dropped : isDropped directory file "-o" = true := rfl
    simp [isKept, plain?, Option.filter, dropped]
  | other word =>
    cases drops : isDropped directory file word <;> simp [isKept, plain?, Option.filter, drops]

/-- What is kept of a command line is kept when it is read again, names every include directory by
its normal form, and has all other words that are of use to a parser, and no others. -/
theorem kept_arguments_are_final (absolute : directory.isAbsolute = true)
    (normal : file.normalize = file) (line : List String) :
    let given := read true line.tail
    let kept := parserArguments line directory file
    (∀ compiler, parserArguments (compiler :: kept) directory file = kept) ∧
    (∀ argument ∈ read false kept, ∀ text, argument.directory? = some text →
      IsCanonical ⟨text⟩) ∧
    (read false kept).filterMap plain? =
      (given.filterMap plain?).filter fun word => ¬(word = "-c" ∨ "-o".toList <+: word.toList ∨
        word.toList.head? ≠ some '-' ∧ (directory.join ⟨word⟩).normalize = file) := by
  intro given kept
  have reading : read false kept = (given.filter (isKept directory file)).map (placed directory) :=
    read_keptArguments (staysJoined_of_isAbsolute absolute given) false
  refine ⟨fun _ => keptArguments_keptArguments absolute line.tail, ?_, ?_⟩
  · intro argument member text named
    rw [reading] at member
    obtain ⟨original, _, rfl⟩ := List.mem_map.mp member
    obtain ⟨written, _, rfl⟩ := Option.map_eq_some_iff.mp (directory?_placed .. ▸ named)
    exact ⟨isAbsolute_normalize (isAbsolute_join absolute), normalize_normalize _⟩
  · rw [reading, filterMap_plain?_kept]
    refine List.filter_congr fun word _ => ?_
    rw [Bool.eq_iff_iff, Bool.not_eq_true', ← Bool.not_eq_true, isDropped_iff normal,
      decide_eq_true_eq]

theorem kept_arguments_of_misleading_line :
    let directory : Path := ⟨"/b"⟩
    let file : Path := ⟨"/b/a.c"⟩
    let line := ["cc", "-o", "-c", "-I", "a.c", "./a.c", "-I../x", "-c", "-ob", "b.c", "-isystem"]
    directory.isAbsolute = true ∧ file.normalize = file ∧
    parserArguments line directory file = ["-I", "/b/a.c", "-I/x", "b.c", "-isystem"] ∧
    parserArguments ("clang" :: parserArguments line directory file) directory file =
      parserArguments line directory file ∧
    (read false (parserArguments line directory file)).filterMap plain? = ["b.c"] := by
  intro directory file line
  have absolute : directory.isAbsolute = true := by decide
  have normal : file.normalize = file := by decide
  obtain ⟨final, _, plain⟩ := kept_arguments_are_final absolute normal line
  exact ⟨absolute, normal, by decide +kernel, final "clang", plain.trans (by decide +kernel)⟩

end CommandDatabase

namespace SearchDirectories
open Argument CommandDatabase

/-- The directories that the arguments of a line name, as seen from `base`. -/
def ofReading (base : Path) (line : List Argument) : SearchDirectories :=
  line.foldr (fun argument search =>
    match argument with
    | .joined flag text | .separate flag text => search.cons flag (base.join ⟨text⟩).normalize
    | _ => search) empty

theorem ofArguments_eq_ofReading (base : Path) (line : List String) :
    ofArguments base line = ofReading base (read false line) := by
  fun_induction read false line with
  | case1 => rfl
  | case2 word flag alone => exact ofArguments_lastFlag base alone
  | case3 word flag directory rest alone ih =>
    rw [ofArguments_separate base alone, ih]
    rfl
  | case4 word rest flag text joined written ih =>
    rw [ofArguments_joined base joined written, ih]
    rfl
  | case5 word plain output => cases output
  | case6 word plain output target rest => cases output
  | case7 word rest plain _ ih =>
    rw [ofArguments_other base plain, ih]
    rfl

end SearchDirectories

namespace CommandDatabase
open Argument

variable {directory file : Path}

theorem naming_kept (line : List Argument) :
    naming ((line.filter (isKept directory file)).map (placed directory)) =
      (naming line).map (placed directory) := by
  rw [naming, naming, List.filter_map, List.filter_filter]
  congr 1
  refine List.filter_congr fun argument _ => ?_
  rw [Function.comp_apply, directory?_placed, Option.isSome_map]
  cases names : argument.directory?.isSome with
  | true => rw [isKept_of_directory? directory file names, Bool.and_self]
  | false => rw [Bool.false_and]

theorem naming_keptArguments_iff {line : List String} :
    naming (read false (keptArguments directory file line)) =
        (naming (read true line)).map (placed directory) ↔
      StaysJoined directory (read true line) := by
  constructor
  · intro same flag text member lost
    have named : .joined flag text ∈ naming (read true line) := List.mem_filter.mpr ⟨member, rfl⟩
    have kept : .joined flag (absoluteDirectory directory text) ∈
        naming (read false (keptArguments directory file line)) :=
      same ▸ List.mem_map_of_mem named
    exact ne_empty_of_mem_read (List.mem_filter.mp kept).1 (absoluteDirectory_eq_empty_iff.mpr lost)
  · intro stays
    rw [read_keptArguments stays, naming_kept]

private theorem joined_mem_keptArguments {line : List String}
    (stays : StaysJoined directory (read true line)) {flag : IncludeFlag} {text : String}
    (member : .joined flag text ∈ read true line) :
    absoluteDirectory directory text ≠ "" ∧ .joined flag (absoluteDirectory directory text) ∈
      read false (keptArguments directory file line) := by
  rw [read_keptArguments stays]
  refine ⟨mt absoluteDirectory_eq_empty_iff.mp (stays flag text member), ?_⟩
  exact List.mem_map.mpr ⟨_, List.mem_filter.mpr ⟨member, rfl⟩, rfl⟩

private theorem separate_of_mem_keptArguments {line : List String}
    (stays : StaysJoined directory (read true line)) {flag : IncludeFlag} {operand : String}
    (member : .separate flag operand ∈ read false (keptArguments directory file line)) :
    ∃ written, .separate flag written ∈ read true line ∧
      operand = absoluteDirectory directory written := by
  rw [read_keptArguments stays] at member
  obtain ⟨original, inside, form⟩ := List.mem_map.mp member
  cases original with
  | separate other written =>
    cases form
    exact ⟨written, (List.mem_filter.mp inside).1, rfl⟩
  | joined => cases form
  | unfinished => cases form
  | output => cases form
  | other => cases form

/-- The include directories of a command line are named by what is kept of it, each by an argument
of the same form, exactly if none of those that are joined to their flags leads back to where the
path begins. If the compiler ran in an absolute directory, none does. -/
theorem joined_flags_stay_joined_iff (directory file : Path) (line : List String) :
    let given := read true line.tail
    let kept := parserArguments line directory file
    (naming (read false kept) = (naming given).map (placed directory) ↔
      StaysJoined directory given) ∧
    (StaysJoined directory given →
      (∀ flag text, .joined flag text ∈ given → absoluteDirectory directory text ≠ "" ∧
        .joined flag (absoluteDirectory directory text) ∈ read false kept) ∧
      ∀ flag operand, .separate flag operand ∈ read false kept →
        ∃ written, .separate flag written ∈ given ∧
          operand = absoluteDirectory directory written) ∧
    (directory.isAbsolute = true → StaysJoined directory given) ∧
    ∀ base, SearchDirectories.ofArguments base kept =
      SearchDirectories.ofReading base (read false kept) := by
  intro given kept
  refine ⟨naming_keptArguments_iff, fun stays => ⟨?_, ?_⟩,
    fun absolute => staysJoined_of_isAbsolute absolute given,
    fun base => SearchDirectories.ofArguments_eq_ofReading base kept⟩
  · intro flag text member
    exact joined_mem_keptArguments stays member
  · intro flag operand member
    exact separate_of_mem_keptArguments stays member

theorem absolute_directory_keeps_flag_joined :
    let line := ["cc", "-I..", "-I", "..", "-DX"]
    StaysJoined ⟨"/a"⟩ (read true line.tail) ∧
    naming (read false (parserArguments line ⟨"/a"⟩ ⟨"/p/a.c"⟩)) =
      [.joined .user "/", .separate .user "/"] := by
  intro line
  obtain ⟨exact, _, always, _⟩ := joined_flags_stay_joined_iff ⟨"/a"⟩ ⟨"/p/a.c"⟩ line
  have stays : StaysJoined ⟨"/a"⟩ (read true line.tail) := always (by decide)
  exact ⟨stays, (exact.mpr stays).trans (by decide +kernel)⟩

theorem lost_directory_takes_next_word :
    let text := "[[\"a\", \"/p/a.c\", [\"cc\", \"-I..\", \"-DX\", \"/p/a.c\"]]]"
    let kept := ["-I", "-DX"]
    (CommandDatabase.ofText text).toOption.map CommandDatabase.entries =
      some [(⟨"/p/a.c"⟩, kept)] ∧
    read true ["-I..", "-DX", "/p/a.c"] = [.joined .user "..", .other "-DX", .other "/p/a.c"] ∧
    read false kept = [.separate .user "-DX"] ∧
    SearchDirectories.ofArguments ⟨"/p"⟩ kept = ⟨[], [⟨"/p/-DX"⟩], []⟩ := by
  decide +kernel

end CommandDatabase

end UnitCache
