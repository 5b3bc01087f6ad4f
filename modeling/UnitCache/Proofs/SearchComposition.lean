import UnitCache.Proofs.ArgumentReading

/-! The directories of a line of arguments, put together from those of its parts. A line is read from
left to right and a flag may take the next word with it, so two lines that are written one after the
other are read one after the other only if the first leaves no flag without its directory. -/

namespace UnitCache

namespace Argument

def namedBy? (flag : IncludeFlag) : Argument → Option String
  | .joined spelled directory | .separate spelled directory =>
    if spelled = flag then some directory else none
  | _ => none

end Argument

namespace SearchDirectories
open Argument

/-- The directories that were named by a flag. -/
def group (search : SearchDirectories) : IncludeFlag → List Path
  | .quote => search.quote
  | .user => search.user
  | .system => search.system

@[simp] theorem group_empty (flag : IncludeFlag) : empty.group flag = [] := by
  cases flag <;> rfl

private theorem group_cons (search : SearchDirectories) (directory : Path)
    (flag spelled : IncludeFlag) :
    (search.cons spelled directory).group flag =
      if spelled = flag then directory :: search.group flag else search.group flag := by
  cases flag <;> cases spelled <;> rfl

@[simp] theorem group_append (first last : SearchDirectories) (flag : IncludeFlag) :
    (first.append last).group flag = first.group flag ++ last.group flag := by
  cases flag <;> rfl

theorem group_ofReading (base : Path) (flag : IncludeFlag) (line : List Argument) :
    (ofReading base line).group flag =
      (line.filterMap (namedBy? flag)).map fun text => (base.join ⟨text⟩).normalize := by
  induction line with
  | nil => exact group_empty flag
  | cons argument rest ih =>
    have named : ∀ spelled text,
        ((ofReading base rest).cons spelled (base.join ⟨text⟩).normalize).group flag =
          ((Argument.joined spelled text :: rest).filterMap (namedBy? flag)).map fun text =>
            (base.join ⟨text⟩).normalize := by
      intro spelled text
      by_cases same : spelled = flag
      · simp [group_cons, namedBy?, same, ih]
      · simp [group_cons, namedBy?, same, ih]
    cases argument with
    | joined spelled text => exact named spelled text
    | separate spelled text => exact named spelled text
    | unfinished => rw [List.filterMap_cons_none rfl]; exact ih
    | output => rw [List.filterMap_cons_none rfl]; exact ih
    | other => rw [List.filterMap_cons_none rfl]; exact ih

theorem awaitsDirectory_eq_false_iff {line : List String} :
    awaitsDirectory line = false ↔ ∀ flag, .unfinished flag ∉ read false line := by
  fun_induction read false line with
  | case1 => simp [awaitsDirectory]
  | case2 word flag alone => simp [awaitsDirectory, alone]
  | case3 word flag directory rest alone ih => simp [awaitsDirectory, alone, ih]
  | case4 word rest flag text joined written ih =>
    have later : awaitsDirectory (word :: rest) = awaitsDirectory rest := by
      rw [awaitsDirectory.eq_def]
      simp only [joined, written, if_false]
    simp [later, ih]
  | case5 word plain output => cases output
  | case6 word plain output => cases output
  | case7 word rest plain _ ih =>
    have later : awaitsDirectory (word :: rest) = awaitsDirectory rest := by
      rw [awaitsDirectory.eq_def]
      simp only [plain]
    simp [later, ih]

/-- A directory may be joined to its flag or stand behind it, unless it is empty. -/
theorem ofArguments_respelled (base : Path) (flag : IncludeFlag) {directory : String}
    (written : directory ≠ "") (rest : List String) :
    ofArguments base (flag.spelling :: directory :: rest) =
      ofArguments base ((flag.spelling ++ directory) :: rest) := by
  rw [ofArguments_separate base flag.split?_spelling,
    ofArguments_joined base (flag.split?_append directory) written]

/-- Every flag has the directories that a line names by it, in their order. What is written after a
line that leaves no flag unfinished adds its own directories behind, whatever it is, and may join a
directory to its flag or not. An include looks in the directory of its file first, if it is quoted,
and then in those of the flags. -/
theorem search_directories_compose (base : Path) (line : List String) :
    let search := ofArguments base line
    (∀ flag, search.group flag = ((read false line).filterMap (namedBy? flag)).map fun text =>
      (base.join ⟨text⟩).normalize) ∧
    ((∀ flag, .unfinished flag ∉ read false line) →
      (∀ later flag, (ofArguments base (line ++ later)).group flag =
        search.group flag ++ (ofArguments base later).group flag) ∧
      ∀ (flag : IncludeFlag) directory later, directory ≠ "" →
        ofArguments base (line ++ flag.spelling :: directory :: later) =
          ofArguments base (line ++ (flag.spelling ++ directory) :: later)) ∧
    ∀ directory,
      search.directories .quoted directory =
        directory :: (search.group .quote ++ search.group .user ++ search.group .system) ∧
      search.directories .angled directory = search.group .user ++ search.group .system := by
  intro search
  refine ⟨?_, fun finished => ?_, fun directory => ⟨rfl, rfl⟩⟩
  · intro flag
    rw [show search = _ from ofArguments_eq_ofReading base line, group_ofReading]
  · have complete := awaitsDirectory_eq_false_iff.mpr finished
    refine ⟨?_, ?_⟩
    · intro later flag
      rw [ofArguments_append complete, group_append]
    · intro flag directory later written
      rw [ofArguments_append complete, ofArguments_append complete,
        ofArguments_respelled base flag written]

theorem operand_like_flag_composes :
    let line := ["-DX", "-I", "-iquote"]
    read false line = [.other "-DX", .separate .user "-iquote"] ∧
    (∀ flag, .unfinished flag ∉ read false line) ∧
    ofArguments ⟨"/p"⟩ (line ++ ["-iquote", "q"]) =
      ofArguments ⟨"/p"⟩ (line ++ ["-iquoteq"]) ∧
    (ofArguments ⟨"/p"⟩ (line ++ ["-iquoteq"])).group .user = [⟨"/p/-iquote"⟩] := by
  intro line
  have reading : read false line = [.other "-DX", .separate .user "-iquote"] := by decide +kernel
  have finished : ∀ flag, .unfinished flag ∉ read false line := by simp [reading]
  obtain ⟨named, composed, _⟩ := search_directories_compose ⟨"/p"⟩ line
  obtain ⟨groups, respelled⟩ := composed finished
  refine ⟨reading, finished, respelled .quote "q" [] (by decide), ?_⟩
  rw [groups, named, reading]
  decide +kernel

example :
    (ofArguments ⟨"/p"⟩ (["-I"] ++ ["-iquote", "q"])).group .user = [⟨"/p/-iquote"⟩] ∧
    (ofArguments ⟨"/p"⟩ ["-iquote", "q"]).group .user = [] := by
  decide +kernel

end SearchDirectories

end UnitCache
