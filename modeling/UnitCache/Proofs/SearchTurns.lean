import UnitCache.Proofs.Reachability

/-! How long the search for included files takes. Each turn takes one file from the queue and lets
the files wait that it found and that can be read. Every path that is found is absolute and
normalized and leads to a buffer or a file, so there are only so many that could ever wait, and none
waits twice. -/

namespace UnitCache
open Proofs.CanonicalPath

theorem Disk.location_of_isFile {disk : Disk} {path : Path} (canonical : IsCanonical path)
    (file : disk.isFile path = true) : ∃ entry ∈ disk.nodes, path = pathOf entry.1 := by
  obtain ⟨names, proper, shape⟩ := path.normalize_shape
  rw [canonical.normal] at shape
  have spelled : path = pathOf names := by
    rcases shape with rooted | ⟨count, relative⟩
    · rw [← canonical.normal, Path.normalize_eq_ofComponents, canonical.normal, rooted]
      rfl
    · obtain ⟨rest, rooted, _⟩ := components_head_root canonical.absolute
      have root : Component.root ∈ List.replicate count Component.parent ++ names.map .name :=
        relative ▸ rooted ▸ List.mem_cons_self
      simp [List.mem_replicate] at root
  unfold isFile at file
  split at file
  · rename_i resolved
    exact ⟨_, mem_nodes_of_resolve proper (spelled ▸ resolved), spelled⟩
  · cases file

namespace VisibleFiles

/-- The paths of all buffers and of all regular files, each once. -/
def paths (files : VisibleFiles) : List Path :=
  (files.unsaved.map (fun buffer => Path.ofComponents buffer.path.components) ++
    (files.disk.nodes.map fun entry => Disk.pathOf entry.1).filter files.disk.isFile).eraseDups

def reads (files : VisibleFiles) (file : Path) : Bool := (files.text? file).isSome

private theorem mem_paths {files : VisibleFiles} {file : Path} (canonical : IsCanonical file)
    (present : files.has file = true) : file ∈ files.paths := by
  rw [paths, List.mem_eraseDups]
  rw [has, Bool.or_eq_true] at present
  rcases present with covered | onDisk
  · obtain ⟨buffer, found⟩ := Option.isSome_iff_exists.mp covered
    have same : buffer.path.Same file := by simpa using List.find?_some found
    have spelled := Path.normalize_eq_ofComponents file
    rw [canonical.normal] at spelled
    refine List.mem_append_left _ (List.mem_map.mpr ⟨buffer, List.mem_of_find?_eq_some found, ?_⟩)
    rw [show buffer.path.components = file.components from same, ← spelled]
  · obtain ⟨entry, listed, spelled⟩ := Disk.location_of_isFile canonical onDisk
    refine List.mem_append_right _ (List.mem_filter.mpr ⟨?_, onDisk⟩)
    exact List.mem_map.mpr ⟨entry, listed, spelled.symm⟩

end VisibleFiles

namespace SearchDirectories

def Rooted (search : SearchDirectories) : Prop :=
  ∀ directory ∈ search.quote ++ search.user ++ search.system, directory.isAbsolute = true

private theorem Rooted.cons {search : SearchDirectories} (rooted : search.Rooted)
    (flag : IncludeFlag) {directory : Path} (absolute : directory.isAbsolute = true) :
    (search.cons flag directory).Rooted := by
  intro other member
  have cases : other = directory ∨ other ∈ search.quote ++ search.user ++ search.system := by
    cases flag <;> simp only [SearchDirectories.cons, List.mem_append, List.mem_cons] at member ⊢ <;>
      grind
  rcases cases with rfl | old
  · exact absolute
  · exact rooted other old

theorem rooted_ofArguments {base : Path} (absolute : base.isAbsolute = true)
    (arguments : List String) : (ofArguments base arguments).Rooted := by
  have seen : ∀ text : String, (base.join ⟨text⟩).normalize.isAbsolute = true := fun _ =>
    isAbsolute_normalize (isAbsolute_join absolute)
  fun_induction ofArguments base arguments with
  | case1 => exact nofun
  | case2 _ _ _ ih => exact ih
  | case3 => exact nofun
  | case4 _ _ _ _ _ ih => exact ih.cons _ (seen _)
  | case5 _ _ _ _ _ _ ih => exact ih.cons _ (seen _)

theorem Rooted.directories {search : SearchDirectories} (rooted : search.Rooted)
    (style : IncludeStyle) {directory candidate : Path} (absolute : directory.isAbsolute = true)
    (member : candidate ∈ search.directories style directory) : candidate.isAbsolute = true := by
  cases style with
  | quoted =>
    rcases List.mem_cons.mp member with rfl | inside
    · exact absolute
    · exact rooted candidate inside
  | angled => exact rooted candidate (by
      simp only [SearchDirectories.directories, List.mem_append] at member ⊢
      grind)

end SearchDirectories

namespace Closure

private theorem append_assoc (first second third : Closure) :
    (first.append second).append third = first.append (second.append third) := by
  simp only [append, List.append_assoc]

theorem isAbsolute_directoryOf {file : Path} (absolute : file.isAbsolute = true) :
    (directoryOf file).isAbsolute = true := by
  unfold directoryOf
  cases found : file.parent? with
  | none => rfl
  | some parent =>
    obtain ⟨body, shape⟩ := List.head?_eq_some_iff.mp (of_decide_eq_true absolute)
    simp only [Path.parent?, shape] at found
    obtain ⟨before, _, rfl⟩ := Option.map_eq_some_iff.mp found
    simp [Path.isAbsolute]

variable {files : VisibleFiles} {search : SearchDirectories} {main : Path}

private theorem Chain.canonical (rooted : search.Rooted) (canonical : IsCanonical main)
    {count : Nat} {file : Path} (chain : Chain files search main count file) : IsCanonical file := by
  induction chain with
  | main => exact canonical
  | step _ _ _ leads ih =>
    obtain ⟨before, candidate, after, split, rfl, _⟩ := leads
    have absolute : candidate.isAbsolute = true :=
      rooted.directories _ (isAbsolute_directoryOf ih.absolute) (by rw [split]; simp)
    exact ⟨isAbsolute_normalize (isAbsolute_join absolute), normalize_normalize _⟩

theorem Chain.has {count : Nat} {file : Path} (chain : Chain files search main count file)
    (other : file ≠ main) : files.has file = true := by
  cases chain with
  | main => exact absurd rfl other
  | step _ _ _ leads =>
    obtain ⟨_, _, _, _, _, present, _⟩ := leads
    exact present

end Closure

/-- A search underway: what was found so far, and the files that wait to be looked into. -/
structure Worklist where
  found : Closure
  waiting : List Path

namespace Worklist

def start (main : Path) : Worklist := ⟨⟨[], []⟩, [main]⟩

variable (files : VisibleFiles) (search : SearchDirectories) (main : Path)

/-- One turn: looks into the first waiting file and lets the new files wait that can be read.
`none` if no file waits. -/
def turn? (state : Worklist) : Option (Path × Worklist) :=
  match state.waiting with
  | [] => none
  | file :: rest =>
    let added := Closure.ofFile files search main state.found.includes file
    some (file, ⟨state.found.append added,
      rest ++ added.includes.filter files.reads⟩)

inductive Turns : Worklist → List Path → Worklist → Prop where
  | done {state} : Turns state [] state
  | turn {state next last file order} (first : turn? files search main state = some (file, next))
      (rest : Turns next order last) : Turns state (file :: order) last

variable {files search main}

/-- The search has no choice: whatever order it has come to so far begins the one it ends with. -/
theorem Turns.prefix_of_ended {state later last : Worklist} {order whole : List Path}
    (turns : Turns files search main state order later)
    (full : Turns files search main state whole last) (ended : last.waiting = []) :
    order <+: whole := by
  induction turns generalizing whole with
  | done => exact List.nil_prefix
  | turn first _ ih =>
    cases full with
    | done => simp [turn?, ended] at first
    | turn same others =>
      cases first.symm.trans same
      exact (List.prefix_cons_inj _).mpr (ih others)

/-- A queue of files is looked into in turn, then what it led to, each time the files only that
can be read. -/
theorem turns_ofQueue (found : Closure) (queue : List Path) :
    Turns files search main ⟨found, queue.filter files.reads⟩
      ((queue ++ (Closure.ofQueue files search main found.includes queue).includes).filter
        files.reads)
      ⟨found.append (Closure.ofQueue files search main found.includes queue), []⟩ := by
  generalize seen : found.includes = before
  fun_induction Closure.ofQueue files search main before queue generalizing found with
  | case1 =>
    simp only [Closure.append, List.append_nil, List.filter_nil]
    exact .done
  | case2 before file queue added ih =>
    have rest := ih (found.append added) (by rw [Closure.append, seen])
    rw [List.append_assoc, List.filter_append, Closure.append_assoc] at rest
    cases readable : files.text? file with
    | none =>
      have nothing : added = ⟨[], []⟩ := by simp only [added, Closure.ofFile, readable]
      simpa [VisibleFiles.reads, readable, nothing, Closure.append] using rest
    | some text =>
      have here : turn? files search main
          ⟨found, file :: queue.filter files.reads⟩ =
          some (file, ⟨found.append added, queue.filter files.reads ++
            added.includes.filter files.reads⟩) := by
        simp only [turn?, seen, added]
      rw [List.filter_cons_of_pos (by simp [VisibleFiles.reads, readable]), List.cons_append,
        List.filter_cons_of_pos (by simp [VisibleFiles.reads, readable])]
      exact .turn here rest

private theorem turns_ofMain (readable : files.reads main = true) :
    Turns files search main (.start main)
      (main :: (Closure.ofMain files search main).includes.filter files.reads)
      ⟨Closure.ofMain files search main, []⟩ := by
  have queued := @turns_ofQueue files search main ⟨[], []⟩ [main]
  rw [List.singleton_append, List.filter_cons_of_pos readable,
    List.filter_cons_of_pos readable] at queued
  exact queued

end Worklist

theorem Closure.found_ofMain {files : VisibleFiles} {search : SearchDirectories} {main file : Path}
    (rooted : search.Rooted) (canonical : IsCanonical main)
    (member : file ∈ (ofMain files search main).includes) :
    file ≠ main ∧ IsCanonical file ∧ files.has file = true := by
  have reached := @isClosure_ofMain files search main canonical.normal
  obtain ⟨other, count, chain⟩ := (reached.reached file).mp member
  exact ⟨other, chain.canonical rooted canonical, chain.has other⟩

namespace IncludeEngine
open Worklist

/-- The search looks into the main file once, and at most once into every other buffer and file;
then no file waits. -/
theorem search_ends (files : VisibleFiles) (main : Path) (arguments : List String)
    (canonical : IsCanonical main) :
    let search := SearchDirectories.ofArguments (Closure.directoryOf main) arguments
    (files.text? main = none → ∃ failure, (closureOf files main arguments).1 = .error failure) ∧
    (files.text? main ≠ none → ∃ closure others,
      (closureOf files main arguments).1 = .ok closure ∧
      Turns files search main (.start main) (main :: others) ⟨closure, []⟩ ∧
      (∀ order later, Turns files search main (.start main) order later →
        order <+: main :: others) ∧
      (main :: others).Nodup ∧
      (∀ file ∈ others, IsCanonical file ∧
        ((Buffer.find? files.unsaved file).isSome = true ∨ files.disk.isFile file = true)) ∧
      (main :: others).length ≤ 1 + files.paths.length) := by
  intro search
  refine ⟨fun unreadable => ⟨_, by simp only [closureOf, unreadable]; rfl⟩, fun readable => ?_⟩
  obtain ⟨text, readable⟩ := Option.ne_none_iff_exists'.mp readable
  let closure := Closure.ofMain files search main
  have computed : (closureOf files main arguments).1 = .ok closure := by
    simp only [closureOf, readable]
    rfl
  have turns : Turns files search main (.start main)
      (main :: closure.includes.filter files.reads) ⟨closure, []⟩ :=
    turns_ofMain (by simp [VisibleFiles.reads, readable])
  have rooted : search.Rooted :=
    SearchDirectories.rooted_ofArguments (Closure.isAbsolute_directoryOf canonical.absolute) _
  have found : ∀ file ∈ closure.includes.filter files.reads,
      file ≠ main ∧ IsCanonical file ∧ files.has file = true := fun file member =>
    Closure.found_ofMain rooted canonical (List.mem_filter.mp member).1
  have distinct : (closure.includes.filter files.reads).Nodup :=
    (Closure.isClosure_ofMain canonical.normal).distinct.filter _
  refine ⟨closure, _, computed, turns, ?_, ?_, ?_, ?_⟩
  · exact fun order later some => some.prefix_of_ended turns rfl
  · exact List.nodup_cons.mpr ⟨fun member => (found main member).1 rfl, distinct⟩
  · intro file member
    obtain ⟨_, normal, has⟩ := found file member
    exact ⟨normal, by simpa [VisibleFiles.has] using has⟩
  · have bound := distinct.length_le_of_subset fun file member =>
      VisibleFiles.mem_paths (found file member).2.1 (found file member).2.2
    rw [List.length_cons]
    omega

/-- Files that include themselves, and each other by names that climb above the root. -/
theorem search_ends_on_cycle :
    let files : VisibleFiles :=
      ⟨⟨[(["p"], .directory), (["p", "c.h"], .file none 0),
        (["p", "a.c"], .file (some "#include \"b.h\"\n#include \"a.c\"\n") 0)], some [], [], 0⟩,
        [⟨⟨"/p/b.h"⟩, "#include \"../../p/b.h\"\n#include \"../../../p/./a.c\"\n"⟩]⟩
    IsCanonical ⟨"/p/a.c"⟩ ∧ files.text? ⟨"/p/a.c"⟩ ≠ none ∧ ∃ closure others,
      (closureOf files ⟨"/p/a.c"⟩ ["-I", "../../x"]).1 = .ok closure ∧
      Turns files (.ofArguments (Closure.directoryOf ⟨"/p/a.c"⟩) ["-I", "../../x"]) ⟨"/p/a.c"⟩
        (.start ⟨"/p/a.c"⟩) (⟨"/p/a.c"⟩ :: others) ⟨closure, []⟩ ∧
      (⟨"/p/a.c"⟩ :: others : List Path).Nodup ∧ others.length ≤ 3 := by
  intro files
  have canonical : IsCanonical ⟨"/p/a.c"⟩ := ⟨by decide +kernel, by decide +kernel⟩
  have readable : files.text? ⟨"/p/a.c"⟩ ≠ none := by decide +kernel
  obtain ⟨closure, others, computed, turns, _, distinct, _, bound⟩ :=
    (search_ends files ⟨"/p/a.c"⟩ ["-I", "../../x"] canonical).2 readable
  have count : files.paths.length = 3 := by decide +kernel
  rw [List.length_cons, count] at bound
  exact ⟨canonical, readable, closure, others, computed, turns, distinct, by omega⟩

end IncludeEngine

end UnitCache
