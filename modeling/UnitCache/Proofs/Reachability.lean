import UnitCache.Include.Engine
import UnitCache.Proofs.CanonicalPath

/-! What is in a closure: the files that a chain of include directives leads to from the main file,
nearest first. Each file that the search adds is looked into in its turn, so what the search found
is what the main file and the found files include, each file once and in that order. -/

namespace UnitCache

/-- The file that an inclusion leads to: one that exists, under a directory such that none exists
under the directories before it. -/
def VisibleFiles.Leads (files : VisibleFiles) (search : SearchDirectories) (directory : Path)
    (inclusion : Inclusion) (file : Path) : Prop :=
  ∃ before candidate after,
    search.directories inclusion.style directory = before ++ candidate :: after ∧
    file = (candidate.join ⟨inclusion.name⟩).normalize ∧ files.has file = true ∧
    ∀ other ∈ before, files.has (other.join ⟨inclusion.name⟩).normalize = false

private theorem VisibleFiles.resolve?_eq_some_iff {files : VisibleFiles}
    {search : SearchDirectories} {directory file : Path} {inclusion : Inclusion} :
    files.resolve? search directory inclusion = some file ↔
      files.Leads search directory inclusion file := by
  unfold resolve? SearchDirectories.candidateFiles
  constructor
  · intro found
    obtain ⟨present, passed, rest, split, absent⟩ := List.find?_eq_some_iff_append.mp found
    obtain ⟨before, others, directories, same, last⟩ := List.map_eq_append_iff.mp split
    obtain ⟨candidate, after, rfl, here, _⟩ := List.map_eq_cons_iff.mp last
    refine ⟨before, candidate, after, directories, here.symm, present, ?_⟩
    intro other member
    have missing := absent _ (same ▸ List.mem_map_of_mem member)
    simpa using missing
  · rintro ⟨before, candidate, after, directories, rfl, present, absent⟩
    rw [directories, List.map_append, List.map_cons]
    refine List.find?_eq_some_iff_append.mpr ⟨present, _, _, rfl, ?_⟩
    intro passed member
    obtain ⟨other, inside, rfl⟩ := List.mem_map.mp member
    simpa using absent other inside

namespace Closure

variable (files : VisibleFiles) (search : SearchDirectories) (main : Path)

/-- The files that a file includes itself, in the order of its directives; none if it cannot be
read. -/
def directIncludes (file : Path) : List Path :=
  match files.text? file with
  | none => []
  | some text => (inclusions text).filterMap (files.resolve? search (directoryOf file))

/-- The names in a file that lead nowhere, in the order of its directives. -/
def missingNames (file : Path) : List String :=
  match files.text? file with
  | none => []
  | some text =>
    ((inclusions text).filter fun inclusion =>
      (files.resolve? search (directoryOf file) inclusion).isNone).map Inclusion.name

/-- The files that a number of steps leads to, each from a readable file to one that it includes. -/
inductive Chain : Nat → Path → Prop where
  | main : Chain 0 main
  | step {count file text inclusion included} (chain : Chain count file)
      (readable : files.text? file = some text) (asked : inclusion ∈ inclusions text)
      (leads : files.Leads search (directoryOf file) inclusion included) : Chain (count + 1) included

/-- The closure of a main file, told without a queue: what is in it, and in which order. -/
structure IsClosure (closure : Closure) : Prop where
  distinct : closure.includes.Nodup
  reached : ∀ file, file ∈ closure.includes ↔
    file ≠ main ∧ ∃ count, Chain files search main count file
  /-- Files are discovered in the order in which the main file and the files before them include
  them. -/
  discovered : closure.includes =
    (((main :: closure.includes).flatMap (directIncludes files search)).filter (· ≠ main)).eraseDups
  /-- No file comes before one that fewer steps lead to. -/
  nearest : closure.includes.Pairwise fun file later => ∀ count,
    Chain files search main count later → ∃ fewer ≤ count, Chain files search main fewer file
  unresolved : closure.unresolved =
    (main :: closure.includes).flatMap (missingNames files search)

variable {files search main}

private theorem mem_directIncludes {file included : Path} :
    included ∈ directIncludes files search file ↔
      ∃ text, files.text? file = some text ∧
        ∃ inclusion ∈ inclusions text, files.Leads search (directoryOf file) inclusion included := by
  unfold directIncludes
  cases readable : files.text? file with
  | none => simp
  | some text => simp [List.mem_filterMap, VisibleFiles.resolve?_eq_some_iff]

private theorem Chain.next {count : Nat} {file included : Path}
    (chain : Chain files search main count file)
    (direct : included ∈ directIncludes files search file) :
    Chain files search main (count + 1) included := by
  obtain ⟨text, readable, inclusion, asked, leads⟩ := mem_directIncludes.mp direct
  exact .step chain readable asked leads

private theorem normalize_of_mem_directIncludes {file included : Path}
    (direct : included ∈ directIncludes files search file) : included.normalize = included := by
  obtain ⟨_, _, _, _, _, candidate, _, _, rfl, _⟩ := mem_directIncludes.mp direct
  exact Proofs.CanonicalPath.normalize_normalize _

/-- Whether a file is neither the main file nor seen before. -/
def isNew (main : Path) (seen : List Path) (file : Path) : Bool :=
  !decide (file.Same main ∨ file ∈ seen)

private theorem isNew_append (main : Path) (seen fresh : List Path) (file : Path) :
    isNew main (seen ++ fresh) file = (!fresh.elem file && isNew main seen file) := by
  by_cases same : file.Same main <;> by_cases old : file ∈ seen <;>
    by_cases new : file ∈ fresh <;> simp [isNew, same, old, new]

private theorem removeAll_filter_isNew (main : Path) (seen first rest : List Path) :
    (rest.filter (isNew main seen)).removeAll (first.filter (isNew main seen)) =
      rest.filter (isNew main (seen ++ (first.filter (isNew main seen)).eraseDups)) := by
  rw [List.removeAll, List.filter_filter]
  apply List.filter_congr
  intro file _
  have members : (first.filter (isNew main seen)).eraseDups.elem file =
      (first.filter (isNew main seen)).elem file := by
    rw [Bool.eq_iff_iff, List.elem_iff, List.elem_iff, List.mem_eraseDups]
  rw [isNew_append, members]

private theorem includes_ofInclusions_eq (resolve? : Inclusion → Option Path) (seen : List Path)
    (asked : List Inclusion) :
    (ofInclusions resolve? main seen asked).includes =
      ((asked.filterMap resolve?).filter (isNew main seen)).eraseDups := by
  induction asked generalizing seen with
  | nil => simp [ofInclusions]
  | cons inclusion rest ih =>
    cases found : resolve? inclusion with
    | none => simp only [ofInclusions, found, List.filterMap_cons_none, ih]
    | some file =>
      rw [List.filterMap_cons_some found]
      by_cases known : file.Same main ∨ file ∈ seen
      · have old : isNew main seen file = false := by simp [isNew, known]
        simp only [ofInclusions, found, if_pos known, ih, List.filter_cons, old]
        rfl
      · have new : isNew main seen file = true := by simp [isNew, known]
        simp only [ofInclusions, found, if_neg known, ih, List.filter_cons, new, if_true,
          List.eraseDups_cons, List.filter_filter]
        congr 3
        funext other
        by_cases same : other = file <;> simp [isNew_append, same]

private theorem unresolved_ofInclusions (resolve? : Inclusion → Option Path) (seen : List Path)
    (asked : List Inclusion) :
    (ofInclusions resolve? main seen asked).unresolved =
      (asked.filter fun inclusion => (resolve? inclusion).isNone).map Inclusion.name := by
  induction asked generalizing seen with
  | nil => simp [ofInclusions]
  | cons inclusion rest ih =>
    cases found : resolve? inclusion with
    | none => simp [ofInclusions, found, ih]
    | some file =>
      by_cases known : file.Same main ∨ file ∈ seen
      · simp [ofInclusions, found, known, ih]
      · simp [ofInclusions, found, known, ih]

private theorem includes_ofFile (seen : List Path) (file : Path) :
    (ofFile files search main seen file).includes =
      ((directIncludes files search file).filter (isNew main seen)).eraseDups := by
  unfold ofFile directIncludes
  cases files.text? file with
  | none => rfl
  | some text => exact includes_ofInclusions_eq ..

private theorem unresolved_ofFile (seen : List Path) (file : Path) :
    (ofFile files search main seen file).unresolved = missingNames files search file := by
  unfold ofFile missingNames
  cases files.text? file with
  | none => rfl
  | some text => exact unresolved_ofInclusions ..

/-- What a queue leads to is what the queue and the found files include. -/
theorem includes_ofQueue (seen queue : List Path) :
    (ofQueue files search main seen queue).includes =
      (((queue ++ (ofQueue files search main seen queue).includes).flatMap
        (directIncludes files search)).filter (isNew main seen)).eraseDups := by
  fun_induction ofQueue files search main seen queue with
  | case1 => rfl
  | case2 seen file queue added ih =>
    generalize ofQueue files search main (seen ++ added.includes) (queue ++ added.includes) = later
      at ih ⊢
    have first : added.includes =
        ((directIncludes files search file).filter (isNew main seen)).eraseDups :=
      includes_ofFile ..
    rw [append, List.cons_append, List.flatMap_cons, List.filter_append, List.eraseDups_append,
      removeAll_filter_isNew, ← first, ← List.append_assoc, ← ih]

private theorem unresolved_ofQueue (seen queue : List Path) :
    (ofQueue files search main seen queue).unresolved =
      (queue ++ (ofQueue files search main seen queue).includes).flatMap
        (missingNames files search) := by
  fun_induction ofQueue files search main seen queue with
  | case1 => rfl
  | case2 seen file queue added ih =>
    have first : added.unresolved = missingNames files search file := unresolved_ofFile ..
    rw [append, List.cons_append, List.flatMap_cons, first, ih, List.append_assoc]

private theorem chain_of_mem_ofQueue (seen queue : List Path)
    (start : ∀ file ∈ queue, ∃ count, Chain files search main count file) :
    ∀ file ∈ (ofQueue files search main seen queue).includes,
      ∃ count, Chain files search main count file := by
  fun_induction ofQueue files search main seen queue with
  | case1 => exact nofun
  | case2 seen file queue added ih =>
    obtain ⟨count, chain⟩ := start file List.mem_cons_self
    have added_reached : ∀ other ∈ added.includes, ∃ count, Chain files search main count other := by
      intro other member
      rw [show added.includes = _ from includes_ofFile .., List.mem_eraseDups] at member
      exact ⟨count + 1, chain.next (List.mem_filter.mp member).1⟩
    intro other member
    rcases List.mem_append.mp member with first | later
    · exact added_reached other first
    · refine ih ?_ other later
      intro queued inside
      rcases List.mem_append.mp inside with waiting | new
      · exact start queued (List.mem_cons_of_mem _ waiting)
      · exact added_reached queued new

private theorem nodup_eraseDups (paths : List Path) : paths.eraseDups.Nodup := by
  cases paths with
  | nil => simp
  | cons first rest =>
    rw [List.eraseDups_cons, List.nodup_cons]
    refine ⟨by simp [List.mem_eraseDups], ?_⟩
    exact nodup_eraseDups (rest.filter fun other => !other == first)
termination_by paths.length
decreasing_by exact Nat.lt_succ_of_le (List.length_filter_le _ _)

private theorem not_sublist_swap {first last : Path} {paths : List Path} (distinct : paths.Nodup)
    (order : [first, last].Sublist paths) : ¬[last, first].Sublist paths := by
  induction paths with
  | nil => cases order
  | cons head rest ih =>
    obtain ⟨absent, distinctRest⟩ := List.nodup_cons.mp distinct
    intro swapped
    cases order with
    | cons _ order =>
      cases swapped with
      | cons _ swapped => exact ih distinctRest order swapped
      | cons_cons _ swapped => exact absent (order.subset (by simp))
    | cons_cons _ order =>
      cases swapped with
      | cons _ swapped => exact absent (swapped.subset (by simp))
      | cons_cons _ swapped => exact absent (swapped.subset (by simp))

/-- What comes first once repetitions are dropped came first before. -/
private theorem mem_before_of_sublist {paths left right : List Path} {first last : Path}
    (order : [first, last].Sublist paths.eraseDups) (split : paths = left ++ last :: right) :
    first ∈ left := by
  have distinct := nodup_eraseDups paths
  have different : first ≠ last := by
    rintro rfl
    simpa using order.nodup distinct
  apply Decidable.byContradiction
  intro absent
  refine not_sublist_swap distinct order ?_
  have parts : paths = (left ++ [last]) ++ right := by rw [split]; simp
  have late : first ∈ (right.removeAll (left ++ [last])).eraseDups := by
    have member : first ∈ paths := List.mem_eraseDups.mp (order.subset (by simp))
    rw [parts] at member
    simp only [List.mem_append, List.mem_singleton, absent, different, or_self, false_or] at member
    simp [List.mem_eraseDups, List.removeAll, member, absent, different]
  rw [parts, List.eraseDups_append]
  exact List.Sublist.append (List.singleton_sublist.mpr (by simp [List.mem_eraseDups]))
    (List.singleton_sublist.mpr late)

/-- The main file is no included file, and all found files are normalized like it. -/
theorem discovered_ofMain (normal : main.normalize = main) :
    (ofMain files search main).includes =
      (((main :: (ofMain files search main).includes).flatMap
        (directIncludes files search)).filter (· ≠ main)).eraseDups := by
  have queued := @includes_ofQueue files search main [] [main]
  rw [List.singleton_append] at queued
  refine queued.trans (congrArg List.eraseDups ?_)
  apply List.filter_congr
  intro file member
  obtain ⟨_, _, direct⟩ := List.mem_flatMap.mp member
  have same : file.Same main ↔ file = main :=
    ⟨Path.eq_of_same (normalize_of_mem_directIncludes direct) normal, fun equal => equal ▸ rfl⟩
  simp [isNew, same]

section Discovered
variable {found : List Path}
  (discovered : found =
    (((main :: found).flatMap (directIncludes files search)).filter (· ≠ main)).eraseDups)
include discovered

private theorem mem_discovered {file : Path} :
    file ∈ found ↔ file ≠ main ∧ ∃ includer ∈ main :: found,
      file ∈ directIncludes files search includer := by
  have members := congrArg (file ∈ ·) discovered
  simp only [List.mem_eraseDups, List.mem_filter, List.mem_flatMap, decide_eq_true_eq, eq_iff_iff]
    at members
  rw [members, and_comm]

private theorem main_not_mem : main ∉ found := fun member =>
    ((mem_discovered discovered).mp member).1 rfl

/-- Nothing that a chain leads to is left out: what a found file includes is found. -/
theorem Chain.mem {count : Nat} {file : Path} (chain : Chain files search main count file) :
    file ∈ main :: found := by
  induction chain with
  | main => exact List.mem_cons_self
  | @step _ file _ _ included _ readable asked leads ih =>
    by_cases same : included = main
    · exact same ▸ List.mem_cons_self
    · have direct : included ∈ directIncludes files search file :=
        mem_directIncludes.mpr ⟨_, readable, _, asked, leads⟩
      exact List.mem_cons_of_mem _ ((mem_discovered discovered).mpr ⟨same, file, ih, direct⟩)

/-- A file is found no later than a file that it stands before in the order was included. -/
theorem includer_before {file later includer : Path} (order : [file, later].Sublist found)
    (listed : includer ∈ main :: found) (direct : later ∈ directIncludes files search includer) :
    ∃ earlier, file ∈ directIncludes files search earlier ∧
      (earlier = includer ∨ [earlier, includer].Sublist (main :: found)) := by
  obtain ⟨before, after, split⟩ := List.append_of_mem listed
  obtain ⟨head, tail, inside⟩ := List.append_of_mem direct
  have other : later ≠ main := ((mem_discovered discovered).mp (order.subset (by simp))).1
  rw [discovered] at order
  have parts : ((main :: found).flatMap (directIncludes files search)).filter (· ≠ main) =
      ((before.flatMap (directIncludes files search) ++ head).filter (· ≠ main)) ++
        later :: (tail ++ after.flatMap (directIncludes files search)).filter (· ≠ main) := by
    simp [split, inside, other]
  have member := (List.mem_filter.mp (mem_before_of_sublist order parts)).1
  rcases List.mem_append.mp member with member | member
  · obtain ⟨earlier, place, direct⟩ := List.mem_flatMap.mp member
    refine ⟨earlier, direct, .inr ?_⟩
    rw [split]
    exact List.Sublist.append (List.singleton_sublist.mpr place)
      (List.singleton_sublist.mpr List.mem_cons_self)
  · exact ⟨includer, inside ▸ List.mem_append_left _ member, .inl rfl⟩

private theorem nearest_of_sublist {count : Nat} {file later : Path}
    (chain : Chain files search main count later) (order : [file, later].Sublist (main :: found)) :
    ∃ fewer ≤ count, Chain files search main fewer file := by
  have last : later ∈ found := by
    cases order with
    | cons _ order => exact order.subset (by simp)
    | cons_cons _ order => exact order.subset (by simp)
  induction chain generalizing file with
  | main => exact absurd last (main_not_mem discovered)
  | @step count includer _ _ included chain readable asked leads ih =>
    cases order with
    | cons_cons _ _ => exact ⟨0, by simp, .main⟩
    | cons _ order =>
      have direct : included ∈ directIncludes files search includer :=
        mem_directIncludes.mpr ⟨_, readable, _, asked, leads⟩
      obtain ⟨earlier, included, place⟩ :=
        includer_before discovered order (chain.mem discovered) direct
      rcases place with rfl | place
      · exact ⟨count + 1, Nat.le_refl _, chain.next included⟩
      · have before : includer ∈ found := by
          cases place with
          | cons _ place => exact place.subset (by simp)
          | cons_cons _ place => exact place.subset (by simp)
        obtain ⟨fewer, bound, shorter⟩ := ih place before
        exact ⟨fewer + 1, Nat.succ_le_succ bound, shorter.next included⟩

end Discovered

theorem isClosure_ofMain (normal : main.normalize = main) :
    IsClosure files search main (ofMain files search main) := by
  have discovered := @discovered_ofMain files search main normal
  refine ⟨?_, ?_, discovered, ?_, unresolved_ofQueue ..⟩
  · rw [discovered]
    exact nodup_eraseDups _
  · intro file
    constructor
    · intro member
      refine ⟨((mem_discovered discovered).mp member).1, ?_⟩
      refine chain_of_mem_ofQueue [] [main] ?_ file member
      intro queued here
      exact ⟨0, List.mem_singleton.mp here ▸ .main⟩
    · rintro ⟨other, _, chain⟩
      exact (List.mem_cons.mp (chain.mem discovered)).resolve_left other
  · refine List.pairwise_iff_forall_sublist.mpr fun order count chain => ?_
    exact nearest_of_sublist discovered chain (order.cons main)

end Closure

namespace IncludeEngine

/-- The closure that is computed of a main file is that of the directories its arguments name, and
only a main file that cannot be read has none. -/
theorem closure_is_reachable (files : VisibleFiles) (main : Path) (arguments : List String)
    (normal : main.normalize = main) :
    (files.text? main = none ↔
      ∃ failure, (closureOf files main arguments).1 = .error failure) ∧
    (∀ text, files.text? main = some text → ∃ closure,
      (closureOf files main arguments).1 = .ok closure ∧
      Closure.IsClosure files
        (SearchDirectories.ofArguments (Closure.directoryOf main) arguments) main closure) := by
  cases readable : files.text? main with
  | none =>
    have failed : (closureOf files main arguments).1 =
        .error ⟨unreadableStatus, "cannot read " ++ main.text⟩ := by simp only [closureOf, readable]
    exact ⟨⟨fun _ => ⟨_, failed⟩, fun _ => rfl⟩, nofun⟩
  | some text =>
    let search := SearchDirectories.ofArguments (Closure.directoryOf main) arguments
    have computed : (closureOf files main arguments).1 = .ok (Closure.ofMain files search main) := by
      simp only [closureOf, readable]
      rfl
    refine ⟨⟨nofun, ?_⟩, fun _ _ => ⟨_, computed, Closure.isClosure_ofMain normal⟩⟩
    rintro ⟨failure, failed⟩
    cases computed.symm.trans failed

theorem file_behind_buffer_is_reached :
    let files : VisibleFiles :=
      ⟨⟨[(["p"], .directory), (["p", "c.h"], .file none 0),
        (["p", "a.c"], .file (some "#include \"b.h\"\n#include <gone.h>\n") 0)], some [], [], 0⟩,
        [⟨⟨"/p//b.h"⟩, "#include \"a.c\"\n#include \"c.h\"\n"⟩]⟩
    (⟨"/p/a.c"⟩ : Path).normalize = ⟨"/p/a.c"⟩ ∧
    ∃ closure, (closureOf files ⟨"/p/a.c"⟩ []).1 = .ok closure ∧
      ⟨"/p/c.h"⟩ ∈ closure.includes ∧ ⟨"/p/a.c"⟩ ∉ closure.includes ∧
      "gone.h" ∈ closure.unresolved := by
  intro files
  have normal : (⟨"/p/a.c"⟩ : Path).normalize = ⟨"/p/a.c"⟩ := by decide +kernel
  have readable : files.text? ⟨"/p/a.c"⟩ = some "#include \"b.h\"\n#include <gone.h>\n" := by
    decide +kernel
  obtain ⟨closure, computed, isClosure⟩ :=
    (closure_is_reachable files ⟨"/p/a.c"⟩ [] normal).2 _ readable
  let search := SearchDirectories.ofArguments (Closure.directoryOf ⟨"/p/a.c"⟩) []
  have first : ⟨"/p/b.h"⟩ ∈ Closure.directIncludes files search ⟨"/p/a.c"⟩ := by decide +kernel
  have second : ⟨"/p/c.h"⟩ ∈ Closure.directIncludes files search ⟨"/p/b.h"⟩ := by decide +kernel
  have missing : "gone.h" ∈ Closure.missingNames files search ⟨"/p/a.c"⟩ := by decide +kernel
  refine ⟨normal, closure, computed, ?_, ?_, ?_⟩
  · exact (isClosure.reached _).mpr ⟨by decide, 2, (Closure.Chain.main.next first).next second⟩
  · exact fun member => ((isClosure.reached _).mp member).1 rfl
  · rw [isClosure.unresolved]
    exact List.mem_flatMap.mpr ⟨_, List.mem_cons_self, missing⟩

end IncludeEngine

end UnitCache
