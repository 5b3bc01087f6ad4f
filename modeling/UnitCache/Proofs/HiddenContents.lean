import Mathlib.Data.List.Find
import UnitCache.Proofs.SearchTurns

/-! What a scan can see. It asks for the texts and the presence of files, and before each answer
from the disk comes the first buffer of the path. So the disk behind a buffer, and any later buffer
of the same path, might as well be anything. -/

namespace UnitCache

namespace Buffer

theorem find?_cons (buffer : Buffer) (rest : List Buffer) (path : Path) :
    find? (buffer :: rest) path =
      if buffer.path.Same path then some buffer else find? rest path := by
  by_cases same : buffer.path.Same path <;> simp [find?, same]

theorem find?_append (before after : List Buffer) (path : Path) :
    find? (before ++ after) path = (find? before path).or (find? after path) :=
  List.find?_append

theorem find?_congr (buffers : List Buffer) {path other : Path} (same : path.Same other) :
    find? buffers path = find? buffers other := by
  unfold find?
  congr 1
  funext buffer
  exact decide_eq_decide.mpr ⟨fun here => here.trans same, fun there => there.trans same.symm⟩

theorem same_of_find? {buffers : List Buffer} {path : Path} {buffer : Buffer}
    (found : find? buffers path = some buffer) : buffer.path.Same path := by
  simpa using List.find?_some found

/-- The first buffer of each path. -/
def leading (buffers : List Buffer) : List Buffer :=
  buffers.eraseDupsBy fun later first => later.path.Same first.path

/-- Buffers of another path may as well be missing. -/
theorem find?_filter_apart (buffers : List Buffer) {other path : Path} (apart : ¬other.Same path) :
    find? (buffers.filter fun buffer => decide (buffer.path.Same other) = false) path =
      find? buffers path := by
  unfold find?
  rw [List.find?_filter]
  refine List.find?_congr fun buffer _ => decide_eq_decide.mpr ⟨fun found => ?_, fun here => ?_⟩
  · exact of_decide_eq_true found.2
  · refine ⟨?_, decide_eq_true here⟩
    have : ¬buffer.path.Same other := fun there => apart (there.symm.trans here)
    simp [this]

private theorem find?_leading (buffers : List Buffer) (path : Path) :
    find? (leading buffers) path = find? buffers path := by
  match buffers with
  | [] => rfl
  | buffer :: rest =>
    rw [leading, List.eraseDupsBy_cons, find?_cons, find?_cons]
    by_cases here : buffer.path.Same path
    · rw [if_pos here, if_pos here]
    · have later := find?_leading
        (rest.filter fun other => decide (other.path.Same buffer.path) = false) path
      rw [if_neg here, if_neg here]
      exact later.trans (find?_filter_apart rest here)
termination_by buffers.length
decreasing_by exact Nat.lt_succ_of_le (List.length_filter_le _ _)

end Buffer

namespace VisibleFiles
open Proofs.CanonicalPath

/-- The paths that a scan of a main file may ask for: the one it is given and normalized ones, which
are all absolute if the given one is. -/
def MayAsk (main path : Path) : Prop :=
  (path = main ∨ path.normalize = path) ∧ (main.isAbsolute = true → path.isAbsolute = true)

/-- What a scan of a main file sees is the same. -/
structure AgreeFor (main : Path) (one two : VisibleFiles) : Prop where
  text : ∀ path, MayAsk main path → one.text? path = two.text? path
  presence : ∀ path, MayAsk main path → one.has path = two.has path

variable {main : Path} {search : SearchDirectories} {directory : Path}

private theorem mayAsk_of_mem_candidateFiles (rooted : main.isAbsolute = true → search.Rooted)
    (placed : main.isAbsolute = true → directory.isAbsolute = true) {inclusion : Inclusion}
    {path : Path} (member : path ∈ search.candidateFiles directory inclusion) :
    MayAsk main path := by
  obtain ⟨candidate, inside, rfl⟩ := List.mem_map.mp member
  refine ⟨.inr (normalize_normalize _), fun absolute => ?_⟩
  have above := (rooted absolute).directories inclusion.style (placed absolute) inside
  exact isAbsolute_normalize (isAbsolute_join above)

private theorem MayAsk.directoryOf {file : Path} (asked : MayAsk main file)
    (absolute : main.isAbsolute = true) :
    (Closure.directoryOf file).isAbsolute = true :=
  Closure.isAbsolute_directoryOf (asked.2 absolute)

variable {one two : VisibleFiles} (agree : AgreeFor main one two)
include agree

private theorem AgreeFor.resolve? (rooted : main.isAbsolute = true → search.Rooted)
    (placed : main.isAbsolute = true → directory.isAbsolute = true) :
    one.resolve? search directory = two.resolve? search directory := by
  funext inclusion
  refine List.find?_congr fun path member => agree.presence path ?_
  exact mayAsk_of_mem_candidateFiles rooted placed member

private theorem AgreeFor.ofFile (rooted : main.isAbsolute = true → search.Rooted) (seen : List Path)
    {file : Path} (asked : MayAsk main file) :
    Closure.ofFile one search main seen file = Closure.ofFile two search main seen file := by
  unfold Closure.ofFile
  rw [agree.text file asked, agree.resolve? rooted asked.directoryOf]

/-- Whatever waits in the queue of a search may be asked for, so it is read alike. -/
theorem AgreeFor.ofQueue (rooted : main.isAbsolute = true → search.Rooted) (seen queue : List Path)
    (asked : ∀ file ∈ queue, MayAsk main file) :
    Closure.ofQueue one search main seen queue = Closure.ofQueue two search main seen queue := by
  fun_induction Closure.ofQueue one search main seen queue with
  | case1 => simp [Closure.ofQueue]
  | case2 seen file queue added ih =>
    have here : MayAsk main file := asked file List.mem_cons_self
    have same : added = Closure.ofFile two search main seen file := agree.ofFile rooted seen here
    have found : ∀ other ∈ added.includes, MayAsk main other := by
      intro other member
      simp only [added, Closure.ofFile] at member
      split at member
      · cases member
      · obtain ⟨_, inclusion, _, leads⟩ := Closure.includes_ofInclusions.1 other member
        exact mayAsk_of_mem_candidateFiles rooted here.directoryOf (List.mem_of_find?_eq_some leads)
    have later := ih fun other member => (List.mem_append.mp member).elim
      (fun waiting => asked other (List.mem_cons_of_mem _ waiting)) (found other)
    rw [Closure.ofQueue, ← same, later]

theorem AgreeFor.closureOf (arguments : List String) :
    IncludeEngine.closureOf one main arguments = IncludeEngine.closureOf two main arguments := by
  have itself : MayAsk main main := ⟨.inl rfl, id⟩
  have rooted : main.isAbsolute = true →
      (SearchDirectories.ofArguments (Closure.directoryOf main) arguments).Rooted :=
    fun absolute => SearchDirectories.rooted_ofArguments (itself.directoryOf absolute) arguments
  have found := agree.ofQueue rooted [] [main] (by simpa using itself)
  unfold IncludeEngine.closureOf Closure.ofMain
  rw [agree.text main itself]
  simp only [found]

end VisibleFiles

namespace Disk
open Proofs.CanonicalPath

/-- The disks tell the same of every path that a scan of a main file may ask for and that no buffer
stands in for. -/
def SameBehind (unsaved : List Buffer) (main : Path) (disk other : Disk) : Prop :=
  ∀ path, VisibleFiles.MayAsk main path → Buffer.find? unsaved path = none →
    disk.isFile path = other.isFile path ∧
    (disk.readText path).toOption = (other.readText path).toOption

private theorem isFile_of_readText {disk : Disk} {path : Path} {text : String}
    (read : disk.readText path = .ok text) : disk.isFile path = true := by
  unfold readText at read
  split at read
  · cases read
  · cases read
  · cases read
  · rename_i resolved
    rw [isFile, resolved]

private theorem toOption_readText_of_not_isFile {disk : Disk} {path : Path}
    (absent : disk.isFile path = false) : (disk.readText path).toOption = none := by
  cases read : disk.readText path with
  | error error => rfl
  | ok text =>
    rw [isFile_of_readText read] at absent
    cases absent

/-- It is enough to compare the disks at the paths of the files that are listed on either. -/
theorem sameBehind_of_listed {unsaved : List Buffer} {main : Path} {disk other : Disk}
    (canonical : IsCanonical main)
    (listed : ∀ entry ∈ disk.nodes ++ other.nodes, Buffer.find? unsaved (pathOf entry.1) = none →
      disk.isFile (pathOf entry.1) = other.isFile (pathOf entry.1) ∧
      (disk.readText (pathOf entry.1)).toOption = (other.readText (pathOf entry.1)).toOption) :
    disk.SameBehind unsaved main other := by
  intro path asked free
  have formed : IsCanonical path := by
    refine ⟨asked.2 canonical.absolute, ?_⟩
    rcases asked.1 with rfl | normal
    · exact canonical.normal
    · exact normal
  cases here : disk.isFile path with
  | true =>
    obtain ⟨entry, member, rfl⟩ := location_of_isFile formed here
    exact here ▸ listed entry (List.mem_append_left _ member) free
  | false =>
    cases there : other.isFile path with
    | true =>
      obtain ⟨entry, member, rfl⟩ := location_of_isFile formed there
      exact here ▸ there ▸ listed entry (List.mem_append_right _ member) free
    | false =>
      rw [toOption_readText_of_not_isFile here, toOption_readText_of_not_isFile there]
      exact ⟨rfl, rfl⟩

end Disk

private theorem VisibleFiles.agreeFor_of_sameBehind {main : Path} {unsaved others : List Buffer}
    {disk other : Disk} (behind : disk.SameBehind unsaved main other)
    (leading : Buffer.leading unsaved = Buffer.leading others) :
    AgreeFor main ⟨disk, unsaved⟩ ⟨other, others⟩ := by
  have same : ∀ path, Buffer.find? others path = Buffer.find? unsaved path := by
    intro path
    rw [← Buffer.find?_leading, ← leading, Buffer.find?_leading]
  constructor
  · intro path asked
    rw [text?, text?, same]
    cases found : Buffer.find? unsaved path with
    | none => exact (behind path asked found).2
    | some buffer => rfl
  · intro path asked
    rw [has, has, same]
    cases found : Buffer.find? unsaved path with
    | none => exact (behind path asked found).1
    | some buffer => rfl

namespace IncludeEngine

/-- What is on disk behind a buffer is invisible, and so is any buffer behind the first of its path:
parsing and reparsing fail alike or give the same unit. -/
theorem hidden_contents_are_invisible {main : Path} {unsaved others : List Buffer}
    {disk other : Disk} (behind : disk.SameBehind unsaved main other)
    (leading : Buffer.leading unsaved = Buffer.leading others) (parsed : Nat) :
    (∀ index arguments flags,
      parse disk parsed index ⟨main, arguments, unsaved, flags⟩ =
        parse other parsed index ⟨main, arguments, others, flags⟩) ∧
    ∀ unit : IncludeUnit, unit.path = main →
      reparse disk parsed unit unsaved = reparse other parsed unit others := by
  have alike := VisibleFiles.agreeFor_of_sameBehind behind leading
  constructor
  · intro index arguments flags
    simp only [parse, alike.closureOf arguments]
  · rintro unit rfl
    simp only [reparse, alike.closureOf unit.arguments]

theorem stale_main_file_is_invisible :
    let main : Path := ⟨"/p/a.c"⟩
    let opened : List Buffer := [⟨main, "#include \"h.h\"\n#include \"s.h\"\n"⟩, ⟨⟨"/p/h.h"⟩, ""⟩]
    let reopened : List Buffer := opened ++ [⟨⟨"//p/./a.c"⟩, "#include \"gone.h\"\n"⟩]
    let stale : Disk := { Disk.empty with
      nodes := [(["p"], .directory), (["p", "a.c"], .file (some "#include <old.h>\n") 1),
        (["p", "h.h"], .directory)] }
    stale.SameBehind reopened main .empty ∧ Buffer.leading reopened = Buffer.leading opened ∧
    parse stale 0 ⟨.none, false⟩ ⟨main, [], reopened, .editing⟩ =
      parse .empty 0 ⟨.none, false⟩ ⟨main, [], opened, .editing⟩ ∧
    (parse .empty 0 ⟨.none, false⟩ ⟨main, [], opened, .editing⟩).outcome.toOption =
      some ⟨1, main, [], ⟨[⟨"/p/h.h"⟩], ["s.h"]⟩, false⟩ ∧
    reparse stale 1 ⟨1, main, [], ⟨[], []⟩, false⟩ reopened =
      reparse .empty 1 ⟨1, main, [], ⟨[], []⟩, false⟩ opened := by
  intro main opened reopened stale
  have canonical : Proofs.CanonicalPath.IsCanonical main := ⟨by decide, by decide +kernel⟩
  have behind : stale.SameBehind reopened main .empty :=
    Disk.sameBehind_of_listed canonical (by decide +kernel)
  have leading : Buffer.leading reopened = Buffer.leading opened := by decide +kernel
  refine ⟨behind, leading, ?_, by decide +kernel, ?_⟩
  · exact (hidden_contents_are_invisible behind leading 0).1 _ _ _
  · exact (hidden_contents_are_invisible behind leading 1).2 _ rfl

end IncludeEngine

end UnitCache
