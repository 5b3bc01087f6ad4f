import UnitCache.Disk.Files
import UnitCache.Include.SearchDirectories
import UnitCache.Buffer

/-! The files that a source file includes, directly and through others.

Files are read in breadth-first order and each once. Only files that exist are found,
and found paths are normalized, of which finitely many can exist: the search ends
because every file it adds is one of those and was not found before. -/

namespace UnitCache

/-- The files an engine sees: what is on disk, behind the buffers that stand in for it. -/
structure VisibleFiles where
  disk : Disk
  unsaved : List Buffer
deriving Inhabited

namespace VisibleFiles

def has (files : VisibleFiles) (path : Path) : Bool :=
  (Buffer.find? files.unsaved path).isSome || files.disk.isFile path

def text? (files : VisibleFiles) (path : Path) : Option String :=
  match Buffer.find? files.unsaved path with
  | some buffer => some buffer.text
  | none => (files.disk.readText path).toOption

/-- The file that an inclusion in a file of a directory stands for: the first that exists. -/
def resolve? (files : VisibleFiles) (search : SearchDirectories) (directory : Path)
    (inclusion : Inclusion) : Option Path :=
  (search.candidateFiles directory inclusion).find? files.has

/-- Every normalized path that may exist. -/
def existing (files : VisibleFiles) : List Path :=
  files.unsaved.map (fun buffer => Path.ofComponents buffer.path.components) ++
    files.disk.reachablePaths

theorem mem_existing_of_has {files : VisibleFiles} {path : Path}
    (present : files.has path.normalize) : path.normalize ∈ files.existing := by
  rw [has, Bool.or_eq_true] at present
  rcases present with covered | file
  · obtain ⟨buffer, found⟩ := Option.isSome_iff_exists.mp covered
    refine List.mem_append_left _ (List.mem_map.mpr ⟨buffer, List.mem_of_find?_eq_some found, ?_⟩)
    have same : buffer.path.Same path.normalize := by simpa using List.find?_some found
    rw [show buffer.path.components = path.normalize.components from same,
      ← Path.normalize_eq_ofComponents]
  · exact List.mem_append_right _ (Disk.mem_reachablePaths_of_isFile file)

theorem mem_existing_of_resolve? {files : VisibleFiles} {search : SearchDirectories}
    {directory file : Path} {inclusion : Inclusion}
    (found : files.resolve? search directory inclusion = some file) :
    file ∈ files.existing := by
  obtain ⟨candidate, _, rfl⟩ := List.mem_map.mp (List.mem_of_find?_eq_some found)
  exact mem_existing_of_has (List.find?_some found)

def unseen (files : VisibleFiles) (seen : List Path) : List Path :=
  files.existing.filter (· ∉ seen)

theorem length_unseen_append {files : VisibleFiles} {seen fresh : List Path}
    (exist : ∀ file ∈ fresh, file ∈ files.existing) (new : ∀ file ∈ fresh, file ∉ seen)
    (distinct : fresh.Nodup) :
    (files.unseen (seen ++ fresh)).length + fresh.length ≤ (files.unseen seen).length := by
  induction fresh generalizing seen with
  | nil => simp
  | cons file rest ih =>
    obtain ⟨absent, distinctRest⟩ := List.nodup_cons.mp distinct
    have below := @ih (seen ++ [file])
      (fun other member => exist other (List.mem_cons_of_mem _ member))
      (fun other member inside => by
        rcases List.mem_append.mp inside with inside | inside
        · exact new other (List.mem_cons_of_mem _ member) inside
        · rw [List.mem_singleton.mp inside] at member
          exact absent member)
      distinctRest
    have present : file ∈ files.unseen seen := by
      simp [unseen, exist file List.mem_cons_self, new file List.mem_cons_self]
    have fewer : (files.unseen (seen ++ [file])).length < (files.unseen seen).length := by
      have split : files.unseen (seen ++ [file]) = (files.unseen seen).filter (· ≠ file) := by
        rw [unseen, unseen, List.filter_filter]
        congr 1
        funext other
        simp [Bool.and_comm]
      rw [split]
      exact List.length_filter_lt_length_iff_exists.mpr ⟨file, present, by simp⟩
    rw [List.append_assoc] at below
    simp only [List.singleton_append] at below
    simp only [List.length_cons]
    omega

end VisibleFiles

/-- What following the includes of a file found: the included files in the order of discovery, and
the names that lead to no file in the order of reading. -/
structure Closure where
  includes : List Path
  unresolved : List String
deriving DecidableEq

namespace Closure

instance : Inhabited Closure := ⟨⟨[], []⟩⟩

def append (first second : Closure) : Closure :=
  ⟨first.includes ++ second.includes, first.unresolved ++ second.unresolved⟩

/-- What the inclusions of one file add to the files already seen. The main file is no included
file. -/
def ofInclusions (resolve? : Inclusion → Option Path) (main : Path) (seen : List Path) :
    List Inclusion → Closure
  | [] => ⟨[], []⟩
  | inclusion :: rest =>
    match resolve? inclusion with
    | none =>
      let below := ofInclusions resolve? main seen rest
      { below with unresolved := inclusion.name :: below.unresolved }
    | some file =>
      if file.Same main ∨ file ∈ seen then ofInclusions resolve? main seen rest
      else
        let below := ofInclusions resolve? main (seen ++ [file]) rest
        { below with includes := file :: below.includes }

theorem includes_ofInclusions {resolve? : Inclusion → Option Path} {main : Path} {seen : List Path}
    {inclusions : List Inclusion} :
    (∀ file ∈ (ofInclusions resolve? main seen inclusions).includes,
      file ∉ seen ∧ ∃ inclusion ∈ inclusions, resolve? inclusion = some file) ∧
    (ofInclusions resolve? main seen inclusions).includes.Nodup := by
  induction inclusions generalizing seen with
  | nil => simp [ofInclusions]
  | cons inclusion rest ih =>
    unfold ofInclusions
    split
    · refine ⟨fun file member => ?_, ih.2⟩
      obtain ⟨fresh, other, inside, found⟩ := ih.1 file member
      exact ⟨fresh, other, List.mem_cons_of_mem _ inside, found⟩
    · rename_i file found
      split
      · refine ⟨fun other member => ?_, ih.2⟩
        obtain ⟨fresh, source, inside, found⟩ := ih.1 other member
        exact ⟨fresh, source, List.mem_cons_of_mem _ inside, found⟩
      · rename_i new
        have below := @ih (seen ++ [file])
        refine ⟨fun other member => ?_, List.nodup_cons.mpr ⟨fun member => ?_, below.2⟩⟩
        · rcases List.mem_cons.mp member with rfl | member
          · exact ⟨fun inside => new (.inr inside), inclusion, List.mem_cons_self, found⟩
          · obtain ⟨fresh, source, inside, found⟩ := below.1 other member
            exact ⟨fun inside => fresh (List.mem_append_left _ inside), source,
              List.mem_cons_of_mem _ inside, found⟩
        · exact (below.1 file member).1 (by simp)

def inclusions (text : String) : List Inclusion :=
  (Directive.ofText text).map Directive.toInclusion

def directoryOf (file : Path) : Path := file.parent?.getD ⟨"/"⟩

/-- What one file of a closure adds; a file that cannot be read adds nothing. -/
def ofFile (files : VisibleFiles) (search : SearchDirectories) (main : Path) (seen : List Path)
    (file : Path) : Closure :=
  match files.text? file with
  | none => ⟨[], []⟩
  | some text =>
    ofInclusions (files.resolve? search (directoryOf file)) main seen (inclusions text)

theorem length_unseen_ofFile (files : VisibleFiles) (search : SearchDirectories) (main : Path)
    (seen : List Path) (file : Path) :
    let added := (ofFile files search main seen file).includes
    (files.unseen (seen ++ added)).length + added.length ≤ (files.unseen seen).length := by
  intro added
  have facts : (∀ file ∈ added, file ∉ seen ∧ file ∈ files.existing) ∧ added.Nodup := by
    simp only [added, ofFile]
    split
    · simp
    · refine ⟨fun other member => ?_, includes_ofInclusions.2⟩
      obtain ⟨fresh, _, _, found⟩ := includes_ofInclusions.1 other member
      exact ⟨fresh, VisibleFiles.mem_existing_of_resolve? found⟩
  exact VisibleFiles.length_unseen_append (fun other member => (facts.1 other member).2)
    (fun other member => (facts.1 other member).1) facts.2

/-- What the files of a queue add to the files already seen, and what those add in turn. -/
def ofQueue (files : VisibleFiles) (search : SearchDirectories) (main : Path) (seen : List Path) :
    List Path → Closure
  | [] => ⟨[], []⟩
  | file :: queue =>
    let added := ofFile files search main seen file
    added.append (ofQueue files search main (seen ++ added.includes) (queue ++ added.includes))
termination_by queue => (files.unseen seen).length + queue.length
decreasing_by
  have := length_unseen_ofFile files search main seen file
  simp only [List.length_append, List.length_cons] at *
  omega

def ofMain (files : VisibleFiles) (search : SearchDirectories) (main : Path) : Closure :=
  ofQueue files search main [] [main]

end Closure

end UnitCache
