import Mathlib.Data.List.Find
import UnitCache.Config
import UnitCache.Proofs.PathAncestors

/-! Which configuration is found from a directory. The search goes back along the path as it is
written and looks into every directory that the path leads through. These are the directory itself
and all that enclose it, the nearest first, but also those that the path goes down into and leaves by
a `..` again, and a configuration in one of these is found as well. -/

namespace UnitCache

private theorem Component.ofPiece?_ne_root (piece : List Char) : ofPiece? piece ≠ some .root := by
  unfold ofPiece?
  split <;> simp

namespace Disk
open UnitCache.Path Place Proofs.CanonicalPath

def hasFile (disk : Disk) (location : Location) : Bool :=
  match disk.node? location with
  | some (.file ..) => true
  | _ => false

variable {disk : Disk} {path parent passed : Path} {here reached : Location}

private theorem follow_append (disk : Disk) (location : Location) (node : Node)
    (first last : List (List Char)) :
    disk.follow location node (first ++ last) =
      (disk.follow location node first).bind fun (place, found) => disk.follow place found last := by
  induction first generalizing location node with
  | nil => rw [List.nil_append, follow]; rfl
  | cons piece rest ih =>
    cases node with
    | file => rfl
    | directory =>
      simp only [List.cons_append, follow]
      split
      · exact ih ..
      · split
        · rfl
        · split
          · rfl
          · exact ih ..
      · exact ih ..

theorem place_of_follow {pieces : List (List Char)} {location : Location} {node last : Node}
    (followed : disk.follow location node pieces = .ok (reached, last)) :
    pieces.foldl walk (.absolute location.reverse) = .absolute reached.reverse := by
  induction pieces generalizing location node with
  | nil =>
    rw [follow] at followed
    cases followed
    rfl
  | cons piece rest ih =>
    cases node with
    | file => cases followed
    | directory =>
      rw [List.foldl_cons, walk_eq_step]
      cases read : Component.ofPiece? piece with
      | none =>
        simp only [follow, read] at followed
        exact ih followed
      | some step =>
        cases step with
        | root => exact absurd read (Component.ofPiece?_ne_root piece)
        | current =>
          simp only [follow, read] at followed
          exact ih followed
        | parent =>
          simp only [follow, read] at followed
          have above := ih followed
          rwa [← List.tail_reverse] at above
        | name text =>
          simp only [follow, read] at followed
          split at followed
          · cases followed
          · split at followed
            · cases followed
            · have below := ih followed
              rwa [List.reverse_concat] at below

section Resolving

variable {body : List Char}

private theorem resolve_of_rooted (shape : path.text.toList = '/' :: body)
    (clean : '\x00' ∉ path.text.toList) (short : path.text.utf8ByteSize < longestPath) :
    disk.resolve path = disk.follow [] .directory (pieces body) := by
  rw [resolve, if_neg clean, if_neg (by omega)]
  simp only [shape]

private theorem follow_of_resolve {found : Location × Node} (shape : path.text.toList = '/' :: body)
    (there : disk.resolve path = .ok found) :
    '\x00' ∉ path.text.toList ∧ path.text.utf8ByteSize < longestPath ∧
      disk.follow [] .directory (pieces body) = .ok found := by
  unfold resolve at there
  split at there
  · cases there
  · rename_i clean
    split at there
    · cases there
    · rename_i short
      simp only [shape] at there
      exact ⟨clean, by omega, there⟩

/-- An absolute path leads, if anywhere, to where its normal form says. -/
theorem location_of_resolve {node : Node} (absolute : path.isAbsolute = true)
    (there : disk.resolve path = .ok (here, node)) : path.location = here := by
  obtain ⟨body, shape⟩ := exists_rooted absolute
  obtain ⟨_, _, followed⟩ := follow_of_resolve shape there
  have split : pieces ('/' :: body) = [] :: pieces body := by
    simp [pieces, List.splitOn_cons_eq_if_modifyHead]
  have place : path.place = .absolute here.reverse := by
    rw [Path.place, absolute, shape, split]
    exact place_of_follow followed
  rw [location_of_place place, List.reverse_reverse]

theorem exists_follow_before {before dropped : List (List Char)} {found : Location × Node}
    (some : dropped ≠ []) (followed : disk.follow [] .directory (before ++ dropped) = .ok found) :
    ∃ place, disk.follow [] .directory before = .ok (place, .directory) := by
  rw [follow_append] at followed
  cases first : disk.follow [] .directory before with
  | error error =>
    rw [first] at followed
    cases followed
  | ok middle =>
    obtain ⟨place, node⟩ := middle
    cases node with
    | directory => exact ⟨place, rfl⟩
    | file =>
      obtain ⟨piece, rest, rfl⟩ := List.exists_cons_of_ne_nil some
      rw [first] at followed
      cases followed

private theorem follow_pieces_intercalate {before : List (List Char)}
    (clean : ∀ piece ∈ before, '/' ∉ piece) (location : Location) :
    disk.follow location .directory (pieces (['/'].intercalate before)) =
      disk.follow location .directory before := by
  cases before with
  | nil => rfl
  | cons first rest => rw [pieces_intercalate clean (by simp)]

theorem follow_of_closed {before : List Char}
    (followed : disk.follow [] .directory (pieces (before ++ ['/'])) = .ok (here, .directory)) :
    disk.follow [] .directory (pieces before) = .ok (here, .directory) := by
  rw [pieces_append_slash, follow_append] at followed
  cases reached : disk.follow [] .directory (pieces before) with
  | error error =>
    rw [reached] at followed
    cases followed
  | ok found =>
    obtain ⟨place, node⟩ := found
    rw [reached] at followed
    cases node with
    | file => cases followed
    | directory =>
      cases followed
      rfl

private theorem resolve_parent? {found : Location × Node} (absolute : path.isAbsolute = true)
    (above : path.parent? = some parent) (there : disk.resolve path = .ok found) :
    disk.resolve parent = .ok (parent.location, .directory) := by
  obtain ⟨body, shape⟩ := exists_rooted absolute
  obtain ⟨clean, short, followed⟩ := follow_of_resolve shape there
  obtain ⟨before, dropped, split, some, spelled⟩ := pieces_parent? shape above
  obtain ⟨rest, longer, _⟩ := text_parent? absolute above
  rw [longer, String.toList_append] at clean
  rw [longer, String.utf8ByteSize_append] at short
  rw [split] at followed
  obtain ⟨place, reaches⟩ := exists_follow_before some followed
  have unslashed : ∀ piece ∈ before, '/' ∉ piece := fun piece member =>
    slash_not_mem_pieces (split ▸ List.mem_append_left dropped member)
  have resolved : disk.resolve parent = .ok (place, .directory) := by
    rw [resolve_of_rooted spelled (fun mark => clean (List.mem_append_left _ mark)) (by omega),
      follow_pieces_intercalate unslashed, reaches]
  rw [resolved, location_of_resolve (isAbsolute_parent? absolute above) resolved]

end Resolving

section Names

structure IsFileName (name : String) : Prop where
  step : (Component.name name).IsBodyStep
  unmarked : '\x00' ∉ name.toList
  fits : name.utf8ByteSize ≤ longestName

variable {name : String} (proper : IsFileName name)
include proper

private theorem IsFileName.isAbsolute_eq : (⟨name⟩ : Path).isAbsolute = false := by
  rw [Path.isAbsolute, decide_eq_false_iff_not]
  intro rooted
  exact proper.step.2 (List.mem_of_mem_head? rooted)

private theorem IsFileName.pieces_eq : pieces name.toList = [name.toList] := by
  have alone : ∀ piece ∈ [name.toList], '/' ∉ piece := by simpa using proper.step.2
  have spelled : ['/'].intercalate [name.toList] = name.toList := by simp [List.intercalate]
  rw [← pieces_intercalate alone (by simp), spelled]

private theorem follow_name (location : Location) :
    disk.follow location .directory [name.toList] =
      match disk.node? (location ++ [name]) with
      | none => .error .notFound
      | some node => .ok (location ++ [name], node) := by
  have fits : ¬longestName < name.utf8ByteSize := Nat.not_lt.mpr proper.fits
  cases found : disk.node? (location ++ [name]) <;>
    simp only [follow, proper.step.1, if_neg fits, found]

/-- A name stands behind a separator, which is added where the path does not end in one. -/
theorem text_join (absolute : path.isAbsolute = true) :
    ∃ gap, (path.join ⟨name⟩).text = path.text ++ gap ++ name ∧
      (gap = "/" ∨ gap = "" ∧ ∃ before, path.text.toList = before ++ ['/']) := by
  have nonempty : path.text ≠ "" := text_ne_empty absolute
  rw [join, if_neg (by simp [proper.isAbsolute_eq])]
  by_cases closed : path.text.toList.getLast? = some '/'
  · rw [if_pos (by simp [closed])]
    exact ⟨"", by simp, .inr ⟨rfl, List.getLast?_eq_some_iff.mp closed⟩⟩
  · rw [if_neg (by simp [closed, nonempty])]
    exact ⟨"/", rfl, .inl rfl⟩

theorem resolve_join (absolute : path.isAbsolute = true)
    (there : disk.resolve path = .ok (here, .directory))
    (short : (path.join ⟨name⟩).text.utf8ByteSize < longestPath) :
    disk.resolve (path.join ⟨name⟩) = disk.follow here .directory [name.toList] := by
  obtain ⟨body, shape⟩ := exists_rooted absolute
  obtain ⟨clean, _, followed⟩ := follow_of_resolve shape there
  obtain ⟨gap, joined, gaps⟩ := text_join proper absolute
  have spelled := congrArg String.toList joined
  simp only [String.toList_append, shape, List.cons_append] at spelled
  have unmarked : '\x00' ∉ (path.join ⟨name⟩).text.toList := by
    rw [joined, String.toList_append, String.toList_append, List.mem_append, List.mem_append]
    rcases gaps with rfl | ⟨rfl, _⟩ <;> simp [clean, proper.unmarked]
  rw [resolve_of_rooted spelled unmarked short]
  have onward : ∀ before, disk.follow [] .directory (pieces before) = .ok (here, .directory) →
      disk.follow [] .directory (pieces (before ++ '/' :: name.toList)) =
        disk.follow here .directory [name.toList] := by
    intro before reached
    rw [pieces_append_slash, proper.pieces_eq, follow_append, reached]
    rfl
  rcases gaps with rfl | ⟨rfl, before, ended⟩
  · rw [List.append_assoc]
    exact onward body followed
  · rw [shape] at ended
    cases before with
    | nil =>
      obtain rfl : body = [] := (List.cons.inj ended).2
      cases followed
      exact congrArg _ proper.pieces_eq
    | cons first rest =>
      obtain rfl : body = rest ++ ['/'] := (List.cons.inj ended).2
      have same : rest ++ ['/'] ++ "".toList ++ name.toList = rest ++ '/' :: name.toList := by simp
      rw [same]
      exact onward rest (follow_of_closed followed)

private theorem isFile_join (absolute : path.isAbsolute = true)
    (there : disk.resolve path = .ok (here, .directory))
    (short : (path.join ⟨name⟩).text.utf8ByteSize < longestPath) :
    disk.isFile (path.join ⟨name⟩) = disk.hasFile (here ++ [name]) := by
  rw [isFile, hasFile, resolve_join proper absolute there short, follow_name proper]
  cases disk.node? (here ++ [name]) with
  | none => rfl
  | some node => cases node <;> rfl

private theorem location_join (absolute : path.isAbsolute = true) :
    (path.join ⟨name⟩).location = path.location ++ [name] := by
  have below : (⟨name⟩ : Path).place = .relative 0 [name] := by
    rw [Path.place, proper.isAbsolute_eq, proper.pieces_eq]
    simp [walk_eq_step, proper.step.1, step, down]
  have place : (path.join ⟨name⟩).place = .absolute (name :: path.location.reverse) := by
    rw [place_join, below, place_of_isAbsolute absolute]
    rfl
  rw [location_of_place place, List.reverse_cons, List.reverse_reverse]

private theorem utf8ByteSize_join (absolute : path.isAbsolute = true) :
    path.text.utf8ByteSize + name.utf8ByteSize ≤ (path.join ⟨name⟩).text.utf8ByteSize ∧
    (path.join ⟨name⟩).text.utf8ByteSize ≤ path.text.utf8ByteSize + 1 + name.utf8ByteSize := by
  obtain ⟨gap, joined, gaps⟩ := text_join proper absolute
  have bytes : gap.utf8ByteSize ≤ 1 := by
    rcases gaps with rfl | ⟨rfl, _⟩ <;> decide
  rw [joined, String.utf8ByteSize_append, String.utf8ByteSize_append]
  omega

/-- Where a path leads to a directory, so does every path that it leads through, and a name may be
looked up in each if the path itself is not too long for that. -/
theorem isFile_join_ancestor (absolute : path.isAbsolute = true)
    (there : disk.resolve path = .ok (here, .directory))
    (short : (path.join ⟨name⟩).text.utf8ByteSize < longestPath) (member : passed ∈ path.ancestors) :
    passed.isAbsolute = true ∧
      disk.isFile (passed.join ⟨name⟩) = disk.hasFile (passed.location ++ [name]) := by
  induction path using ancestors.induct generalizing here with
  | case1 path top =>
    rw [ancestors_of_top top, List.mem_singleton] at member
    rw [member, isFile_join proper absolute there short, location_of_resolve absolute there]
    exact ⟨absolute, rfl⟩
  | case2 path parent found ih =>
    rw [ancestors_of_parent found] at member
    rcases List.mem_cons.mp member with rfl | earlier
    · rw [isFile_join proper absolute there short, location_of_resolve absolute there]
      exact ⟨absolute, rfl⟩
    · have rooted := isAbsolute_parent? absolute found
      refine ih rooted (resolve_parent? absolute found there) ?_ earlier
      obtain ⟨rest, longer, some⟩ := text_parent? absolute found
      have bytes : rest.utf8ByteSize ≠ 0 := mt String.utf8ByteSize_eq_zero_iff.mp some
      have above := (utf8ByteSize_join proper rooted).2
      have below := (utf8ByteSize_join proper absolute).1
      rw [longer, String.utf8ByteSize_append] at below
      omega

end Names

end Disk

namespace Config
open Disk UnitCache.Path

variable {disk : Disk} {start : Path} {here : Location}

def isIn (disk : Disk) (place : Location) : Bool := disk.hasFile (place ++ [fileName])

/-- The file is the configuration of the nearest directory that has one, of a directory and those
that enclose it. -/
structure IsNearest (disk : Disk) (here : Location) (found : Path) : Prop where
  file : disk.isFile found = true
  enclosing : ∃ place, found.location = place ++ [fileName] ∧ place <+: here ∧
    ∀ between, between <+: here → place <+: between → between ≠ place → isIn disk between = false

/-- From a path that leads to a directory, its nearest configuration is found, and none only if there
is none. -/
structure FindsNearest (disk : Disk) (start : Path) (here : Location) : Prop where
  nearest : ∀ found, find? disk start = some found → IsNearest disk here found
  none_iff : find? disk start = none ↔ ∀ place, place <+: here → isIn disk place = false

private theorem isFileName_fileName : IsFileName fileName :=
  ⟨⟨by decide, by decide⟩, by decide, by decide⟩

def firstPassed? (disk : Disk) (start : Path) : Option Path :=
  start.ancestors.find? fun passed => isIn disk passed.location

section Search

variable (absolute : start.isAbsolute = true) (there : disk.resolve start = .ok (here, .directory))
  (short : (start.join ⟨fileName⟩).text.utf8ByteSize < longestPath)
include absolute there short

private theorem find?_eq :
    find? disk start = (firstPassed? disk start).map (·.join ⟨fileName⟩) := by
  rw [find?, List.find?_map, firstPassed?]
  congr 1
  exact List.find?_congr fun passed member =>
    (isFile_join_ancestor isFileName_fileName absolute there short member).2

private theorem location_of_nearest {passed : Path} (first : firstPassed? disk start = some passed)
    (nearest : IsNearest disk here (passed.join ⟨fileName⟩)) : passed.location <+: here := by
  have member := List.mem_of_find?_eq_some first
  have rooted := (isFile_join_ancestor isFileName_fileName absolute there short member).1
  obtain ⟨place, same, encloses, _⟩ := nearest.enclosing
  rw [location_join isFileName_fileName rooted] at same
  rwa [List.append_cancel_right same]

/-- What is first on the way back and encloses the path is the nearest, as all that lies between is
passed before. -/
theorem isNearest_of_enclosing {passed : Path} (first : firstPassed? disk start = some passed)
    (encloses : passed.location <+: here) : IsNearest disk here (passed.join ⟨fileName⟩) := by
  have member := List.mem_of_find?_eq_some first
  obtain ⟨configured, before, after, way, unseen⟩ := List.find?_eq_some_iff_append.mp first
  obtain ⟨rooted, looked⟩ := isFile_join_ancestor isFileName_fileName absolute there short member
  refine ⟨looked.trans configured, passed.location,
    location_join isFileName_fileName rooted, encloses, ?_⟩
  intro between within above apart
  have outside : ¬between <+: passed.location := fun below =>
    apart (below.eq_of_length_le above.length_le)
  obtain ⟨earlier, passedBefore, rfl⟩ :=
    exists_before absolute way (location_of_resolve absolute there ▸ within) outside
  simpa using unseen earlier passedBefore

private theorem findsNearest_iff :
    FindsNearest disk start here ↔
      ∀ passed, firstPassed? disk start = some passed → passed.location <+: here := by
  constructor
  · intro finds passed first
    have found : find? disk start = some (passed.join ⟨fileName⟩) := by
      rw [find?_eq absolute there short, first]
      rfl
    exact location_of_nearest absolute there short first (finds.nearest _ found)
  · intro enclosing
    refine ⟨fun found search => ?_, ?_⟩
    · rw [find?_eq absolute there short, Option.map_eq_some_iff] at search
      obtain ⟨passed, first, rfl⟩ := search
      exact isNearest_of_enclosing absolute there short first (enclosing passed first)
    · rw [find?_eq absolute there short, Option.map_eq_none_iff]
      constructor
      · intro none place encloses
        obtain ⟨passed, member, rfl⟩ :=
          exists_ancestor absolute (location_of_resolve absolute there ▸ encloses)
        simpa using List.find?_eq_none.mp none passed member
      · intro clear
        rw [Option.eq_none_iff_forall_ne_some]
        intro passed first
        have configured := List.find?_some first
        rw [clear _ (enclosing passed first)] at configured
        cases configured

end Search

/-- From an absolute path that leads to a directory the nearest configuration is found exactly if the
first directory with a configuration on the way back encloses the path, as all do where the path never
goes up. The path must leave room for the name: too long a path leads to no file. -/
theorem nearest_configuration_is_found_iff
    (absolute : start.isAbsolute = true) (there : disk.resolve start = .ok (here, .directory))
    (short : (start.join ⟨fileName⟩).text.utf8ByteSize < longestPath) :
    start.location = here ∧
    (FindsNearest disk start here ↔
      ∀ passed, firstPassed? disk start = some passed → passed.location <+: here) ∧
    (.parent ∉ start.components → FindsNearest disk start here) := by
  have same := location_of_resolve absolute there
  refine ⟨same, findsNearest_iff absolute there short, fun rising => ?_⟩
  rw [findsNearest_iff absolute there short]
  intro passed first
  rw [← same]
  exact location_of_mem_ancestors absolute rising (List.mem_of_find?_eq_some first)

def sideBySide : Disk :=
  ⟨[(["b"], .directory), (["b", "tuindex.toml"], .file (some "") 0), (["c"], .directory)],
    some [], [], 0⟩

/-- A directory that the path goes up from again lies beside the one that it leads to, and so does
the configuration in it. -/
theorem configuration_beside_start_is_found :
    (⟨"/b/../c"⟩ : Path).isAbsolute = true ∧
      sideBySide.resolve ⟨"/b/../c"⟩ = .ok (["c"], .directory) ∧
      find? sideBySide ⟨"/b/../c"⟩ = some ⟨"/b/tuindex.toml"⟩ ∧
      ¬FindsNearest sideBySide ⟨"/b/../c"⟩ ["c"] := by
  have found : find? sideBySide ⟨"/b/../c"⟩ = some ⟨"/b/tuindex.toml"⟩ := by decide +kernel
  have location : (⟨"/b/tuindex.toml"⟩ : Path).location = ["b"] ++ [fileName] := by decide +kernel
  refine ⟨by decide, by decide +kernel, found, fun finds => ?_⟩
  obtain ⟨place, same, encloses, _⟩ := (finds.nearest _ found).enclosing
  rw [← List.append_cancel_right (location.symm.trans same)] at encloses
  exact absurd encloses (by decide)

def belowConfigured : Disk :=
  ⟨[(["a"], .directory), (["a", "tuindex.toml"], .file (some "") 0), (["a", "b"], .directory),
    (["a", "c"], .directory)], some [], [], 0⟩

theorem configuration_above_start_is_found :
    belowConfigured.resolve ⟨"/a/c/../b/."⟩ = .ok (["a", "b"], .directory) ∧
      find? belowConfigured ⟨"/a/c/../b/."⟩ = some ⟨"/a/c/../tuindex.toml"⟩ ∧
      FindsNearest belowConfigured ⟨"/a/c/../b/."⟩ ["a", "b"] := by
  have there : belowConfigured.resolve ⟨"/a/c/../b/."⟩ = .ok (["a", "b"], .directory) := by
    decide +kernel
  have first : firstPassed? belowConfigured ⟨"/a/c/../b/."⟩ = some ⟨"/a/c/.."⟩ := by
    decide +kernel
  obtain ⟨_, nearest_iff, _⟩ :=
    nearest_configuration_is_found_iff (by decide) there (by decide +kernel)
  refine ⟨there, by decide +kernel, nearest_iff.mpr fun passed search => ?_⟩
  obtain rfl := Option.some.inj (first.symm.trans search)
  decide +kernel

end Config

end UnitCache
