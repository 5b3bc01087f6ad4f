import UnitCache.Disk.Basic
import UnitCache.FileRole
import UnitCache.Path.Components

/-! The keys of a cache. A key is looked up again while an operation runs, each time
made absolute anew, so making a path absolute twice must do no more than once. -/

namespace UnitCache

theorem Path.normalize_of_same {left right : Path} (same : left.Same right) :
    left.normalize = right.normalize := by
  rw [normalize, normalize, show left.components = right.components from same]

theorem Path.eq_of_same {left right : Path} (leftNormal : left.normalize = left)
    (rightNormal : right.normalize = right) (same : left.Same right) : left = right := by
  rw [← leftNormal, ← rightNormal, normalize_of_same same]

end UnitCache

namespace UnitCache.Proofs.CanonicalPath
open UnitCache.Path

/-- A path that stands for itself, wherever it is seen from. -/
structure IsCanonical (path : Path) : Prop where
  absolute : path.isAbsolute = true
  normal : path.normalize = path

private theorem foldl_push_parents (count : Nat) :
    (List.replicate count Component.parent).foldl push [] = List.replicate count .parent := by
  induction count with
  | zero => rfl
  | succ count ih =>
    rw [List.replicate_succ', List.foldl_append, ih]
    cases count with
    | zero => rfl
    | succ count =>
      rw [← List.replicate_succ' (n := count + 1)]
      rfl

private theorem foldr_push_names {names base : List Component}
    (named : ∀ step ∈ names, step.IsBodyStep ∧ step ≠ .parent) :
    names.foldr (fun step steps => push steps step) base = names ++ base := by
  induction names with
  | nil => rfl
  | cons step rest ih =>
    have first := named step List.mem_cons_self
    rw [List.foldr_cons, ih fun other member => named other (List.mem_cons_of_mem _ member)]
    cases step with
    | name text => rfl
    | parent => exact absurd rfl first.2
    | root => exact first.1.elim
    | current => exact first.1.elim

theorem foldl_push_of_isReduced {steps : List Component} (reduced : IsReduced steps.reverse) :
    steps.foldl push [] = steps.reverse := by
  obtain ⟨names, base, split, named, bottom⟩ := reduced
  have whole : steps = base.reverse ++ names.reverse := by
    rw [← List.reverse_reverse steps, split, List.reverse_append]
  have start : base.reverse.foldl push [] = base := by
    rcases bottom with rfl | parents
    · rfl
    · rw [List.eq_replicate_of_mem parents, List.reverse_replicate, foldl_push_parents]
  rw [split, whole, List.foldl_append, start, List.foldl_reverse, foldr_push_names named]

theorem normalize_normalize (path : Path) : path.normalize.normalize = path.normalize := by
  have steps : path.normalize.reducedSteps = path.normalize.components := by
    have reduced := path.isReduced_reducedSteps
    rw [← components_normalize] at reduced
    rw [reducedSteps, foldl_push_of_isReduced reduced, List.reverse_reverse]
  rw [normalize_eq_ofComponents path.normalize, components_normalize, steps,
    ← normalize_eq_ofComponents]

theorem components_head_root {path : Path} (absolute : path.isAbsolute = true) :
    ∃ rest, path.components = .root :: rest ∧ ∀ step ∈ rest, step.IsBodyStep := by
  unfold isAbsolute at absolute
  unfold components
  cases shape : path.text.toList with
  | nil => simp [shape] at absolute
  | cons first body =>
    obtain rfl : first = '/' := by simpa [shape] using absolute
    exact ⟨_, rfl, fun _ => isBodyStep_of_mem_pieces⟩

private theorem getLast?_push {stack : List Component} {step : Component}
    (bottom : stack.getLast? = some .root) (body : step.IsBodyStep) :
    (push stack step).getLast? = some .root := by
  obtain ⟨first, rest, rfl⟩ := List.exists_cons_of_ne_nil (l := stack) (by rintro rfl; cases bottom)
  cases step with
  | root => exact body.elim
  | current => exact body.elim
  | name text => simpa [push, List.getLast?_cons_cons] using bottom
  | parent =>
    cases first with
    | root => exact bottom
    | current => simpa [push, List.getLast?_cons_cons] using bottom
    | parent => simpa [push, List.getLast?_cons_cons] using bottom
    | name text =>
      cases rest with
      | nil => cases bottom
      | cons second others => simpa [push, List.getLast?_cons_cons] using bottom

private theorem getLast?_foldl_push {steps stack : List Component}
    (bottom : stack.getLast? = some .root) (body : ∀ step ∈ steps, step.IsBodyStep) :
    (steps.foldl push stack).getLast? = some .root := by
  induction steps generalizing stack with
  | nil => exact bottom
  | cons step rest ih =>
    exact ih (getLast?_push bottom (body step List.mem_cons_self))
      fun other member => body other (List.mem_cons_of_mem _ member)

theorem isAbsolute_normalize {path : Path} (absolute : path.isAbsolute = true) :
    path.normalize.isAbsolute = true := by
  obtain ⟨rest, shape, body⟩ := components_head_root absolute
  have bottom : (path.components.foldl push []).getLast? = some .root := by
    rw [shape]
    exact @getLast?_foldl_push rest [.root] rfl body
  have head : path.reducedSteps.head? = some .root := by
    rwa [reducedSteps, List.head?_reverse]
  obtain ⟨names, split⟩ := List.head?_eq_some_iff.mp head
  have spelled : path.normalize = ofComponents (.root :: names) := by
    rw [← split, Path.normalize, reducedSteps]
  simp [spelled, isAbsolute, ofComponents]

theorem isAbsolute_join {left right : Path} (absolute : left.isAbsolute = true) :
    (left.join right).isAbsolute = true := by
  unfold join
  split
  · assumption
  · unfold isAbsolute at absolute ⊢
    obtain ⟨rest, shape⟩ := List.head?_eq_some_iff.mp (of_decide_eq_true absolute)
    split <;> simp [String.toList_append, shape]

private theorem isAbsolute_pathOf (location : Location) :
    (Disk.pathOf location).isAbsolute = true := by
  simp [Disk.pathOf, isAbsolute, ofComponents]

theorem text_ne_empty {path : Path} (absolute : path.isAbsolute = true) : path.text ≠ "" := by
  intro empty
  simp [isAbsolute, empty] at absolute

/-- A canonical path is the same from every directory, and without one. -/
theorem IsCanonical.absolute_eq {path : Path} (canonical : IsCanonical path) (disk : Disk) :
    disk.absolute path = path := by
  unfold Disk.absolute
  split
  · rw [if_neg (text_ne_empty canonical.absolute), join, if_pos canonical.absolute,
      canonical.normal]
  · exact canonical.normal

private theorem isCanonical_absolute {disk : Disk} {path : Path}
    (placed : disk.workingDirectory.isSome = true) (named : path.text ≠ "") :
    IsCanonical (disk.absolute path) := by
  obtain ⟨location, place⟩ := Option.isSome_iff_exists.mp placed
  have spelled : disk.absolute path = ((Disk.pathOf location).join path).normalize := by
    simp [Disk.absolute, place, named]
  rw [spelled]
  exact ⟨isAbsolute_normalize (isAbsolute_join (isAbsolute_pathOf location)), normalize_normalize _⟩

theorem normalize_absolute (disk : Disk) (path : Path) :
    (disk.absolute path).normalize = disk.absolute path := by
  unfold Disk.absolute
  split
  · split <;> exact normalize_normalize _
  · exact normalize_normalize _

private theorem absolute_empty (disk : Disk) : disk.absolute ⟨""⟩ = ⟨""⟩ := by
  have empty : (Path.mk "").normalize = ⟨""⟩ := by decide
  unfold Disk.absolute
  split
  · exact empty
  · exact empty

/-- A path that has been made absolute is found again under what it was made. -/
theorem absolute_absolute (disk : Disk) (path : Path) :
    disk.absolute (disk.absolute path) = disk.absolute path := by
  cases placed : disk.workingDirectory with
  | none =>
    have lexical : disk.absolute (disk.absolute path) = (disk.absolute path).normalize := by
      rw [Disk.absolute, placed]
    rw [lexical, normalize_absolute]
  | some location =>
    by_cases named : path.text = ""
    · obtain ⟨text⟩ := path
      obtain rfl : text = "" := named
      rw [absolute_empty, absolute_empty]
    · exact (isCanonical_absolute (by rw [placed]; rfl) named).absolute_eq disk

/-- Wherever there is a working directory, a source file has a canonical path. -/
theorem isCanonical_of_isSource {disk : Disk} {path : Path}
    (placed : disk.workingDirectory.isSome = true)
    (source : (FileRole.ofPath (disk.absolute path)).isSource = true) :
    IsCanonical (disk.absolute path) := by
  apply isCanonical_absolute placed
  intro empty
  obtain ⟨text⟩ := path
  obtain rfl : text = "" := empty
  rw [absolute_empty] at source
  exact absurd source (by decide)

end UnitCache.Proofs.CanonicalPath
