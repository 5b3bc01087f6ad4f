import UnitCache.Proofs.LexicalPlace

/-! The directories that an absolute path leads through, from its end back to the root. One step back
along a path goes to the directory above, or, where the step is a `..`, down into a directory that
the path left. So the way back passes every directory that encloses the end, the nearest first, and
in between it may stray into others. -/

namespace UnitCache.Path
open Place Proofs.CanonicalPath

variable {path parent : Path}

theorem location_of_place {names : List String} (place : path.place = .absolute names) :
    path.location = names.reverse := by
  rw [location, components_normalize_eq, place, steps, List.reverse_append, ← List.map_reverse,
    List.reverse_singleton, List.singleton_append, List.filterMap_cons_none rfl, List.filterMap_map]
  exact List.filterMap_some

theorem place_of_isAbsolute (absolute : path.isAbsolute = true) :
    path.place = .absolute path.location.reverse := by
  cases place : path.place with
  | absolute names => rw [location_of_place place, List.reverse_reverse]
  | relative =>
    rw [← isAbsolute_place, place] at absolute
    cases absolute

theorem exists_rooted (absolute : path.isAbsolute = true) :
    ∃ body, path.text.toList = '/' :: body :=
  List.head?_eq_some_iff.mp (of_decide_eq_true absolute)

theorem pieces_parent? {body : List Char} (shape : path.text.toList = '/' :: body)
    (found : path.parent? = some parent) :
    ∃ before dropped, pieces body = before ++ dropped ∧ dropped ≠ [] ∧
      parent.text.toList = '/' :: ['/'].intercalate before := by
  simp only [parent?, shape, Option.map_eq_some_iff] at found
  obtain ⟨before, dropped, rfl⟩ := found
  obtain ⟨rest, split⟩ := dropStep?_isPrefix dropped
  refine ⟨before, rest, split.symm, ?_, String.toList_ofList⟩
  rintro rfl
  rw [List.append_nil] at split
  have fewer := congrArg List.length (filterMap_dropStep? dropped)
  have some := List.length_pos_iff.mpr (filterMap_ne_nil_of_dropStep? dropped)
  rw [split, List.length_dropLast] at fewer
  omega

theorem isAbsolute_parent? (absolute : path.isAbsolute = true)
    (found : path.parent? = some parent) : parent.isAbsolute = true := by
  obtain ⟨body, shape⟩ := exists_rooted absolute
  obtain ⟨before, _, _, _, spelled⟩ := pieces_parent? shape found
  simp [isAbsolute, spelled]

private theorem prefix_intercalate (before : List (List Char)) {dropped : List (List Char)}
    (some : dropped ≠ []) :
    ['/'].intercalate before <+: ['/'].intercalate (before ++ dropped) := by
  induction before with
  | nil => exact List.nil_prefix
  | cons first rest ih =>
    cases rest with
    | nil =>
      obtain ⟨second, others, rfl⟩ := List.exists_cons_of_ne_nil some
      rw [List.singleton_append, List.intercalate_cons_cons, List.append_assoc]
      simp [List.intercalate]
    | cons second others =>
      simp only [List.cons_append, List.intercalate_cons_cons]
      exact (List.prefix_append_right_inj _).mpr ih

theorem text_parent? (absolute : path.isAbsolute = true) (found : path.parent? = some parent) :
    ∃ rest, path.text = parent.text ++ rest ∧ rest ≠ "" := by
  obtain ⟨body, shape⟩ := exists_rooted absolute
  obtain ⟨before, dropped, split, some, spelled⟩ := pieces_parent? shape found
  have whole : ['/'].intercalate (before ++ dropped) = body := split ▸ List.intercalate_splitOn '/'
  obtain ⟨rest, longer⟩ := prefix_intercalate before some
  have texts : path.text = parent.text ++ String.ofList rest := by
    apply String.toList_injective
    rw [shape, String.toList_append, spelled, String.toList_ofList, List.cons_append, longer, whole]
  refine ⟨String.ofList rest, texts, fun none => ?_⟩
  rw [none, String.append_empty] at texts
  have shorter := length_components_parent? found
  simp [components, texts] at shorter

theorem location_of_parent?_eq_none (absolute : path.isAbsolute = true)
    (top : path.parent? = none) : path.location = [] := by
  obtain ⟨body, shape⟩ := exists_rooted absolute
  simp only [parent?, shape, Option.map_eq_none_iff] at top
  have components : path.components = [.root] := by
    simp only [Path.components, shape, filterMap_eq_nil_of_dropStep? top]
  have place : path.place = .absolute [] := by
    rw [place_eq_foldl_step, components]
    rfl
  exact location_of_place place

theorem place_parent? (absolute : path.isAbsolute = true) (found : path.parent? = some parent) :
    ∃ last, path.components = parent.components ++ [last] ∧ last.IsBodyStep ∧
      path.place = parent.place.step last := by
  obtain ⟨before, nonempty⟩ := components_parent? found
  obtain ⟨last, whole⟩ : ∃ last, path.components = parent.components ++ [last] :=
    ⟨_, by rw [before, List.dropLast_concat_getLast nonempty]⟩
  refine ⟨last, whole, ?_, ?_⟩
  · obtain ⟨others, shape, body⟩ := components_head_root absolute
    obtain ⟨steps, rooted, _⟩ := components_head_root (isAbsolute_parent? absolute found)
    rw [rooted, shape, List.cons_append, List.cons.injEq] at whole
    exact body last (whole.2 ▸ List.mem_concat_self)
  · rw [place_eq_foldl_step, place_eq_foldl_step, whole, List.foldl_append]
    rfl

/-- The parent is the directory above, or one that the path goes up from. -/
theorem location_parent? (absolute : path.isAbsolute = true) (found : path.parent? = some parent) :
    parent.location = path.location.dropLast ∨
      .parent ∈ path.components ∧ path.location = parent.location.dropLast := by
  obtain ⟨last, whole, body, place⟩ := place_parent? absolute found
  rw [place_of_isAbsolute (isAbsolute_parent? absolute found)] at place
  cases last with
  | root => exact body.elim
  | current => exact body.elim
  | name text =>
    left
    rw [location_of_place place]
    simp
  | parent =>
    right
    rw [location_of_place place]
    rw [whole, List.tail_reverse, List.reverse_reverse]
    exact ⟨List.mem_concat_self, rfl⟩

private theorem prefix_dropLast {place other : Location} (encloses : place <+: other)
    (apart : place ≠ other) : place <+: other.dropLast := by
  have shorter : place.length < other.length :=
    Nat.lt_of_le_of_ne encloses.length_le fun same => apart (encloses.eq_of_length same)
  apply List.prefix_of_prefix_length_le encloses (List.dropLast_prefix other)
  rw [List.length_dropLast]
  omega

/-- On the way back from a directory, what encloses it encloses the directory before, too, until it is
reached itself. -/
theorem prefix_location_parent? (absolute : path.isAbsolute = true)
    (found : path.parent? = some parent) {place : Location} (encloses : place <+: path.location)
    (apart : place ≠ path.location) : place <+: parent.location := by
  rcases location_parent? absolute found with above | ⟨_, below⟩
  · rw [above]
    exact prefix_dropLast encloses apart
  · rw [below] at encloses
    exact encloses.trans (List.dropLast_prefix _)

theorem ancestors_of_top (top : path.parent? = none) : path.ancestors = [path] := by
  rw [ancestors.eq_def]
  split
  · rfl
  · rename_i found
    cases top.symm.trans found

theorem ancestors_of_parent (found : path.parent? = some parent) :
    path.ancestors = path :: parent.ancestors := by
  rw [ancestors.eq_def]
  split
  · rename_i top
    cases top.symm.trans found
  · rename_i other same
    rw [Option.some.inj (found.symm.trans same)]

/-- The way back passes a directory that encloses the path before it comes to any that it does not
enclose. -/
theorem exists_before {before after : List Path} {passed : Path} {place : Location}
    (absolute : path.isAbsolute = true) (way : path.ancestors = before ++ passed :: after)
    (encloses : place <+: path.location) (outside : ¬place <+: passed.location) :
    ∃ earlier ∈ before, earlier.location = place := by
  induction path using ancestors.induct generalizing before with
  | case1 path top =>
    rw [ancestors_of_top top] at way
    cases before with
    | nil =>
      obtain rfl := (List.cons.inj way).1
      exact absurd encloses outside
    | cons first rest => simp at way
  | case2 path parent found ih =>
    rw [ancestors_of_parent found] at way
    cases before with
    | nil =>
      obtain rfl := (List.cons.inj way).1
      exact absurd encloses outside
    | cons first rest =>
      obtain ⟨rfl, later⟩ := List.cons.inj way
      by_cases here : place = path.location
      · exact ⟨path, List.mem_cons_self, here.symm⟩
      · obtain ⟨earlier, member, same⟩ := ih (isAbsolute_parent? absolute found) later
          (prefix_location_parent? absolute found encloses here)
        exact ⟨earlier, List.mem_cons_of_mem _ member, same⟩

theorem exists_ancestor (absolute : path.isAbsolute = true) {place : Location}
    (encloses : place <+: path.location) : ∃ passed ∈ path.ancestors, passed.location = place := by
  induction path using ancestors.induct with
  | case1 path top =>
    rw [location_of_parent?_eq_none absolute top, List.prefix_nil] at encloses
    rw [ancestors_of_top top]
    exact ⟨path, List.mem_cons_self,
      (location_of_parent?_eq_none absolute top).trans encloses.symm⟩
  | case2 path parent found ih =>
    rw [ancestors_of_parent found]
    by_cases here : place = path.location
    · exact ⟨path, List.mem_cons_self, here.symm⟩
    · obtain ⟨passed, member, same⟩ := ih (isAbsolute_parent? absolute found)
        (prefix_location_parent? absolute found encloses here)
      exact ⟨passed, List.mem_cons_of_mem _ member, same⟩

/-- A path that never goes up leads through directories that enclose it only. -/
theorem location_of_mem_ancestors (absolute : path.isAbsolute = true)
    (rising : .parent ∉ path.components) {passed : Path} (member : passed ∈ path.ancestors) :
    passed.location <+: path.location := by
  induction path using ancestors.induct with
  | case1 path top =>
    rw [ancestors_of_top top, List.mem_singleton] at member
    exact member ▸ List.prefix_rfl
  | case2 path parent found ih =>
    rw [ancestors_of_parent found] at member
    rcases List.mem_cons.mp member with rfl | earlier
    · exact List.prefix_rfl
    · have above := (location_parent? absolute found).resolve_right fun back => rising back.1
      have fewer : .parent ∉ parent.components := fun inside =>
        rising ((List.dropLast_subset _) ((components_parent? found).1 ▸ inside))
      have encloses := ih (isAbsolute_parent? absolute found) fewer earlier
      rw [above] at encloses
      exact encloses.trans (List.dropLast_prefix _)

end UnitCache.Path
