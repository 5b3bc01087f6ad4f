import UnitCache.Disk.Basic
import UnitCache.Path.Components

/-! The normalized paths that can lead to a regular file are finitely many.

An absolute one spells the file's location. A relative one climbs some number of
directories, which the longest path bounds, and goes down the last names of the
location. -/

namespace UnitCache

namespace Path

private theorem names_of_body {steps : List Component}
    (named : ∀ step ∈ steps, step.IsBodyStep ∧ step ≠ .parent) :
    ∃ names : List String, steps = names.map .name := by
  induction steps with
  | nil => exact ⟨[], rfl⟩
  | cons step rest ih =>
    obtain ⟨names, same⟩ := ih fun other member => named other (List.mem_cons_of_mem _ member)
    have first := named step List.mem_cons_self
    cases step with
    | name text => exact ⟨text :: names, by rw [same]; rfl⟩
    | parent => exact absurd rfl first.2
    | root => exact first.1.elim
    | current => exact first.1.elim

/-- A normalized path is a root or some `..` steps before names. -/
theorem normalize_shape (path : Path) :
    ∃ names : List String, (∀ text ∈ names, (Component.name text).IsBodyStep) ∧
      (path.normalize.components = .root :: names.map .name ∨
        ∃ count, path.normalize.components = List.replicate count .parent ++ names.map .name) := by
  obtain ⟨stack, base, split, named, bottom⟩ := path.isReduced_reducedSteps
  have whole : path.normalize.components = base.reverse ++ stack.reverse := by
    rw [components_normalize, ← List.reverse_reverse path.reducedSteps, split, List.reverse_append]
  have rising : ∀ step ∈ stack.reverse, step.IsBodyStep ∧ step ≠ .parent := fun step member =>
    named step (by simpa using member)
  obtain ⟨names, spelled⟩ := names_of_body rising
  refine ⟨names, fun text member => ?_, ?_⟩
  · have inside : Component.name text ∈ stack.reverse := spelled ▸ List.mem_map_of_mem member
    exact (named _ (by simpa using inside)).1
  · rw [whole, spelled]
    rcases bottom with rfl | parents
    · exact .inl rfl
    · right
      exact ⟨base.length, by rw [List.eq_replicate_of_mem parents]; simp⟩

theorem toList_ofComponents_root (names : List String) :
    (ofComponents (.root :: names.map .name)).text.toList =
      '/' :: ['/'].intercalate (names.map String.toList) := by
  simp [ofComponents, Function.comp_def, Component.spelling]

theorem toList_ofComponents_body {steps : List Component}
    (body : ∀ step ∈ steps, step.IsBodyStep) :
    (ofComponents steps).text.toList = ['/'].intercalate (steps.map Component.spelling) := by
  cases steps with
  | nil => rfl
  | cons first rest =>
    have firstBody := body first List.mem_cons_self
    cases first <;> first | exact firstBody.elim | simp [ofComponents]

end Path

namespace Disk

theorem mem_of_node? {disk : Disk} {location : Location} {node : Node} (nonempty : location ≠ [])
    (found : disk.node? location = some node) : (location, node) ∈ disk.nodes := by
  rw [node?, if_neg nonempty] at found
  obtain ⟨entry, chosen, rfl⟩ := Option.map_eq_some_iff.mp found
  have := List.find?_some chosen
  simp only [decide_eq_true_eq] at this
  exact this ▸ List.mem_of_find?_eq_some chosen

theorem follow_names {disk : Disk} {names : List String}
    (proper : ∀ text ∈ names, (Component.name text).IsBodyStep) {location reached : Location}
    {node last : Node}
    (followed : disk.follow location node (names.map String.toList) = .ok (reached, last)) :
    reached = location ++ names ∧ (names ≠ [] → disk.node? reached = some last) := by
  induction names generalizing location node with
  | nil =>
    simp only [List.map_nil, follow, Except.ok.injEq, Prod.mk.injEq] at followed
    simp [followed.1]
  | cons text rest ih =>
    have read := (proper text List.mem_cons_self).1
    have properRest : ∀ other ∈ rest, (Component.name other).IsBodyStep := fun other member =>
      proper other (List.mem_cons_of_mem _ member)
    cases node with
    | file => simp [follow] at followed
    | directory =>
      simp only [List.map_cons, follow, read] at followed
      split at followed
      · cases followed
      · split at followed
        · cases followed
        · rename_i node found
          obtain ⟨place, there⟩ := ih properRest followed
          refine ⟨by simp [place], fun _ => ?_⟩
          cases rest with
          | nil =>
            simp only [List.map_nil, follow, Except.ok.injEq, Prod.mk.injEq] at followed
            rw [← followed.1, ← followed.2, found]
          | cons => exact there (by simp)

theorem follow_parents (disk : Disk) (location : Location) (count : Nat) (rest : List (List Char)) :
    ∃ above, disk.follow location .directory (List.replicate count ['.', '.'] ++ rest) =
      disk.follow above .directory rest := by
  induction count generalizing location with
  | zero => exact ⟨location, rfl⟩
  | succ count ih =>
    obtain ⟨above, same⟩ := ih location.dropLast
    exact ⟨above, by rw [List.replicate_succ, List.cons_append, follow]; exact same⟩

/-- Every normalized path that could lead to a listed node. -/
def reachablePaths (disk : Disk) : List Path :=
  disk.nodes.flatMap fun (location, _) =>
    pathOf location :: (List.range longestPath).flatMap fun climbed =>
      (List.range (location.length + 1)).map fun skipped =>
        Path.ofComponents (List.replicate climbed .parent ++ (location.drop skipped).map .name)

private theorem length_intercalate_parents (count : Nat) (rest : List (List Char)) :
    count ≤ (['/'].intercalate (List.replicate count ['.', '.'] ++ rest)).length := by
  induction count with
  | zero => simp
  | succ count ih =>
    rw [List.replicate_succ, List.cons_append]
    cases shape : List.replicate count ['.', '.'] ++ rest with
    | nil =>
      rw [shape] at ih
      simp only [List.intercalate, List.intersperse_nil, List.flatten_nil, List.length_nil] at ih
      simp only [List.intercalate, List.intersperse_singleton, List.flatten_cons, List.flatten_nil,
        List.append_nil, List.length_cons, List.length_nil]
      omega
    | cons first others =>
      rw [shape] at ih
      simp only [List.intercalate, List.intersperse_cons_cons, List.flatten_cons,
        List.length_append, List.length_cons, List.length_nil] at ih ⊢
      omega

private theorem length_le_utf8ByteSize (text : String) :
    text.toList.length ≤ text.utf8ByteSize := by
  rw [← String.size_toByteArray, ← String.utf8Encode_toList]
  induction text.toList with
  | nil => simp
  | cons char rest ih =>
    have := char.utf8Size_pos
    rw [List.utf8Encode_cons, ByteArray.size_append, List.utf8Encode_singleton,
      List.size_toByteArray, String.length_utf8EncodeChar, List.length_cons]
    omega

/-- A file that the names of a path lead to from the root is listed under these names. -/
theorem mem_nodes_of_resolve {disk : Disk} {names : List String}
    (proper : ∀ text ∈ names, (Component.name text).IsBodyStep) {reached : Location}
    {text : Option String} {time : Timestamp}
    (resolved : disk.resolve (pathOf names) = .ok (reached, .file text time)) :
    (names, .file text time) ∈ disk.nodes := by
  unfold resolve at resolved
  split at resolved
  · cases resolved
  · split at resolved
    · cases resolved
    · simp only [pathOf, Path.toList_ofComponents_root] at resolved
      cases names with
      | nil => simp [Path.pieces, follow, List.intercalate, Component.ofPiece?] at resolved
      | cons name rest =>
        have clean : ∀ piece ∈ (name :: rest).map String.toList, '/' ∉ piece := by
          intro piece member
          obtain ⟨text, inside, rfl⟩ := List.mem_map.mp member
          exact (proper text inside).2
        rw [Path.pieces_intercalate clean (by simp)] at resolved
        obtain ⟨place, there⟩ := follow_names proper resolved
        rw [List.nil_append] at place
        exact place ▸ mem_of_node? (by simp [place]) (there (by simp))

theorem mem_reachablePaths_of_isFile {disk : Disk} {path : Path}
    (file : disk.isFile path.normalize) : path.normalize ∈ disk.reachablePaths := by
  obtain ⟨names, proper, shape⟩ := path.normalize_shape
  unfold isFile at file
  split at file
  · rename_i reached text time resolved
    rcases shape with shape | ⟨count, shape⟩
    · have spelled : path.normalize = pathOf names := by
        rw [Path.normalize_eq_ofComponents, shape]
        rfl
      rw [spelled] at resolved ⊢
      have listed := mem_nodes_of_resolve proper resolved
      exact List.mem_flatMap.mpr ⟨_, listed, List.mem_cons_self⟩
    · unfold resolve at resolved
      split at resolved
      · cases resolved
      · split at resolved
        · cases resolved
        · rename_i short
          have body : ∀ step ∈ List.replicate count Component.parent ++ names.map .name,
              step.IsBodyStep := by
            intro step member
            rcases List.mem_append.mp member with member | member
            · rw [List.eq_of_mem_replicate member]; trivial
            · obtain ⟨text, inside, rfl⟩ := List.mem_map.mp member
              exact proper text inside
          have spelled : path.normalize =
              Path.ofComponents (List.replicate count .parent ++ names.map .name) := by
            rw [Path.normalize_eq_ofComponents, shape]
          have spellings : (List.replicate count Component.parent ++ names.map Component.name).map
              Component.spelling = List.replicate count ['.', '.'] ++ names.map String.toList := by
            simp [Component.spelling, Function.comp_def]
          have chars := congrArg (fun p => p.text.toList) spelled
          simp only [Path.toList_ofComponents_body body, spellings] at chars
          have clean := Path.clean_spelling body
          rw [spellings] at clean
          split at resolved
          · cases resolved
          · rename_i tail start
            have relative := Path.components_ofComponents_body body
            rw [← spelled] at relative
            unfold Path.components at relative
            simp only [start] at relative
            have root : Component.root ∈ List.replicate count Component.parent ++ names.map .name :=
              relative ▸ List.mem_cons_self
            exact (body _ root).elim
          · rename_i notEmpty _
            split at resolved
            · cases resolved
            · rename_i start _
              have nonempty : List.replicate count ['.', '.'] ++ names.map String.toList ≠ [] := by
                intro empty
                rw [empty] at chars
                exact notEmpty (by simpa [List.intercalate] using chars)
              have pieced : Path.pieces path.normalize.text.toList =
                  List.replicate count ['.', '.'] ++ names.map String.toList := by
                rw [chars]
                exact Path.pieces_intercalate clean nonempty
              rw [pieced] at resolved
              obtain ⟨above, same⟩ := follow_parents disk start count (names.map String.toList)
              rw [same] at resolved
              cases names with
              | nil => simp [follow] at resolved
              | cons name rest =>
                obtain ⟨place, there⟩ := follow_names proper resolved
                have listed := mem_of_node? (by simp [place]) (there (by simp))
                refine List.mem_flatMap.mpr ⟨_, listed, List.mem_cons.mpr (.inr ?_)⟩
                refine List.mem_flatMap.mpr ⟨count, ?_, List.mem_map.mpr ⟨above.length, ?_, ?_⟩⟩
                · have long := length_intercalate_parents count ((name :: rest).map String.toList)
                  rw [← chars] at long
                  have bytes := length_le_utf8ByteSize path.normalize.text
                  simp only [List.mem_range]
                  omega
                · have deep := congrArg List.length place
                  rw [List.length_append, List.length_cons] at deep
                  simp only [List.mem_range]
                  omega
                · rw [spelled, place]
                  simp
  · cases file

end Disk

end UnitCache
