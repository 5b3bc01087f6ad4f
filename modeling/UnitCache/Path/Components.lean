import UnitCache.Path.Basic

/-! What the steps of a path are once it has been built from steps.

The main statements say that spelling out steps and reading them again gives the
same steps, that dropping the last step of a text drops the last step, and that
normalization spells out exactly the steps it computed. -/

namespace UnitCache

namespace Component

/-- A step of the body of a path: `..`, or a name that reads back as itself. -/
def IsBodyStep : Component → Prop
  | .parent => True
  | .name text => ofPiece? text.toList = some (.name text) ∧ '/' ∉ text.toList
  | _ => False

theorem isBodyStep_of_ofPiece? {piece : List Char} {step : Component} (clean : '/' ∉ piece)
    (read : ofPiece? piece = some step) : step.IsBodyStep := by
  unfold ofPiece? at read
  split at read <;> simp only [Option.some.injEq, reduceCtorEq] at read
  · subst read; trivial
  · rename_i notEmpty notDot notDots
    subst read
    refine ⟨?_, by simpa using clean⟩
    rw [String.toList_ofList]
    unfold ofPiece?
    split <;> simp_all

theorem ofPiece?_spelling {step : Component} (body : step.IsBodyStep) :
    ofPiece? step.spelling = some step := by
  cases step <;> simp_all [IsBodyStep, spelling, ofPiece?]

theorem slash_not_mem_spelling {step : Component} (body : step.IsBodyStep) :
    '/' ∉ step.spelling := by
  cases step <;> simp_all [IsBodyStep, spelling]

end Component

namespace Path

theorem slash_not_mem_pieces {chars piece : List Char} (member : piece ∈ pieces chars) :
    '/' ∉ piece := by
  unfold pieces at member
  induction chars generalizing piece with
  | nil => simp_all
  | cons char rest ih =>
    rw [List.splitOn_cons_eq_if_modifyHead] at member
    split at member
    · rcases List.mem_cons.mp member with rfl | member
      · simp
      · exact ih member
    · rename_i different
      obtain ⟨first, others, shape⟩ := List.exists_cons_of_ne_nil (List.splitOn_ne_nil '/' rest)
      rw [shape, List.modifyHead_cons] at member
      rcases List.mem_cons.mp member with rfl | member
      · intro inside
        rcases List.mem_cons.mp inside with same | inside
        · exact different (by simp [← same])
        · exact ih (shape ▸ List.mem_cons_self) inside
      · exact ih (shape ▸ List.mem_cons_of_mem _ member)

theorem pieces_intercalate {all : List (List Char)} (clean : ∀ piece ∈ all, '/' ∉ piece)
    (nonempty : all ≠ []) : pieces (['/'].intercalate all) = all :=
  List.splitOn_intercalate '/' clean nonempty

/-- Reading pieces again gives the steps they stand for, also when there are none. -/
theorem filterMap_pieces_intercalate {all : List (List Char)} (clean : ∀ piece ∈ all, '/' ∉ piece) :
    (pieces (['/'].intercalate all)).filterMap Component.ofPiece? =
      all.filterMap Component.ofPiece? := by
  cases all with
  | nil => rfl
  | cons first rest => rw [pieces_intercalate clean (by simp)]

theorem isBodyStep_of_mem_pieces {chars : List Char} {step : Component}
    (member : step ∈ (pieces chars).filterMap Component.ofPiece?) : step.IsBodyStep := by
  obtain ⟨piece, inside, read⟩ := List.mem_filterMap.mp member
  exact Component.isBodyStep_of_ofPiece? (slash_not_mem_pieces inside) read

/-- The steps of a path are a root or a leading `.`, if any, before body steps. -/
theorem components_shape (path : Path) :
    (∃ rest, path.components = .root :: rest ∧ ∀ step ∈ rest, step.IsBodyStep) ∨
    (∃ rest, path.components = .current :: rest ∧ ∀ step ∈ rest, step.IsBodyStep) ∨
    (∀ step ∈ path.components, step.IsBodyStep) := by
  unfold components
  split
  · exact .inl ⟨_, rfl, fun _ => isBodyStep_of_mem_pieces⟩
  · split
    · rename_i rest split
      refine .inr (.inl ⟨_, rfl, fun step member => ?_⟩)
      obtain ⟨piece, inside, read⟩ := List.mem_filterMap.mp member
      exact Component.isBodyStep_of_ofPiece?
        (slash_not_mem_pieces (split ▸ List.mem_cons_of_mem _ inside)) read
    · exact .inr (.inr fun _ => isBodyStep_of_mem_pieces)

theorem filterMap_spelling {steps : List Component} (body : ∀ step ∈ steps, step.IsBodyStep) :
    (steps.map Component.spelling).filterMap Component.ofPiece? = steps := by
  induction steps with
  | nil => rfl
  | cons step rest ih =>
    simp only [List.map_cons, List.filterMap_cons,
      Component.ofPiece?_spelling (body step List.mem_cons_self)]
    rw [ih fun other member => body other (List.mem_cons_of_mem _ member)]

theorem clean_spelling {steps : List Component} (body : ∀ step ∈ steps, step.IsBodyStep) :
    ∀ piece ∈ steps.map Component.spelling, '/' ∉ piece := by
  intro piece member
  obtain ⟨step, inside, rfl⟩ := List.mem_map.mp member
  exact Component.slash_not_mem_spelling (body step inside)

theorem components_ofComponents_root {rest : List Component}
    (body : ∀ step ∈ rest, step.IsBodyStep) :
    (ofComponents (.root :: rest)).components = .root :: rest := by
  simp only [ofComponents, components, String.toList_ofList]
  rw [filterMap_pieces_intercalate (clean_spelling body), filterMap_spelling body]

theorem intercalate_head? {first : List Char} {rest : List (List Char)} (nonempty : first ≠ []) :
    (['/'].intercalate (first :: rest)).head? = first.head? := by
  obtain ⟨char, others, rfl⟩ := List.exists_cons_of_ne_nil nonempty
  cases rest <;> simp [List.intercalate]

theorem spelling_ne_nil {step : Component} (body : step.IsBodyStep) : step.spelling ≠ [] := by
  intro empty
  have := Component.ofPiece?_spelling body
  simp [empty, Component.ofPiece?] at this

theorem components_ofComponents_body {steps : List Component}
    (body : ∀ step ∈ steps, step.IsBodyStep) : (ofComponents steps).components = steps := by
  cases steps with
  | nil => decide
  | cons first rest =>
    have firstBody := body first List.mem_cons_self
    have spelled : ofComponents (first :: rest) =
        ⟨String.ofList (['/'].intercalate ((first :: rest).map Component.spelling))⟩ := by
      cases first <;> first | rfl | exact firstBody.elim
    have split : pieces (['/'].intercalate ((first :: rest).map Component.spelling)) =
        (first :: rest).map Component.spelling :=
      pieces_intercalate (clean_spelling body) (by simp)
    rw [spelled]
    simp only [components, String.toList_ofList]
    split
    · rename_i tail start
      have := congrArg List.head? start
      rw [List.map_cons, intercalate_head? (spelling_ne_nil firstBody)] at this
      have := List.mem_of_mem_head? this
      exact absurd this (Component.slash_not_mem_spelling firstBody)
    · split
      · rename_i dotted
        rw [split, List.map_cons, List.cons.injEq] at dotted
        have := Component.ofPiece?_spelling firstBody
        simp [dotted.1, Component.ofPiece?] at this
      · rw [split, filterMap_spelling body]

/-- The steps that normalization arrives at, last step first: names above a root, or names above
leading `..` steps. -/
def IsReduced (stack : List Component) : Prop :=
  ∃ names base, stack = names ++ base ∧
    (∀ step ∈ names, step.IsBodyStep ∧ step ≠ .parent) ∧
    (base = [.root] ∨ ∀ step ∈ base, step = .parent)

theorem isReduced_push {stack : List Component} (reduced : IsReduced stack) {step : Component}
    (body : step.IsBodyStep) : IsReduced (push stack step) := by
  obtain ⟨names, base, rfl, named, bottom⟩ := reduced
  cases step with
  | root => exact body.elim
  | current => exact body.elim
  | name text =>
    refine ⟨.name text :: names, base, rfl, fun other member => ?_, bottom⟩
    rcases List.mem_cons.mp member with rfl | member
    · exact ⟨body, by simp⟩
    · exact named other member
  | parent =>
    cases names with
    | cons last before =>
      have lastName := named last List.mem_cons_self
      cases last with
      | name text =>
        exact ⟨before, base, rfl, fun other member => named other (List.mem_cons_of_mem _ member),
          bottom⟩
      | parent => exact absurd rfl lastName.2
      | root => exact lastName.1.elim
      | current => exact lastName.1.elim
    | nil =>
      rcases bottom with rfl | parents
      · exact ⟨[], [.root], rfl, by simp, .inl rfl⟩
      · refine ⟨[], .parent :: base, ?_, by simp, .inr fun other member => ?_⟩
        · cases base with
          | nil => rfl
          | cons first rest => rw [parents first List.mem_cons_self]; rfl
        · rcases List.mem_cons.mp member with rfl | member
          · rfl
          · exact parents other member

theorem isReduced_foldl_push {steps stack : List Component} (reduced : IsReduced stack)
    (body : ∀ step ∈ steps, step.IsBodyStep) : IsReduced (steps.foldl push stack) := by
  induction steps generalizing stack with
  | nil => exact reduced
  | cons step rest ih =>
    exact ih (isReduced_push reduced (body step List.mem_cons_self))
      fun other member => body other (List.mem_cons_of_mem _ member)

/-- What normalization computes, before it is spelled out. -/
def reducedSteps (path : Path) : List Component :=
  (path.components.foldl push []).reverse

theorem isReduced_reducedSteps (path : Path) : IsReduced path.reducedSteps.reverse := by
  rw [reducedSteps, List.reverse_reverse]
  have empty : IsReduced [] := ⟨[], [], rfl, by simp, .inr (by simp)⟩
  rcases path.components_shape with ⟨rest, shape, body⟩ | ⟨rest, shape, body⟩ | body
  · rw [shape]
    have root : IsReduced [.root] := ⟨[], [.root], rfl, by simp, .inl rfl⟩
    exact @isReduced_foldl_push rest [.root] root body
  · rw [shape, List.foldl_cons]
    exact isReduced_foldl_push empty body
  · exact isReduced_foldl_push empty body

theorem components_ofComponents_of_isReduced {steps : List Component}
    (reduced : IsReduced steps.reverse) : (ofComponents steps).components = steps := by
  obtain ⟨names, base, split, named, bottom⟩ := reduced
  have whole : steps = base.reverse ++ names.reverse := by
    rw [← List.reverse_reverse steps, split, List.reverse_append]
  subst whole
  rcases bottom with rfl | parents
  · exact components_ofComponents_root fun step member => (named step (by simpa using member)).1
  · refine components_ofComponents_body fun step member => ?_
    rcases List.mem_append.mp member with member | member
    · rw [parents step (by simpa using member)]; trivial
    · exact (named step (by simpa using member)).1

/-- Normalization spells out exactly the steps it computed. -/
theorem components_normalize (path : Path) : path.normalize.components = path.reducedSteps :=
  components_ofComponents_of_isReduced path.isReduced_reducedSteps

theorem normalize_eq_ofComponents (path : Path) :
    path.normalize = ofComponents path.normalize.components := by
  rw [components_normalize]; rfl

private theorem filterMap_dropWhile_isNone (all : List (List Char)) :
    (all.dropWhile fun piece => (Component.ofPiece? piece).isNone).filterMap Component.ofPiece? =
      all.filterMap Component.ofPiece? := by
  induction all with
  | nil => rfl
  | cons piece rest ih =>
    cases read : Component.ofPiece? piece with
    | none => simp [read, ih]
    | some step => simp [read]

/-- Dropping a step from a text's pieces drops the last step they stand for. -/
theorem filterMap_dropStep? {all before : List (List Char)}
    (dropped : dropStep? all = some before) :
    before.filterMap Component.ofPiece? = (all.filterMap Component.ofPiece?).dropLast := by
  unfold dropStep? at dropped
  have whole := filterMap_dropWhile_isNone all.reverse
  cases trimmed : all.reverse.dropWhile fun piece => (Component.ofPiece? piece).isNone with
  | nil => simp [trimmed] at dropped
  | cons last rest =>
    rw [trimmed] at dropped whole
    simp only [Option.some.injEq] at dropped
    have present : (Component.ofPiece? last).isNone = false := by
      have := List.head_dropWhile_not (l := all.reverse)
        (fun piece => (Component.ofPiece? piece).isNone) (by simp [trimmed])
      simpa [trimmed] using this
    cases read : Component.ofPiece? last with
    | none => simp [read] at present
    | some step =>
      rw [List.filterMap_cons, read] at whole
      simp only [List.filterMap_reverse] at whole
      have forward := congrArg List.reverse whole
      rw [List.reverse_reverse, List.reverse_cons] at forward
      rw [← dropped, List.filterMap_reverse, filterMap_dropWhile_isNone, ← forward,
        List.dropLast_concat]

theorem filterMap_ne_nil_of_dropStep? {all before : List (List Char)}
    (dropped : dropStep? all = some before) : all.filterMap Component.ofPiece? ≠ [] := by
  intro empty
  have whole := filterMap_dropWhile_isNone all.reverse
  rw [List.filterMap_reverse, empty] at whole
  unfold dropStep? at dropped
  cases trimmed : all.reverse.dropWhile fun piece => (Component.ofPiece? piece).isNone with
  | nil => simp [trimmed] at dropped
  | cons last rest =>
    have present := List.head_dropWhile_not (l := all.reverse)
      (fun piece => (Component.ofPiece? piece).isNone) (by simp [trimmed])
    rw [trimmed] at whole
    simp only [trimmed, List.head_cons] at present
    cases read : Component.ofPiece? last with
    | none => simp [read] at present
    | some step => simp [read] at whole

theorem filterMap_eq_nil_of_dropStep? {all : List (List Char)} (dropped : dropStep? all = none) :
    all.filterMap Component.ofPiece? = [] := by
  unfold dropStep? at dropped
  split at dropped
  · rename_i trimmed
    have whole := filterMap_dropWhile_isNone all.reverse
    rw [trimmed, List.filterMap_reverse] at whole
    simpa using whole.symm
  · cases dropped

theorem dropStep?_isPrefix {all before : List (List Char)} (dropped : dropStep? all = some before) :
    before <+: all := by
  unfold dropStep? at dropped
  split at dropped
  · cases dropped
  · rename_i last rest trimmed
    simp only [Option.some.injEq] at dropped
    have first : rest <:+ all.reverse := by
      have := List.dropWhile_suffix (l := all.reverse) fun piece =>
        (Component.ofPiece? piece).isNone
      rw [trimmed] at this
      exact (List.suffix_cons last rest).trans this
    have second := List.dropWhile_suffix (l := rest) fun piece => (Component.ofPiece? piece).isNone
    rw [← dropped]
    simpa using List.reverse_prefix.mpr (second.trans first)

theorem components_relative {first : List Char} {rest : List (List Char)}
    (clean : ∀ piece ∈ first :: rest, '/' ∉ piece) (nonempty : first ≠ [])
    (undotted : first ≠ ['.']) :
    components ⟨String.ofList (['/'].intercalate (first :: rest))⟩ =
      (first :: rest).filterMap Component.ofPiece? := by
  simp only [components, String.toList_ofList]
  split
  · rename_i tail start
    have := congrArg List.head? start
    rw [intercalate_head? nonempty] at this
    exact absurd (List.mem_of_mem_head? this) (clean first List.mem_cons_self)
  · split
    · rename_i dotted
      rw [pieces_intercalate clean (by simp), List.cons.injEq] at dotted
      exact absurd dotted.1 undotted
    · rw [pieces_intercalate clean (by simp)]

theorem components_dotted {rest : List (List Char)} (clean : ∀ piece ∈ rest, '/' ∉ piece) :
    components ⟨String.ofList (['/'].intercalate (['.'] :: rest))⟩ =
      .current :: rest.filterMap Component.ofPiece? := by
  have cleanAll : ∀ piece ∈ ['.'] :: rest, '/' ∉ piece := by
    intro piece member
    rcases List.mem_cons.mp member with rfl | member
    · decide
    · exact clean piece member
  simp only [components, String.toList_ofList]
  split
  · rename_i tail start
    have := congrArg List.head? start
    rw [intercalate_head? (by simp)] at this
    simp at this
  · rw [pieces_intercalate cleanAll (by simp)]
    rfl

private theorem head_piece_ne_nil {chars first : List Char} {rest : List (List Char)}
    (relative : ∀ body, chars ≠ '/' :: body) (shape : pieces chars = first :: rest)
    (long : rest ≠ [] ∨ chars ≠ []) : first ≠ [] := by
  rintro rfl
  have joined : ['/'].intercalate (chars.splitOn '/') = chars := List.intercalate_splitOn '/'
  rw [show chars.splitOn '/' = [] :: rest from shape] at joined
  cases rest with
  | nil => simp [List.intercalate] at joined; simp_all
  | cons next others =>
    simp only [List.intercalate, List.intersperse_cons_cons, List.flatten_cons, List.nil_append,
      List.cons_append] at joined
    exact relative _ joined.symm

/-- The parent of a path has the path's steps without the last one, of which there is one. -/
theorem components_parent? {path parent : Path} (found : path.parent? = some parent) :
    parent.components = path.components.dropLast ∧ path.components ≠ [] := by
  unfold parent? at found
  unfold components
  split at found
  · rename_i body shape
    obtain ⟨before, dropped, rfl⟩ := Option.map_eq_some_iff.mp found
    have clean : ∀ piece ∈ before, '/' ∉ piece := fun piece member =>
      slash_not_mem_pieces ((dropStep?_isPrefix dropped).subset member)
    simp only [String.toList_ofList, ne_eq, reduceCtorEq, not_false_eq_true, and_true]
    rw [filterMap_pieces_intercalate clean, filterMap_dropStep? dropped,
      List.dropLast_cons_of_ne_nil (filterMap_ne_nil_of_dropStep? dropped)]
  · rename_i relative
    split at found
    · rename_i rest dotted
      split at found
      · rename_i before dropped
        obtain rfl := Option.some.inj found
        have clean : ∀ piece ∈ before, '/' ∉ piece := fun piece member =>
          slash_not_mem_pieces (dotted ▸ List.mem_cons_of_mem _
            ((dropStep?_isPrefix dropped).subset member))
        have parts := components_dotted clean
        unfold components at parts
        rw [parts, filterMap_dropStep? dropped]
        exact ⟨(List.dropLast_cons_of_ne_nil (filterMap_ne_nil_of_dropStep? dropped)).symm, by simp⟩
      · rename_i dropped
        obtain rfl := Option.some.inj found
        rw [filterMap_eq_nil_of_dropStep? dropped]
        exact ⟨by decide, by simp⟩
    · rename_i undotted
      obtain ⟨before, dropped, rfl⟩ := Option.map_eq_some_iff.mp found
      have clean : ∀ piece ∈ before, '/' ∉ piece := fun piece member =>
        slash_not_mem_pieces ((dropStep?_isPrefix dropped).subset member)
      refine ⟨?_, filterMap_ne_nil_of_dropStep? dropped⟩
      rw [← filterMap_dropStep? dropped]
      cases before with
      | nil => decide
      | cons first others =>
        obtain ⟨after, shape⟩ := dropStep?_isPrefix dropped
        have parts := @components_relative first others clean ?_ ?_
        · unfold components at parts
          exact parts
        · apply head_piece_ne_nil relative shape.symm
          right
          intro empty
          rw [empty] at dropped
          simp [pieces, dropStep?, Component.ofPiece?] at dropped
        · rintro rfl
          exact undotted _ shape.symm

theorem length_components_parent? {path parent : Path} (found : path.parent? = some parent) :
    parent.components.length < path.components.length := by
  obtain ⟨steps, nonempty⟩ := components_parent? found
  have := List.length_pos_iff.mpr nonempty
  rw [steps, List.length_dropLast]
  omega

/-- The path itself, its parent, the parent of that, and so on. -/
def ancestors (path : Path) : List Path :=
  match _found : path.parent? with
  | none => [path]
  | some parent => path :: parent.ancestors
termination_by path.components.length
decreasing_by exact length_components_parent? ‹_›

end Path

end UnitCache
