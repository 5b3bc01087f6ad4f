import UnitCache.Proofs.CanonicalPath

/-! Where a path leads when no disk is looked at. Its text is walked piece by piece: a name goes
down, `..` goes up, and anything else stays. Normalization spells out the place that the walk
arrives at. A relative path walks on from wherever it is seen from, so a path may be normalized at
any point on the way. -/

namespace UnitCache

/-- Where a walk arrives: down some names from the root, or up some directories from where it began
and down from there. The last name comes first. -/
inductive Place where
  | absolute (names : List String)
  | relative (climbed : Nat) (names : List String)
deriving DecidableEq

namespace Place

def isAbsolute : Place → Bool
  | .absolute _ => true
  | .relative .. => false

def down (place : Place) (name : String) : Place :=
  match place with
  | .absolute names => .absolute (name :: names)
  | .relative climbed names => .relative climbed (name :: names)

/-- Drops the last name. Above the root is the root; above where a relative walk began is one more
directory. -/
def up : Place → Place
  | .absolute names => .absolute names.tail
  | .relative climbed (_ :: names) => .relative climbed names
  | .relative climbed [] => .relative (climbed + 1) []

def walk (place : Place) : List Char → Place
  | [] => place
  | ['.'] => place
  | ['.', '.'] => place.up
  | piece => place.down (String.ofList piece)

def step (place : Place) : Component → Place
  | .root => .absolute []
  | .current => place
  | .parent => place.up
  | .name text => place.down text

def steps : Place → List Component
  | .absolute names => names.map .name ++ [.root]
  | .relative climbed names => names.map .name ++ List.replicate climbed .parent

/-- The second place as seen from the first. -/
def andThen (first second : Place) : Place :=
  second.steps.foldr (fun next place => place.step next) first

theorem walk_eq_step (place : Place) (piece : List Char) :
    place.walk piece = (Component.ofPiece? piece).elim place place.step := by
  unfold walk
  split
  · rfl
  · rfl
  · rfl
  · rename_i notEmpty notDot notDots
    have named : Component.ofPiece? piece = some (.name (String.ofList piece)) := by
      unfold Component.ofPiece?
      split <;> first | contradiction | rfl
    rw [named]
    rfl

private theorem foldl_walk (pieces : List (List Char)) (place : Place) :
    pieces.foldl walk place = (pieces.filterMap Component.ofPiece?).foldl step place := by
  induction pieces generalizing place with
  | nil => rfl
  | cons piece rest ih =>
    rw [List.foldl_cons, ih, walk_eq_step]
    cases read : Component.ofPiece? piece with
    | none => rw [List.filterMap_cons_none read]; rfl
    | some found => rw [List.filterMap_cons_some read]; rfl

private theorem isAbsolute_walk (place : Place) (piece : List Char) :
    (place.walk piece).isAbsolute = place.isAbsolute := by
  unfold walk
  split
  · rfl
  · rfl
  · rcases place with _ | ⟨_, _ | _⟩ <;> rfl
  · cases place <;> rfl

private theorem isAbsolute_foldl_walk (pieces : List (List Char)) (place : Place) :
    (pieces.foldl walk place).isAbsolute = place.isAbsolute := by
  induction pieces generalizing place with
  | nil => rfl
  | cons piece rest ih => rw [List.foldl_cons, ih, isAbsolute_walk]

theorem start_andThen (place : Place) : (relative 0 []).andThen place = place := by
  cases place with
  | absolute names =>
    rw [andThen, steps, List.foldr_append]
    induction names with
    | nil => rfl
    | cons name rest ih => rw [List.map_cons, List.foldr_cons, ih]; rfl
  | relative climbed names =>
    have climb : (List.replicate climbed Component.parent).foldr (fun next place => place.step next)
        (relative 0 []) = relative climbed [] := by
      induction climbed with
      | zero => rfl
      | succ climbed ih => rw [List.replicate_succ, List.foldr_cons, ih]; rfl
    rw [andThen, steps, List.foldr_append, climb]
    induction names with
    | nil => rfl
    | cons name rest ih => rw [List.map_cons, List.foldr_cons, ih]; rfl

private theorem andThen_absolute (first : Place) {second : Place}
    (absolute : second.isAbsolute = true) :
    first.andThen second = second := by
  cases second with
  | absolute names =>
    have rooted := start_andThen (.absolute names)
    rw [andThen, steps, List.foldr_append] at rooted ⊢
    exact rooted
  | relative => cases absolute

private theorem up_down (place : Place) (name : String) : (place.down name).up = place := by
  cases place <;> rfl

theorem andThen_step (first second : Place) (next : Component) :
    first.andThen (second.step next) = (first.andThen second).step next := by
  cases next with
  | root => rfl
  | current => rfl
  | name text => cases second <;> rfl
  | parent =>
    rcases second with (_ | ⟨name, names⟩) | ⟨climbed, _ | ⟨name, names⟩⟩
    · rfl
    · exact (up_down _ name).symm
    · rfl
    · exact (up_down _ name).symm

private theorem andThen_foldl_step (onward : List Component) (first second : Place) :
    first.andThen (onward.foldl step second) = onward.foldl step (first.andThen second) := by
  induction onward generalizing second with
  | nil => rfl
  | cons next rest ih => rw [List.foldl_cons, ih, andThen_step, List.foldl_cons]

private theorem andThen_assoc (first second third : Place) :
    (first.andThen second).andThen third = first.andThen (second.andThen third) := by
  have taken := andThen_foldl_step third.steps.reverse first second
  rw [List.foldl_reverse, List.foldl_reverse] at taken
  exact taken.symm

/-- Normalization keeps the steps that lead to where the walk is. -/
theorem push_steps (place : Place) {next : Component} (onward : next ≠ .root) :
    Path.push place.steps next = (place.step next).steps := by
  cases next with
  | root => exact absurd rfl onward
  | current => rfl
  | name text => cases place <;> rfl
  | parent =>
    rcases place with (_ | ⟨name, names⟩) | ⟨_ | climbed, _ | ⟨name, names⟩⟩ <;> rfl

private theorem foldl_push_steps {onward : List Component} (unrooted : .root ∉ onward)
    (place : Place) :
    onward.foldl Path.push place.steps = (onward.foldl step place).steps := by
  induction onward generalizing place with
  | nil => rfl
  | cons next rest ih =>
    rw [List.mem_cons, not_or] at unrooted
    rw [List.foldl_cons, push_steps place (Ne.symm unrooted.1), ih unrooted.2, List.foldl_cons]

end Place

namespace Path
open Place Proofs.CanonicalPath

/-- Where a path leads: from the root, or from wherever it is seen from. -/
def place (path : Path) : Place :=
  (pieces path.text.toList).foldl walk (if path.isAbsolute then .absolute [] else .relative 0 [])

theorem isAbsolute_place (path : Path) : path.place.isAbsolute = path.isAbsolute := by
  rw [place, isAbsolute_foldl_walk]
  cases path.isAbsolute <;> rfl

theorem place_eq_foldl_step (path : Path) :
    path.place = path.components.foldl step (.relative 0 []) := by
  unfold place isAbsolute
  split
  · rename_i rooted
    obtain ⟨body, shape⟩ := List.head?_eq_some_iff.mp (of_decide_eq_true rooted)
    have split : pieces ('/' :: body) = [] :: pieces body := by
      simp [pieces, List.splitOn_cons_eq_if_modifyHead]
    rw [foldl_walk, components]
    simp only [shape, split]
    rfl
  · rename_i unrooted
    rw [foldl_walk, components]
    split
    · rename_i shape
      simp [shape] at unrooted
    · split
      · rename_i dotted
        rw [dotted]
        rfl
      · rfl

theorem reducedSteps_eq (path : Path) : path.reducedSteps = path.place.steps.reverse := by
  rw [reducedSteps, place_eq_foldl_step]
  -- Only the first step can be the root. Both folds take it first, and then agree step by step.
  rcases path.components_shape with ⟨rest, shape, body⟩ | ⟨rest, shape, body⟩ | body
  · have unrooted : .root ∉ rest := fun member => body _ member
    rw [shape, List.foldl_cons, List.foldl_cons]
    exact congrArg _ (foldl_push_steps unrooted (.absolute []))
  · have bare : .root ∉ rest := fun member => body _ member
    have unrooted : .root ∉ path.components := by simp [shape, bare]
    exact congrArg _ (foldl_push_steps unrooted (.relative 0 []))
  · have unrooted : .root ∉ path.components := fun member => body _ member
    exact congrArg _ (foldl_push_steps unrooted (.relative 0 []))

private theorem place_normalize (path : Path) : path.normalize.place = path.place := by
  rw [place_eq_foldl_step, components_normalize, reducedSteps_eq, List.foldl_reverse]
  exact start_andThen path.place

theorem normalize_eq_iff {path other : Path} :
    path.normalize = other.normalize ↔ path.place = other.place := by
  constructor
  · intro same
    rw [← place_normalize path, same, place_normalize]
  · intro same
    rw [normalize_eq_ofComponents path, normalize_eq_ofComponents other, components_normalize,
      components_normalize, reducedSteps_eq, reducedSteps_eq, same]

private theorem isAbsolute_normalize_eq (path : Path) :
    path.normalize.isAbsolute = path.isAbsolute := by
  rw [← isAbsolute_place, place_normalize, isAbsolute_place]

theorem components_normalize_eq (path : Path) :
    path.normalize.components = path.place.steps.reverse := by
  rw [components_normalize, reducedSteps_eq]

/-- A path that consists of its steps only: none stays, and any that goes up comes before all names
and has no root below it. -/
structure IsNormalForm (path : Path) : Prop where
  undotted : .current ∉ path.components
  rooted : path.isAbsolute = true → .parent ∉ path.components
  rising : ∃ climbed below, path.components = List.replicate climbed .parent ++ below ∧
    .parent ∉ below
  spelled : ofComponents path.components = path

private theorem isNormalForm_normalize (path : Path) : path.normalize.IsNormalForm := by
  refine ⟨?_, ?_, ?_, (normalize_eq_ofComponents path).symm⟩
  · rw [components_normalize_eq]
    cases path.place <;> simp [steps]
  · intro absolute
    rw [isAbsolute_normalize_eq, ← isAbsolute_place] at absolute
    rw [components_normalize_eq]
    cases place : path.place with
    | absolute names => simp [steps]
    | relative => rw [place] at absolute; cases absolute
  · rw [components_normalize_eq]
    cases path.place with
    | absolute names => exact ⟨0, _, rfl, by simp [steps]⟩
    | relative climbed names =>
      refine ⟨climbed, (names.map Component.name).reverse, ?_, by simp⟩
      rw [steps, List.reverse_append, List.reverse_replicate]

/-- A normal form says neither more nor less than whether a path is absolute and where it leads. -/
theorem normalize_is_canonical (path : Path) :
    path.normalize.isAbsolute = path.isAbsolute ∧
    path.normalize.IsNormalForm ∧
    path.normalize.place = path.place ∧
    (∀ other : Path,
      (path.normalize = other.normalize ↔
        path.isAbsolute = other.isAbsolute ∧ path.place = other.place) ∧
      (path.normalize.Same other.normalize ↔ path.normalize = other.normalize)) ∧
    path.normalize.normalize = path.normalize := by
  refine ⟨isAbsolute_normalize_eq path, isNormalForm_normalize path, place_normalize path, ?_,
    normalize_normalize path⟩
  intro other
  refine ⟨⟨?_, fun alike => normalize_eq_iff.mpr alike.2⟩, ?_, ?_⟩
  · intro same
    refine ⟨?_, normalize_eq_iff.mp same⟩
    rw [← isAbsolute_normalize_eq path, same, isAbsolute_normalize_eq]
  · intro same
    rw [← (isNormalForm_normalize path).spelled, ← (isNormalForm_normalize other).spelled]
    exact congrArg ofComponents same
  · intro same
    rw [same]
    rfl

example : (⟨"a/../..//b/./c/"⟩ : Path).normalize = ⟨"../b/c"⟩ := by decide

theorem pieces_append_slash (left right : List Char) :
    pieces (left ++ '/' :: right) = pieces left ++ pieces right :=
  List.splitOn_append_cons_self left right

/-- A separator at the end of a text changes nothing, and what follows one is walked from where the
text before it leads. -/
theorem place_of_slash {left joined : Path} {before onward : List Char}
    (ended : left.text.toList = before ++ ['/'] ∨ left.text.toList = before ∧ before ≠ [])
    (spelled : joined.text.toList = before ++ '/' :: onward) :
    joined.place = (pieces onward).foldl walk left.place := by
  unfold place isAbsolute
  rw [spelled, pieces_append_slash, List.foldl_append]
  rcases ended with ended | ⟨rfl, nonempty⟩
  · have stay : ∀ place : Place, (pieces []).foldl walk place = place := fun _ => rfl
    rw [ended, pieces_append_slash, List.foldl_append, stay]
    congr 3
    cases before <;> rfl
  · obtain ⟨first, rest, shape⟩ := List.exists_cons_of_ne_nil nonempty
    rw [shape]
    rfl

theorem place_join (left right : Path) :
    (left.join right).place = left.place.andThen right.place := by
  cases absolute : right.isAbsolute with
  | true =>
    rw [join, if_pos absolute, andThen_absolute _ ((isAbsolute_place right).trans absolute)]
  | false =>
    have begun : right.place = (pieces right.text.toList).foldl walk (.relative 0 []) := by
      rw [place, absolute]
      rfl
    have onward : left.place.andThen right.place =
        (pieces right.text.toList).foldl walk left.place := by
      rw [begun, foldl_walk, foldl_walk, andThen_foldl_step]
      rfl
    rw [onward, join, if_neg (by simp [absolute])]
    by_cases empty : left.text = ""
    · have nowhere : left = ⟨""⟩ := by rw [← empty]
      rw [if_pos (by simp [empty]), empty, String.empty_append, begun, nowhere]
      rfl
    · by_cases closed : left.text.toList.getLast? = some '/'
      · obtain ⟨before, ended⟩ := List.getLast?_eq_some_iff.mp closed
        rw [if_pos (by simp [closed])]
        exact place_of_slash (.inl ended) (by simp [String.toList_append, ended])
      · have nonempty : left.text.toList ≠ [] := by simpa using empty
        rw [if_neg (by simp [closed, empty])]
        exact place_of_slash (.inr ⟨rfl, nonempty⟩) (by simp [String.toList_append])

private theorem join_normalize_left (left right : Path) :
    (left.normalize.join right).normalize = (left.join right).normalize := by
  rw [normalize_eq_iff, place_join, place_normalize, place_join]

private theorem join_normalize_right (left right : Path) :
    (left.join right.normalize).normalize = (left.join right).normalize := by
  rw [normalize_eq_iff, place_join, place_normalize, place_join]

private theorem normalize_join_assoc (first second third : Path) :
    ((first.join second).join third).normalize = (first.join (second.join third)).normalize := by
  simp only [normalize_eq_iff, place_join, andThen_assoc]

theorem foldl_join_normalize (turns : List Path) (path : Path) :
    turns.foldl (fun place turn => (place.join turn).normalize) path.normalize =
      (turns.foldl join path).normalize := by
  induction turns generalizing path with
  | nil => rfl
  | cons turn rest ih => rw [List.foldl_cons, join_normalize_left, ih, List.foldl_cons]

/-- Normalization goes along with joining: a path may be normalized before or after it is seen from
another one, and a path that is found in several turns is the one found in a single turn. -/
theorem normalize_respects_join (first second third : Path) (turns : List Path) :
    (first.join second).normalize = (first.normalize.join second).normalize ∧
    (first.join second).normalize = (first.join second.normalize).normalize ∧
    ((first.join second).join third).normalize =
      (first.join (second.join third).normalize).normalize ∧
    turns.foldl (fun path turn => (path.join turn).normalize) first.normalize =
      (turns.foldl join first).normalize := by
  refine ⟨(join_normalize_left ..).symm, (join_normalize_right ..).symm, ?_,
    foldl_join_normalize turns first⟩
  rw [normalize_join_assoc, join_normalize_right]

end Path
end UnitCache
