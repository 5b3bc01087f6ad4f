/-! File paths, kept as they were spelled and compared by what they name.

A path is a text. Its components are what the text says once repeated and
trailing separators and `.` steps are dropped, so two spellings with the same
components are the same path. Lexical normalization also resolves `..`, without
looking at any disk. -/

namespace UnitCache

/-- A path as it was spelled. -/
structure Path where
  text : String
deriving DecidableEq, Inhabited

/-- One step of a path. A leading `.` of a relative path is a step of its own. -/
inductive Component where
  | root
  | current
  | parent
  | name (text : String)
deriving DecidableEq, Inhabited

namespace Component

def spelling : Component → List Char
  | .root => []
  | .current => ['.']
  | .parent => ['.', '.']
  | .name text => text.toList

/-- The step that a piece between two separators stands for; an empty piece and `.` are no step. -/
def ofPiece? : List Char → Option Component
  | [] => none
  | ['.'] => none
  | ['.', '.'] => some .parent
  | piece => some (.name (String.ofList piece))

end Component

namespace Path

instance : Coe String Path := ⟨Path.mk⟩

def pieces (chars : List Char) : List (List Char) :=
  chars.splitOn '/'

def isAbsolute (path : Path) : Bool :=
  path.text.toList.head? = some '/'

def components (path : Path) : List Component :=
  match path.text.toList with
  | '/' :: body => .root :: (pieces body).filterMap Component.ofPiece?
  | body =>
    match pieces body with
    | ['.'] :: rest => .current :: rest.filterMap Component.ofPiece?
    | all => all.filterMap Component.ofPiece?

/-- Two spellings of one path: the same steps. -/
def Same (left right : Path) : Prop := left.components = right.components

instance (left right : Path) : Decidable (Same left right) :=
  inferInstanceAs (Decidable (left.components = right.components))

def ofComponents : List Component → Path
  | .root :: rest => ⟨String.ofList ('/' :: ['/'].intercalate (rest.map Component.spelling))⟩
  | steps => ⟨String.ofList (['/'].intercalate (steps.map Component.spelling))⟩

/-- `right` as seen from the directory `left`: an absolute `right` stands for itself. -/
def join (left right : Path) : Path :=
  if right.isAbsolute then right
  else if left.text.isEmpty || left.text.toList.getLast? = some '/' then ⟨left.text ++ right.text⟩
  else ⟨left.text ++ "/" ++ right.text⟩

/-- Adds one step to steps that hold no `.` and no avoidable `..`, last step first. -/
def push (steps : List Component) : Component → List Component
  | .current => steps
  | .parent =>
    match steps with
    | .name _ :: rest => rest
    | .root :: _ => steps
    | _ => .parent :: steps
  | step => step :: steps

/-- The path without `.` steps and without any `..` that has a step to cancel. A `..` that would
climb above the start of a relative path stays; one at the root is dropped. -/
def normalize (path : Path) : Path :=
  ofComponents (path.components.foldl push []).reverse

/-- The pieces before the last one that is a step, less what follows the step before it; `none` if
no piece is a step. -/
def dropStep? (all : List (List Char)) : Option (List (List Char)) :=
  match all.reverse.dropWhile fun piece => (Component.ofPiece? piece).isNone with
  | [] => none
  | _ :: before => some (before.dropWhile fun piece => (Component.ofPiece? piece).isNone).reverse

/-- The spelling of the path up to its last step, `none` for the root and the empty path. -/
def parent? (path : Path) : Option Path :=
  match path.text.toList with
  | '/' :: body =>
    (dropStep? (pieces body)).map fun before => ⟨String.ofList ('/' :: ['/'].intercalate before)⟩
  | body =>
    match pieces body with
    | ['.'] :: rest =>
      match dropStep? rest with
      | some before => some ⟨String.ofList (['/'].intercalate (['.'] :: before))⟩
      | none => some ⟨""⟩
    | all => (dropStep? all).map fun before => ⟨String.ofList (['/'].intercalate before)⟩

/-- The name a path ends in; a path that ends in the root, `.` or `..` has none. -/
def fileName? (path : Path) : Option String :=
  match path.components.getLast? with
  | some (.name text) => some text
  | _ => none

/-- What follows the last dot of the file name. A name whose only dot comes first has none. -/
def extension? (path : Path) : Option String :=
  match path.fileName? with
  | none => none
  | some name =>
    let backwards := name.toList.reverse
    match backwards.dropWhile (· != '.') with
    | [] => none
    | [_] => none
    | _ => some (String.ofList (backwards.takeWhile (· != '.')).reverse)

end Path

end UnitCache
