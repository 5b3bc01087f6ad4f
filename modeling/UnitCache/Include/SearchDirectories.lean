import UnitCache.Include.Directive
import UnitCache.IncludeFlag
import UnitCache.Path.Basic
import UnitCache.Text.Quoted

/-! Where included files are looked for. -/

namespace UnitCache

/-- Directories by the flag that names them, in argument order. -/
structure SearchDirectories where
  quote : List Path
  user : List Path
  system : List Path
deriving DecidableEq

namespace SearchDirectories

def empty : SearchDirectories := ⟨[], [], []⟩

instance : Inhabited SearchDirectories := ⟨empty⟩

def cons (flag : IncludeFlag) (directory : Path) (search : SearchDirectories) : SearchDirectories :=
  match flag with
  | .quote => { search with quote := directory :: search.quote }
  | .user => { search with user := directory :: search.user }
  | .system => { search with system := directory :: search.system }

/-- The directories that compile arguments name, seen from `base`. A flag that stands alone takes
the next argument as its directory, and names none if it is the last. -/
def ofArguments (base : Path) : List String → SearchDirectories
  | [] => empty
  | argument :: rest =>
    match IncludeFlag.split? argument with
    | none => ofArguments base rest
    | some (flag, text) =>
      if text = "" then
        match rest with
        | [] => empty
        | operand :: rest => (ofArguments base rest).cons flag (base.join ⟨operand⟩).normalize
      else (ofArguments base rest).cons flag (base.join ⟨text⟩).normalize

/-- The directories to look in, in order, for an include in a file of a directory. -/
def directories (search : SearchDirectories) (style : IncludeStyle) (directory : Path) :
    List Path :=
  match style with
  | .quoted => directory :: search.quote ++ search.user ++ search.system
  | .angled => search.user ++ search.system

/-- The files that an inclusion in a file of a directory may stand for, the first choice first. -/
def candidateFiles (search : SearchDirectories) (directory : Path) (inclusion : Inclusion) :
    List Path :=
  (search.directories inclusion.style directory).map fun candidate =>
    (candidate.join ⟨inclusion.name⟩).normalize

def isEmpty (search : SearchDirectories) : Bool :=
  search.quote.isEmpty && search.user.isEmpty && search.system.isEmpty

def describe (search : SearchDirectories) : String :=
  let group := fun (paths : List Path) => Text.quotedList (paths.map Path.text)
  "SearchPath \x7b quote: " ++ group search.quote ++ ", user: " ++ group search.user ++
    ", system: " ++ group search.system ++ " \x7d"

end SearchDirectories

end UnitCache
