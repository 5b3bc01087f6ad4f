/-! Compile arguments that name a directory to search for included files. -/

namespace UnitCache

/-- Directories are searched for quoted includes only, for all includes, or after all others. -/
inductive IncludeFlag where
  | quote
  | user
  | system
deriving DecidableEq, Inhabited

namespace IncludeFlag

def spelling : IncludeFlag → String
  | .quote => "-iquote"
  | .user => "-I"
  | .system => "-isystem"

/-- What follows the flag in an argument that begins with it. -/
def strip? (flag : IncludeFlag) (argument : String) : Option String :=
  (flag.spelling.toList.isPrefixOf? argument.toList).map String.ofList

/-- The flag an argument begins with and the directory written in the same argument. The directory
is empty when the flag stands alone and the next argument is the directory. -/
def split? (argument : String) : Option (IncludeFlag × String) :=
  [system, quote, user].findSome? fun flag => (flag.strip? argument).map (flag, ·)

end IncludeFlag

end UnitCache
