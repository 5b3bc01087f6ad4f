import UnitCache.Path.Basic

/-! Which files can be parsed on their own. -/

namespace UnitCache

/-- A source file makes a unit of its own; anything else is reached through one. -/
inductive FileRole where
  | source
  | header
deriving DecidableEq, Inhabited

namespace FileRole

/-- The extensions of source files, in lower case. -/
def extensions : List String := ["c", "cc", "cpp", "m", "mm"]

def lowercase (text : String) : String :=
  String.ofList (text.toList.map Char.toLower)

/-- Classifies a path by its extension, ignoring the case of ASCII letters. -/
def ofPath (path : Path) : FileRole :=
  match path.extension? with
  | none => .header
  | some extension => if lowercase extension ∈ extensions then .source else .header

def isSource (role : FileRole) : Bool := role = .source

def name : FileRole → String
  | .source => "source"
  | .header => "header"

end FileRole

end UnitCache
