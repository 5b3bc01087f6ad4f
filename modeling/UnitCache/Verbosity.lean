import UnitCache.Text.Lines

/-! How much is reported about indexing work. -/

namespace UnitCache

inductive Verbosity where
  | quiet
  | verbose
  | trace
deriving DecidableEq, Inhabited

structure InvalidVerbosity where
  input : String
deriving DecidableEq

namespace InvalidVerbosity

def message (error : InvalidVerbosity) : String :=
  "invalid verbosity level '" ++ error.input ++ "': expected 0, 1, or 2"

end InvalidVerbosity

namespace Verbosity

def tier : Verbosity → Nat
  | .quiet => 0
  | .verbose => 1
  | .trace => 2

/-- The tier of a level; anything above the highest counts as the highest. -/
def clamp : Nat → Verbosity
  | 0 => .quiet
  | 1 => .verbose
  | _ => .trace

def ofTier? (level : Nat) : Except InvalidVerbosity Verbosity :=
  if level ≤ 2 then .ok (clamp level) else .error ⟨toString level⟩

/-- Reads a level from a text, with blanks around it allowed. A number that fits a byte but names no
tier is reported by its value, any other text as it stands. -/
def ofText? (text : String) : Except InvalidVerbosity Verbosity :=
  match Text.unsigned? 255 (Text.trim text.toList) with
  | none => .error ⟨text⟩
  | some level => ofTier? level

/-- Diagnostics and timing are reported above the quiet tier. -/
def aboveQuiet (verbosity : Verbosity) : Bool := 0 < verbosity.tier

/-- The highest tier also asks the engine itself to be verbose. -/
def isHighest (verbosity : Verbosity) : Bool := 2 ≤ verbosity.tier

/-- The more verbose of two tiers. -/
def max (left right : Verbosity) : Verbosity :=
  if left.tier < right.tier then right else left

end Verbosity

end UnitCache
