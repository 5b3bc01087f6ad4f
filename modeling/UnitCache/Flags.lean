/-! Flags handed to a parser engine. The bits are those that native front ends use. -/

namespace UnitCache

/-- The hexadecimal form of a set of flags, such as `0x3`. -/
def Text.hexadecimal (bits : UInt32) : String :=
  String.ofList ('0' :: 'x' :: Nat.toDigits 16 bits.toNat)

structure IndexFlags where
  bits : UInt32
deriving DecidableEq, Inhabited

namespace IndexFlags

def none : IndexFlags := ⟨0⟩

/-- Indexing work runs at background priority. -/
def backgroundIndexing : IndexFlags := ⟨1⟩

/-- Editing work (parses and reparses) runs at background priority. -/
def backgroundEditing : IndexFlags := ⟨2⟩

def backgroundAll : IndexFlags := ⟨3⟩

/-- Whether every flag of `other` is set in `flags`. -/
def contains (flags other : IndexFlags) : Bool :=
  flags.bits &&& other.bits == other.bits

instance : OrOp IndexFlags := ⟨fun left right => ⟨left.bits ||| right.bits⟩⟩

def describe (flags : IndexFlags) : String :=
  "GlobalOptions(" ++ Text.hexadecimal flags.bits ++ ")"

end IndexFlags

structure ParseFlags where
  bits : UInt32
deriving DecidableEq, Inhabited

namespace ParseFlags

def none : ParseFlags := ⟨0⟩

/-- Keep a record of macro expansions and inclusions. -/
def keepRecord : ParseFlags := ⟨1⟩

/-- Tolerate an incomplete unit, such as a header parsed alone. -/
def allowIncomplete : ParseFlags := ⟨2⟩

/-- Build a preamble once and use it again in reparses. -/
def keepPreamble : ParseFlags := ⟨4⟩

/-- Keep completion results beside the preamble. -/
def keepCompletions : ParseFlags := ⟨8⟩

instance : OrOp ParseFlags := ⟨fun left right => ⟨left.bits ||| right.bits⟩⟩

/-- What suits an editor that reparses often. -/
def editing : ParseFlags := keepPreamble ||| keepCompletions

/-- Whether every flag of `other` is set in `flags`. -/
def contains (flags other : ParseFlags) : Bool :=
  flags.bits &&& other.bits == other.bits

def describe (flags : ParseFlags) : String :=
  "ParseOptions(" ++ Text.hexadecimal flags.bits ++ ")"

end ParseFlags

/-- Flags of a reparse, of which none is defined yet. -/
structure ReparseFlags where
  bits : UInt32
deriving DecidableEq, Inhabited

end UnitCache
