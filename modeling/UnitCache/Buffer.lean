import UnitCache.Path.Basic

/-! Editor buffers that stand in for files on disk. -/

namespace UnitCache

/-- The contents of a buffer that has not been saved to the file at `path`. -/
structure Buffer where
  path : Path
  text : String
deriving DecidableEq, Inhabited

namespace Buffer

/-- The first buffer of a path, under any spelling with the same steps. -/
def find? (buffers : List Buffer) (path : Path) : Option Buffer :=
  buffers.find? fun buffer => buffer.path.Same path

end Buffer

/-- The unsaved buffers of an editor, at most one for each path, in the order they were opened. -/
structure Buffers where
  toList : List Buffer
deriving DecidableEq

namespace Buffers

def empty : Buffers := ⟨[]⟩

instance : Inhabited Buffers := ⟨empty⟩

def contains (opened : Buffers) (path : Path) : Bool :=
  (Buffer.find? opened.toList path).isSome

/-- Opens a buffer, or replaces the contents of the one that is open for the path. -/
def update (opened : Buffers) (path : Path) (text : String) : Buffers :=
  if opened.contains path then
    ⟨opened.toList.map fun buffer =>
      if buffer.path.Same path then { buffer with text } else buffer⟩
  else ⟨opened.toList ++ [⟨path, text⟩]⟩

/-- Closes the buffer of a path; the others keep their order. -/
def remove (opened : Buffers) (path : Path) : Buffers :=
  ⟨opened.toList.filter fun buffer => !decide (buffer.path.Same path)⟩

/-- Closes the buffer of a path and tells whether one was open. -/
def close (opened : Buffers) (path : Path) : Bool × Buffers :=
  ((Buffer.find? opened.toList path).isSome, opened.remove path)

def get? (opened : Buffers) (path : Path) : Option String :=
  (Buffer.find? opened.toList path).map Buffer.text

def size (opened : Buffers) : Nat := opened.toList.length

def ofList (buffers : List Buffer) : Buffers :=
  buffers.foldl (fun opened buffer => opened.update buffer.path buffer.text) empty

end Buffers

end UnitCache
