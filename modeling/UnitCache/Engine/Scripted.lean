import UnitCache.Engine.Basic

/-! An engine that answers from tables, for rehearsing what a cache does with successes and
failures. -/

namespace UnitCache.Scripted

/-- A unit knows its number, counted from one, and how often it was reparsed. -/
structure ParsedUnit where
  id : Nat
  path : Path
  reparses : Nat
deriving DecidableEq

/-- The tables: which headers a source includes, which operations fail, which flags are
preferred. -/
structure Script where
  includes : List (Path × List Path)
  failingParses : List Path
  failingReparses : List Path
  failingDisposals : List Path
  failingClose : Bool
  editingFlags : Option ParseFlags
  reparseFlags : Option ReparseFlags
  /-- The number of units parsed so far. -/
  parsed : Nat

namespace Script

def empty : Script := ⟨[], [], [], [], false, none, none, 0⟩

instance : Inhabited Script := ⟨empty⟩

end Script

def lists (paths : List Path) (path : Path) : Bool :=
  paths.any fun listed => listed.Same path

def mark (paths : List Path) (path : Path) (listed : Bool) : List Path :=
  let others := paths.filter fun other => !decide (other.Same path)
  if listed then others ++ [path] else others

def assign {α : Type} (table : List (Path × α)) (path : Path) (value : α) : List (Path × α) :=
  table.filter (fun entry => !decide (entry.1.Same path)) ++ [(path, value)]

def find? {α : Type} (table : List (Path × α)) (path : Path) : Option α :=
  (table.find? fun entry => entry.1.Same path).map Prod.snd

def failureIf (fails : Bool) (status : Int) (text : String) : Option EngineFailure :=
  if fails then some ⟨status, text⟩ else none

def parse (script : Script) (request : ParseRequest) : ParseReply Script ParsedUnit :=
  if lists script.failingParses request.path then ⟨.error ⟨1, "scripted parse failure"⟩, script, []⟩
  else
    let number := script.parsed + 1
    ⟨.ok ⟨number, request.path, 0⟩, { script with parsed := number }, []⟩

def reparse (script : Script) (unit : ParsedUnit) : ReparseReply Script ParsedUnit :=
  if lists script.failingReparses unit.path then
    ⟨some ⟨-2, "scripted reparse failure"⟩, unit, script, []⟩
  else ⟨none, { unit with reparses := unit.reparses + 1 }, script, []⟩

/-- Whether the tables say that the unit's file includes a path, spelled with the same steps. -/
def includes (script : Script) (unit : ParsedUnit) (path : Path) : Bool :=
  match find? script.includes unit.path with
  | none => false
  | some headers => lists headers path

/-- The engine; its index is the flags set on it. -/
def engine : Engine where
  State := Script
  Index := IndexFlags
  Parsed := ParsedUnit
  openIndex script _ := (.none, script)
  closeIndex script _ := (failureIf script.failingClose 4 "scripted index failure", script)
  flags _ index := index
  setFlags script _ flags := (flags, script)
  parse _ script _ request := parse script request
  reparse _ script unit _ _ := reparse script unit
  dispose script unit :=
    (failureIf (lists script.failingDisposals unit.path) 3 "scripted dispose failure", script)
  includes := includes
  editingFlags script := script.editingFlags.getD .editing
  reparseFlags script _ := script.reparseFlags.getD ⟨0⟩

end UnitCache.Scripted
