/-! TOML values, and the rules by which statements define tables. -/

namespace UnitCache.Toml

/-- How a table came to be, which decides what may still be added to it. -/
inductive Form where
  /-- Named by a header of its own, or the document itself. -/
  | header
  /-- Above a table that a header names. -/
  | implied
  /-- Made by a dotted key. -/
  | dotted
  /-- Written between braces. -/
  | closed
deriving DecidableEq

/-- Floats and times are not looked into, so only their presence is kept. -/
inductive Value where
  | string (text : String)
  | integer (value : Int)
  | float
  | boolean (value : Bool)
  | time
  | array (items : List Value)
  | table (form : Form) (fields : List (String × Value))
  | tables (items : List Value)

abbrev Fields := List (String × Value)

structure Table where
  form : Form
  fields : Fields

def field? (fields : Fields) (key : String) : Option Value :=
  (fields.find? fun field => field.1 = key).map Prod.snd

def setField (fields : Fields) (key : String) (value : Value) : Fields :=
  fields.map fun field => if field.1 = key then (key, value) else field

def Table.value (table : Table) : Value := .table table.form table.fields

namespace Table

/-- Changes the table at the end of a path of keys. Tables that are missing are made. An array of
tables stands for its last one. Dotted keys may not pass through a table that has a header, and no
path enters a closed table or another kind of value. -/
def within (dotted : Bool) (change : Table → Option Table) : List String → Table → Option Table
  | [], table => change table
  | key :: rest, table =>
    match field? table.fields key with
    | none =>
      (within dotted change rest ⟨if dotted then .dotted else .implied, []⟩).map fun inner =>
        { table with fields := table.fields ++ [(key, inner.value)] }
    | some (.table .closed _) => none
    | some (.table form fields) =>
      if dotted && form = .header then none
      else (within dotted change rest ⟨form, fields⟩).map fun inner =>
        { table with fields := setField table.fields key inner.value }
    | some (.tables items) =>
      match items.getLast? with
      | some (.table form fields) =>
        (within dotted change rest ⟨form, fields⟩).map fun inner =>
          { table with
            fields := setField table.fields key (.tables (items.dropLast ++ [inner.value])) }
      | _ => none
    | some _ => none

/-- Defines a key of a table once. -/
def define (key : String) (value : Value) (table : Table) : Option Table :=
  match field? table.fields key with
  | some _ => none
  | none => some { table with fields := table.fields ++ [(key, value)] }

/-- Defines the key at the end of a dotted path. The table before a dot must itself have been made
by dotted keys. -/
def defineAt (path : List String) (key : String) (value : Value) (table : Table) : Option Table :=
  table.within true
    (fun inner =>
      if path.isEmpty || inner.form = .dotted then inner.define key value else none) path

/-- Opens the table that a header names, which no header or key has named before. -/
def openTable (path : List String) (key : String) (table : Table) : Option Table :=
  table.within false
    (fun outer =>
      match field? outer.fields key with
      | none => outer.define key (.table .header [])
      | some (.table .implied fields) =>
        some { outer with fields := setField outer.fields key (.table .header fields) }
      | some _ => none) path

/-- Adds a table to the array of tables that a header names. -/
def openItem (path : List String) (key : String) (table : Table) : Option Table :=
  table.within false
    (fun outer =>
      match field? outer.fields key with
      | none => outer.define key (.tables [.table .header []])
      | some (.tables items) =>
        some { outer with
          fields := setField outer.fields key (.tables (items ++ [.table .header []])) }
      | some _ => none) path

end Table

/-- A statement of a document; keys are given by the path before them. -/
inductive Statement where
  | define (path : List String) (key : String) (value : Value)
  | openTable (path : List String) (key : String)
  | openItem (path : List String) (key : String)

/-- The document so far, and the path of the table that definitions go to. -/
structure Document where
  root : Table
  current : List String

namespace Document

def empty : Document := ⟨⟨.header, []⟩, []⟩

def apply (document : Document) : Statement → Option Document
  | .define path key value =>
    (document.root.within false (Table.defineAt path key value) document.current).map fun root =>
      { document with root }
  | .openTable path key => (document.root.openTable path key).map (⟨·, path ++ [key]⟩)
  | .openItem path key => (document.root.openItem path key).map (⟨·, path ++ [key]⟩)

def ofStatements? (statements : List Statement) : Option Fields :=
  (statements.foldlM apply empty).map (·.root.fields)

end Document

end UnitCache.Toml
