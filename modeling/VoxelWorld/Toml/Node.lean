/-!
# Toml.Node — the tree of a TOML document

1. `Node` is a value. A table remembers how it came into being, since that decides
   what may still be added to it.
2. `Entries.addKey` adds one value under a dotted key.
3. `Entries.within` works on the table that a header path names.

A table may be written once: a key never replaces a value, a dotted key adds only to
tables that dotted keys made, and a header opens only a table that was merely implied
by the path of another header.
-/

namespace VoxelWorld.Toml

/-- How a table came into being. -/
inductive TableKind
  /-- By its own header, or as the document itself. -/
  | header
  /-- As a step on the path of a header. -/
  | implied
  /-- As a step on a dotted key. -/
  | dotted
  /-- Between braces; nothing can be added. -/
  | inline
deriving DecidableEq, Repr, Inhabited

/-- A value of a document. -/
inductive Node
  | str (s : String)
  | int (n : Int)
  | float (x : Float)
  | bool (b : Bool)
  /-- A date or time; its value is never used. -/
  | datetime
  | array (items : List Node)
  | table (kind : TableKind) (entries : List (String × Node))
  /-- The tables of repeated headers `[[name]]`. -/
  | tables (items : List Node)
deriving Inhabited

abbrev Entries := List (String × Node)

namespace Entries

def get? (es : Entries) (key : String) : Option Node := es.lookup key

/-- The entries with the value of one key replaced, or added at the end. -/
def put (es : Entries) (key : String) (v : Node) : Entries :=
  match es with
  | [] => [(key, v)]
  | e :: rest => if e.1 = key then (key, v) :: rest else e :: put rest key v

def erase (es : Entries) (key : String) : Entries := es.filter (·.1 ≠ key)

/-- The last of repeated tables, with the ones before it. -/
def splitLast? (items : List Node) : Option (List Node × TableKind × Entries) :=
  match items.getLast? with
  | some (.table kind es) => some (items.dropLast, kind, es)
  | _ => none

/-- Adds a value under a key below the steps of a dotted key. The table in which the
value ends must have been made by a dotted key itself, or be the current one. -/
def addKey (es : Entries) : List String → String → Node → Option Entries
  | [], key, v => if (es.get? key).isSome then none else some (es.put key v)
  | step :: steps, key, v =>
    match es.get? step with
    | none => do
      let sub ← addKey [] steps key v
      some (es.put step (.table .dotted sub))
    | some (.table .dotted old) => do
      let sub ← addKey old steps key v
      some (es.put step (.table .dotted sub))
    | some (.table .implied old) =>
      if steps.isEmpty then none
      else do
        let sub ← addKey old steps key v
        some (es.put step (.table .implied sub))
    | some (.tables items) =>
      if steps.isEmpty then none
      else do
        let (before, kind, old) ← splitLast? items
        let sub ← addKey old steps key v
        some (es.put step (.tables (before ++ [.table kind sub])))
    | some _ => none

/-- Runs an action on the table at a header path, making the tables that are missing. A
step onto repeated tables means the last of them. -/
def within {α : Type} (es : Entries) (action : Entries → Option (α × Entries)) :
    List String → Option (α × Entries)
  | [] => action es
  | step :: steps =>
    match es.get? step with
    | none => do
      let (a, sub) ← within [] action steps
      some (a, es.put step (.table .implied sub))
    | some (.table .inline _) => none
    | some (.table kind old) => do
      let (a, sub) ← within old action steps
      some (a, es.put step (.table kind sub))
    | some (.tables items) => do
      let (before, kind, old) ← splitLast? items
      let (a, sub) ← within old action steps
      some (a, es.put step (.tables (before ++ [.table kind sub])))
    | some _ => none

/-- Takes out the table that a header opens: a new one, or one implied before. -/
def takeTable (key : String) (es : Entries) : Option (Entries × Entries) :=
  match es.get? key with
  | none => some ([], es)
  | some (.table .implied old) => some (old, es.erase key)
  | some _ => none

/-- Puts back the table that a header opened. -/
def putTable (key : String) (table : Entries) (es : Entries) : Option (Unit × Entries) :=
  if (es.get? key).isSome then none else some ((), es.put key (.table .header table))

/-- Checks that a repeated header can stand here. -/
def openTables (key : String) (es : Entries) : Option (Unit × Entries) :=
  match es.get? key with
  | none => some ((), es.put key (.tables []))
  | some (.tables _) => some ((), es)
  | some _ => none

/-- Adds one more of the tables of a repeated header. -/
def appendTable (key : String) (table : Entries) (es : Entries) : Option (Unit × Entries) :=
  match es.get? key with
  | none => some ((), es.put key (.tables [.table .header table]))
  | some (.tables items) => some ((), es.put key (.tables (items ++ [.table .header table])))
  | some _ => none

end Entries

end VoxelWorld.Toml
