import VoxelWorld.Toml.Document

/-!
# Toml.Fields — records and plain values from nodes

A record is written as a table, whose keys may hold more than the record needs, or as
an array with the fields in their order, whose last ones may be missing.

1. `Node.fields?` looks at a node as a record.
2. The other readers take a node as a value of one type. An integer is read as a
   number too, and nothing else is converted.
-/

namespace VoxelWorld.Toml

/-- The fields of a record by name and by place. -/
abbrev Fields := String → Nat → Option Node

namespace Node

def fields? : Node → Option Fields
  | .table _ es => some fun name _ => Entries.get? es name
  | .array items => some fun _ place => items[place]?
  | .tables items => some fun _ place => items[place]?
  | .datetime => some fun _ _ => none
  | _ => none

def str? : Node → Option String
  | .str s => some s
  | _ => none

def bool? : Node → Option Bool
  | .bool b => some b
  | _ => none

/-- An integer between two bounds. -/
def intIn? (lo hi : Int) : Node → Option Int
  | .int n => if lo ≤ n ∧ n ≤ hi then some n else none
  | _ => none

/-- An integer of 32 bits. -/
def coord? : Node → Option Int := intIn? (-2147483648) 2147483647

/-- A natural number of at most `hi`. -/
def natUpTo? (hi : Nat) (v : Node) : Option Nat := (intIn? 0 hi v).map Int.toNat

/-- A number, rounded to single precision. -/
def float32? : Node → Option Float32
  | .int n => some (Int64.ofInt n).toFloat32
  | .float x => some x.toFloat32
  | _ => none

/-- The items of an array, or repeated tables. -/
def list? : Node → Option (List Node)
  | .array items => some items
  | .tables items => some items
  | _ => none

/-- A choice without further data: its name, or a record of that one name with nothing
in it. -/
def choice? : Node → Option String
  | .str s => some s
  | .table _ [(name, .table _ [])] => some name
  | .table _ [(name, .array [])] => some name
  | _ => none

end Node

/-- A field that may be missing. A field that is there must be readable. -/
def optional? {α : Type} (read : Node → Option α) : Option Node → Option (Option α)
  | none => some none
  | some v => (read v).map some

/-- A field with a value for the case that it is missing. -/
def orElse? {α : Type} (read : Node → Option α) (default : α) : Option Node → Option α
  | none => some default
  | some v => read v

end VoxelWorld.Toml
