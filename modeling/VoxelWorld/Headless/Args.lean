import VoxelWorld.Decimal

/-!
# Headless.Args — the command line

Every setting is a long flag with a value, `--flag value` or `--flag=value`, and may be
given once. A value of its own does not start with a minus.

1. `Args` holds the settings.
2. `parse` reads them from left to right, and stops at the first thing that is wrong or
   asks for help.
-/

namespace VoxelWorld.Headless

/-- The settings of a run. -/
structure Args where
  /-- File with the configuration. -/
  config : Option String := none
  /-- File with the block list. -/
  blocks : Option String := none
  seed : Option Int := none
  radius : Option Int := none
  workers : Option Nat := none
  saveDir : Option String := none
  ticks : Option Nat := none
  /-- Pause after each tick. -/
  tickMs : Option Nat := none
  /-- Blocks that the origin moves along `x` with each tick. -/
  walk : Option Float32 := none
deriving Inhabited

namespace Args

def tickCount (a : Args) : Nat := a.ticks.getD 16

def pause (a : Args) : Nat := a.tickMs.getD 16

def stride (a : Args) : Float32 := a.walk.getD 0

end Args

/-! ## Values -/

/-- The number written by decimal digits, at least one. -/
def digits? (cs : List Char) : Option Nat :=
  if cs.isEmpty || !cs.all Char.isDigit then none
  else some (cs.foldl (fun n c => n * 10 + (c.toNat - '0'.toNat)) 0)

/-- A number of 64 bits without a sign, except that a plus may stand before it. -/
def size? (s : String) : Option Nat := do
  let n ← match s.toList with
    | '+' :: cs => digits? cs
    | cs => digits? cs
  if n < 18446744073709551616 then some n else none

/-- A number between two bounds; a sign may stand before it. -/
def int? (lo hi : Int) (s : String) : Option Int := do
  let n : Int ← match s.toList with
    | '+' :: cs => (digits? cs).map fun n : Nat => (n : Int)
    | '-' :: cs => (digits? cs).map fun n : Nat => -(n : Int)
    | cs => (digits? cs).map fun n : Nat => (n : Int)
  if lo ≤ n ∧ n ≤ hi then some n else none

/-- A coordinate. -/
def coord? (s : String) : Option Int := int? (-2147483648) 2147483647 s

/-- A count of 32 bits. It is read as a number with a sign, so that zero may have a minus. -/
def count? (s : String) : Option Nat := (int? 0 4294967295 s).map Int.toNat

/-- The exponent after the digits of a number; zero where nothing is left. -/
def exponent? : List Char → Option Int
  | [] => some 0
  | c :: cs =>
    if c = 'e' ∨ c = 'E' then
      match cs with
      | '+' :: cs => (digits? cs).map fun n : Nat => (n : Int)
      | '-' :: cs => (digits? cs).map fun n : Nat => -(n : Int)
      | cs => (digits? cs).map fun n : Nat => (n : Int)
    else none

/-- Digits with a point somewhere among or beside them, and an exponent. -/
def decimal? (negative : Bool) (cs : List Char) : Option Float32 := do
  let whole := cs.takeWhile Char.isDigit
  let rest := cs.dropWhile Char.isDigit
  let (frac, rest) := match rest with
    | '.' :: rest => (rest.takeWhile Char.isDigit, rest.dropWhile Char.isDigit)
    | rest => ([], rest)
  let m ← digits? (whole ++ frac)
  let e ← exponent? rest
  some (Decimal.mk negative m (e - frac.length)).toFloat32

/-- A number in single precision, or the name of one that has no digits. -/
def float32? (s : String) : Option Float32 :=
  let (negative, cs) := match s.toList with
    | '-' :: cs => (true, cs)
    | '+' :: cs => (false, cs)
    | cs => (false, cs)
  let name := String.ofList (cs.map Char.toLower)
  if name = "inf" ∨ name = "infinity" then
    some (if negative then -(1.0 / 0.0) else 1.0 / 0.0)
  else if name = "nan" then some (0.0 / 0.0)
  else decimal? negative cs

/-- The name of a file or directory, which is not empty. -/
def path? (s : String) : Option String := if s.isEmpty then none else some s

/-! ## Flags -/

/-- Sets a setting that has not been set, if its value can be read. -/
def once {α : Type} (old : Option α) (value : Option α) : Option (Option α) :=
  match old, value with
  | none, some v => some (some v)
  | _, _ => none

/-- Whether a flag takes a value. -/
def isFlag (name : String) : Bool :=
  ["config", "blocks", "seed", "radius", "workers", "save-dir", "ticks", "tick-ms", "walk"].contains
    name

/-- The settings with one more flag. -/
def Args.set? (a : Args) (name value : String) : Option Args :=
  match name with
  | "config" => do
    let config ← once a.config (path? value)
    some { a with config }
  | "blocks" => do
    let blocks ← once a.blocks (path? value)
    some { a with blocks }
  | "seed" => do
    let seed ← once a.seed (coord? value)
    some { a with seed }
  | "radius" => do
    let radius ← once a.radius (coord? value)
    some { a with radius }
  | "workers" => do
    let workers ← once a.workers (size? value)
    some { a with workers }
  | "save-dir" => do
    let saveDir ← once a.saveDir (path? value)
    some { a with saveDir }
  | "ticks" => do
    let ticks ← once a.ticks (count? value)
    some { a with ticks }
  | "tick-ms" => do
    let tickMs ← once a.tickMs (size? value)
    some { a with tickMs }
  | "walk" => do
    let walk ← once a.walk (float32? value)
    some { a with walk }
  | _ => none

/-! ## The command line -/

/-- What a command line asks for. -/
inductive Request
  | run (args : Args)
  | help
  /-- The command line is wrong. -/
  | refused
deriving Inhabited

/-- An argument cut into a flag and the value after its equals sign. -/
def cutFlag? (arg : String) : Option (String × Option String) :=
  match arg.toList with
  | '-' :: '-' :: cs =>
    let name := String.ofList (cs.takeWhile (· ≠ '='))
    match cs.dropWhile (· ≠ '=') with
    | [] => some (name, none)
    | _ :: value => some (name, some (String.ofList value))
  | _ => none

/-- Whether an argument can be the value of the flag before it. -/
def isValue (arg : String) : Bool := arg = "-" || !arg.startsWith "-"

/-- Reads the arguments that are left. -/
def parse (a : Args) : List String → Request
  | [] => .run a
  | [arg] =>
    if arg = "--" then .run a
    else if arg = "--help" ∨ arg.startsWith "-h" then .help
    else
      match cutFlag? arg with
      | some (name, some value) => ((a.set? name value).map Request.run).getD .refused
      | _ => .refused
  | arg :: next :: rest =>
    if arg = "--help" ∨ arg.startsWith "-h" then .help
    else
      match cutFlag? arg with
      | some (name, some value) =>
        match a.set? name value with
        | some a => parse a (next :: rest)
        | none => .refused
      | some (name, none) =>
        if isFlag name && isValue next then
          match a.set? name next with
          | some a => parse a rest
          | none => .refused
        else .refused
      | none => .refused

end VoxelWorld.Headless
