import VoxelWorld.Decimal
import VoxelWorld.Toml.Node
import VoxelWorld.Toml.Text

/-!
# Toml.Number — numbers, dates and times

1. `number?` reads an integer of 64 bits or a floating-point number. Digits may be
   parted by single underscores; a decimal integer has no leading zero.
2. `datetime?` reads a date, a time or both, with every field in its range.
-/

namespace VoxelWorld.Toml

/-! ## Digits -/

def isDigit (c : Char) : Bool := '0' ≤ c && c ≤ '9'

/-- The digits that follow a first one, without their underscores. -/
def moreDigits? (isDigit : Char → Bool) : Reader (List Char)
  | '_' :: c :: cs =>
    if isDigit c then do
      let (ds, cs) ← moreDigits? isDigit cs
      some (c :: ds, cs)
    else none
  | c :: cs =>
    if isDigit c then do
      let (ds, cs) ← moreDigits? isDigit cs
      some (c :: ds, cs)
    else some ([], c :: cs)
  | [] => some ([], [])

/-- At least one digit. -/
def digits? (isDigit : Char → Bool) : Reader (List Char)
  | c :: cs =>
    if isDigit c then do
      let (ds, cs) ← moreDigits? isDigit cs
      some (c :: ds, cs)
    else none
  | [] => none

/-- The number written by digits in a base. -/
def ofDigits (base : Nat) (ds : List Char) : Nat :=
  ds.foldl (fun n c => n * base + (Hex.value? c).getD 0) 0

/-- A sign; `true` for a minus. -/
def sign : List Char → Bool × List Char
  | '-' :: cs => (true, cs)
  | '+' :: cs => (false, cs)
  | cs => (false, cs)

def withSign (negative : Bool) (n : Int) : Int := if negative then -n else n

/-! ## Numbers -/

/-- A number as an integer of 64 bits. -/
def int64? (n : Int) : Option Node :=
  if -9223372036854775808 ≤ n ∧ n ≤ 9223372036854775807 then some (.int n) else none

/-- A finite decimal number; one that is too large is refused unless it is negative. -/
def float? (d : Decimal) : Option Node :=
  let x := d.toFloat
  if x == 1.0 / 0.0 then none else some (.float x)

/-- The digits of a decimal integer: a zero alone, or digits that start with another. -/
def wholeDigits? : Reader (List Char)
  | '0' :: cs => some (['0'], cs)
  | cs => digits? isDigit cs

/-- The exponent of a number, zero where there is none. -/
def exponent? : Reader Int
  | c :: cs =>
    if c = 'e' ∨ c = 'E' then do
      let (negative, cs) := sign cs
      let (ds, cs) ← digits? isDigit cs
      some (withSign negative (ofDigits 10 ds), cs)
    else some (0, c :: cs)
  | [] => some (0, [])

/-- What follows the sign of a number. -/
def unsigned? (negative : Bool) : Reader Node
  | 'i' :: 'n' :: 'f' :: cs =>
    some (.float (if negative then -(1.0 / 0.0) else 1.0 / 0.0), cs)
  | 'n' :: 'a' :: 'n' :: cs => some (.float (0.0 / 0.0), cs)
  | cs => do
    let (whole, cs) ← wholeDigits? cs
    match cs with
    | '.' :: cs => do
      let (frac, cs) ← digits? isDigit cs
      let (e, cs) ← exponent? cs
      let x ← float? ⟨negative, ofDigits 10 (whole ++ frac), e - frac.length⟩
      some (x, cs)
    | 'e' :: _ | 'E' :: _ => do
      let (e, cs) ← exponent? cs
      let x ← float? ⟨negative, ofDigits 10 whole, e⟩
      some (x, cs)
    | cs => do
      let n ← int64? (withSign negative (ofDigits 10 whole))
      some (n, cs)

/-- An integer in another base, after its mark. -/
def based? (base : Nat) (isDigit : Char → Bool) : Reader Node := fun cs => do
  let (ds, cs) ← digits? isDigit cs
  let n ← int64? (ofDigits base ds)
  some (n, cs)

/-- A number of any kind. -/
def number? : Reader Node
  | '0' :: 'x' :: cs => based? 16 (fun c => (Hex.value? c).isSome) cs
  | '0' :: 'o' :: cs => based? 8 (fun c => '0' ≤ c && c ≤ '7') cs
  | '0' :: 'b' :: cs => based? 2 (fun c => c = '0' || c = '1') cs
  | cs =>
    let (negative, cs) := sign cs
    unsigned? negative cs

/-! ## Dates and times -/

/-- A field of exactly `n` digits that lies between two bounds. -/
def field? (n lo hi : Nat) : Reader Nat := fun cs =>
  let ds := cs.take n
  let v := ofDigits 10 ds
  if ds.length = n ∧ ds.all isDigit ∧ lo ≤ v ∧ v ≤ hi then some (v, cs.drop n) else none

def isLeapYear (year : Nat) : Bool := year % 4 = 0 && (year % 100 ≠ 0 || year % 400 = 0)

def daysInMonth (year month : Nat) : Nat :=
  if month = 2 then if isLeapYear year then 29 else 28
  else if month = 4 ∨ month = 6 ∨ month = 9 ∨ month = 11 then 30
  else 31

/-- One given character. -/
def char? (c : Char) : List Char → Option (List Char)
  | x :: cs => if x = c then some cs else none
  | [] => none

def date? (cs : List Char) : Option (List Char) := do
  let (year, cs) ← field? 4 0 9999 cs
  let cs ← char? '-' cs
  let (month, cs) ← field? 2 1 12 cs
  let cs ← char? '-' cs
  let (_, cs) ← field? 2 1 (daysInMonth year month) cs
  return cs

/-- A time of day with seconds; digits may follow them after a point. -/
def time? (cs : List Char) : Option (List Char) := do
  let (_, cs) ← field? 2 0 23 cs
  let cs ← char? ':' cs
  let (_, cs) ← field? 2 0 59 cs
  let cs ← char? ':' cs
  let (_, cs) ← field? 2 0 60 cs
  match cs with
  | '.' :: c :: rest => if isDigit c then some (rest.dropWhile isDigit) else some cs
  | _ => some cs

/-- The difference to universal time. -/
def offset? (cs : List Char) : Option (List Char) :=
  match cs with
  | 'Z' :: cs | 'z' :: cs => some cs
  | '+' :: cs | '-' :: cs => do
    let (_, cs) ← field? 2 0 23 cs
    let cs ← char? ':' cs
    let (_, cs) ← field? 2 0 59 cs
    return cs
  | _ => none

/-- A date with or without a time, or a time alone. -/
def datetime? (cs : List Char) : Option (List Char) :=
  match date? cs with
  | none => time? cs
  | some cs =>
    match cs with
    | 'T' :: rest | 't' :: rest | ' ' :: rest =>
      match time? rest with
      | none => some cs
      | some rest => some ((offset? rest).getD rest)
    | _ => some cs

end VoxelWorld.Toml
