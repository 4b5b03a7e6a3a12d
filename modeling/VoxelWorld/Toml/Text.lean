import VoxelWorld.Text.Hex

/-!
# Toml.Text — blanks, comments, strings and keys

A reader takes the characters that are left and gives a value and the rest, or
refuses. Line ends are a line feed with or without a carriage return before it.

1. `endOfLine?` reads the rest of a line, `skipLines?` any number of blank lines.
2. `string?` reads the four kinds of strings.
3. `keyPath?` reads a key with its dots.
-/

namespace VoxelWorld.Toml

/-- Reads a value from the front of a text. -/
abbrev Reader (α : Type) := List Char → Option (α × List Char)

/-! ## Blanks and lines -/

def isBlank (c : Char) : Bool := c = ' ' || c = '\t'

/-- The characters of comments and literal strings: no control character but the tab. -/
def isPlain (c : Char) : Bool := c = '\t' || (' ' ≤ c && c ≠ '\x7f')

def skipBlanks (cs : List Char) : List Char := cs.dropWhile isBlank

def newline? : List Char → Option (List Char)
  | '\n' :: cs => some cs
  | '\r' :: '\n' :: cs => some cs
  | _ => none

/-- A line end, or the end of the text. -/
def lineEnd? : List Char → Option (List Char)
  | [] => some []
  | cs => newline? cs

/-- The rest of a line after its last value: blanks, a comment, the line end. -/
def endOfLine? (cs : List Char) : Option (List Char) :=
  match skipBlanks cs with
  | '#' :: cs => lineEnd? (cs.dropWhile isPlain)
  | cs => lineEnd? cs

/-- Skips blanks, line ends and comments. A comment must end with its line. -/
def skipLines? (inComment : Bool) : List Char → Option (List Char)
  | [] => if inComment then none else some []
  | '\n' :: cs => skipLines? false cs
  | '\r' :: '\n' :: cs => skipLines? false cs
  | c :: cs =>
    if inComment then
      if isPlain c then skipLines? true cs else none
    else if isBlank c then skipLines? false cs
    else if c = '#' then skipLines? true cs
    else some (c :: cs)

/-! ## Escapes -/

/-- The character with the given hexadecimal number, if there is one. -/
def hexChar? (digits : List Char) : Option Char := do
  let n ← Hex.toNat? digits
  if n.isValidChar then some (Char.ofNat n) else none

/-- The character that a one-letter escape stands for. -/
def escape? : Char → Option Char
  | 'b' => some '\x08'
  | 't' => some '\t'
  | 'n' => some '\n'
  | 'f' => some '\x0c'
  | 'r' => some '\r'
  | '"' => some '"'
  | '\\' => some '\\'
  | _ => none

/-! ## Strings -/

/-- The end of a multi-line string: three quotes, with up to two more before them that
belong to the text. Gives the number of those. -/
def closing? (quote : Char) : List Char → Option (Nat × List Char)
  | a :: b :: c :: cs =>
    if a = quote ∧ b = quote ∧ c = quote then
      match cs with
      | d :: e :: rest =>
        if d = quote then
          if e = quote then some (2, rest) else some (1, e :: rest)
        else some (0, cs)
      | [d] => if d = quote then some (1, []) else some (0, cs)
      | [] => some (0, [])
    else none
  | _ => none

/-- Text in double quotes up to the closing one; `acc` is what was read, in reverse. -/
def basic? (acc : List Char) : Reader String
  | [] => none
  | '"' :: cs => some (String.ofList acc.reverse, cs)
  | '\\' :: 'u' :: a :: b :: c :: d :: cs => do
    let x ← hexChar? [a, b, c, d]
    basic? (x :: acc) cs
  | '\\' :: 'U' :: a :: b :: c :: d :: e :: f :: g :: h :: cs => do
    let x ← hexChar? [a, b, c, d, e, f, g, h]
    basic? (x :: acc) cs
  | '\\' :: c :: cs => do
    let x ← escape? c
    basic? (x :: acc) cs
  | c :: cs => if isPlain c && c ≠ '\\' then basic? (c :: acc) cs else none

/-- Where a multi-line string stands with respect to an escaped line end. -/
inductive LineJoin
  | none
  /-- After a backslash and a blank: only a line end may follow. -/
  | awaited
  /-- After the line end: blanks and further line ends are dropped. -/
  | skipping
deriving DecidableEq

/-- Text between triple double quotes. -/
def multiBasic? (join : LineJoin) (acc : List Char) : Reader String
  | [] => none
  | '\r' :: '\n' :: cs =>
    if join = .none then multiBasic? .none ('\n' :: acc) cs else multiBasic? .skipping acc cs
  | '\n' :: cs =>
    if join = .none then multiBasic? .none ('\n' :: acc) cs else multiBasic? .skipping acc cs
  | '\\' :: '\n' :: cs => if join = .awaited then none else multiBasic? .skipping acc cs
  | '\\' :: '\r' :: '\n' :: cs => if join = .awaited then none else multiBasic? .skipping acc cs
  | '\\' :: 'u' :: a :: b :: c :: d :: cs =>
    if join = .awaited then none
    else do
      let x ← hexChar? [a, b, c, d]
      multiBasic? .none (x :: acc) cs
  | '\\' :: 'U' :: a :: b :: c :: d :: e :: f :: g :: h :: cs =>
    if join = .awaited then none
    else do
      let x ← hexChar? [a, b, c, d, e, f, g, h]
      multiBasic? .none (x :: acc) cs
  | '\\' :: c :: cs =>
    if join = .awaited then none
    else if isBlank c then multiBasic? .awaited acc cs
    else do
      let x ← escape? c
      multiBasic? .none (x :: acc) cs
  | c :: cs =>
    if join ≠ .none ∧ isBlank c then multiBasic? join acc cs
    else if join = .awaited then none
    else
      match closing? '"' (c :: cs) with
      | some (extra, rest) => some (String.ofList (List.replicate extra '"' ++ acc).reverse, rest)
      | none => if isPlain c && c ≠ '\\' then multiBasic? .none (c :: acc) cs else none

/-- Text in single quotes up to the closing one. -/
def literal? (acc : List Char) : Reader String
  | [] => none
  | '\'' :: cs => some (String.ofList acc.reverse, cs)
  | c :: cs => if isPlain c then literal? (c :: acc) cs else none

/-- Text between triple single quotes. -/
def multiLiteral? (acc : List Char) : Reader String
  | [] => none
  | '\r' :: '\n' :: cs => multiLiteral? ('\n' :: acc) cs
  | '\n' :: cs => multiLiteral? ('\n' :: acc) cs
  | c :: cs =>
    match closing? '\'' (c :: cs) with
    | some (extra, rest) => some (String.ofList (List.replicate extra '\'' ++ acc).reverse, rest)
    | none => if isPlain c then multiLiteral? (c :: acc) cs else none

/-- Drops the line end that may follow the opening of a multi-line string. -/
def afterOpening (cs : List Char) : List Char := (newline? cs).getD cs

/-- A string of any kind. -/
def string? : Reader String
  | '"' :: '"' :: '"' :: cs => multiBasic? .none [] (afterOpening cs)
  | '"' :: cs => basic? [] cs
  | '\'' :: '\'' :: '\'' :: cs => multiLiteral? [] (afterOpening cs)
  | '\'' :: cs => literal? [] cs
  | _ => none

/-! ## Keys -/

/-- The characters of a key without quotes. -/
def isBare (c : Char) : Bool := c.isAlphanum || c = '_' || c = '-'

def simpleKey? : Reader String
  | '"' :: cs => basic? [] cs
  | '\'' :: cs => literal? [] cs
  | cs =>
    let name := cs.takeWhile isBare
    if name.isEmpty then none else some (String.ofList name, cs.dropWhile isBare)

/-- The steps of a dotted key, with blanks around each; at most as many as `fuel`. -/
def keySteps? (fuel : Nat) : Reader (List String) := fun cs =>
  match fuel with
  | 0 => none
  | fuel + 1 => do
    let (key, cs) ← simpleKey? (skipBlanks cs)
    match skipBlanks cs with
    | '.' :: cs => do
      let (keys, cs) ← keySteps? fuel cs
      some (key :: keys, cs)
    | cs => some ([key], cs)

/-- The deepest nesting of values, and the number of steps of a key, that is read. -/
def nestingLimit : Nat := 79

/-- A key: its steps but the last, and the last. -/
def keyPath? : Reader (List String × String) := fun cs => do
  let (keys, cs) ← keySteps? nestingLimit cs
  let key ← keys.getLast?
  some ((keys.dropLast, key), cs)

end VoxelWorld.Toml
