import VoxelWorld.Toml.Number

/-!
# Toml.Document — values and whole documents

1. `value?` reads one value; nesting deeper than `nestingLimit` is refused.
2. `document?` reads the lines of a document: blank lines, headers, keys.
3. `parse?` reads a text, with or without a byte order mark.
-/

namespace VoxelWorld.Toml

/-! ## Values -/

/-- The items of an array up to its bracket, each on any line. A comma may follow the
last one. -/
def items? (item : Reader Node) (fuel : Nat) : Reader (List Node) := fun cs =>
  match fuel with
  | 0 => none
  | fuel + 1 => do
    match ← skipLines? false cs with
    | ']' :: cs => some ([], cs)
    | cs =>
      let (v, cs) ← item cs
      match ← skipLines? false cs with
      | ',' :: cs => do
        let (vs, cs) ← items? item fuel cs
        some (v :: vs, cs)
      | ']' :: cs => some ([v], cs)
      | _ => none

/-- The keys and values of an inline table up to its brace, all on one line. -/
def pairs? (item : Reader Node) (fuel : Nat) (es : Entries) : Reader Entries := fun cs =>
  match fuel with
  | 0 => none
  | fuel + 1 => do
    let ((steps, key), cs) ← keyPath? cs
    let cs ← char? '=' cs
    let (v, cs) ← item (skipBlanks cs)
    let es ← es.addKey steps key v
    match skipBlanks cs with
    | ',' :: cs => pairs? item fuel es cs
    | '}' :: cs => some (es, cs)
    | _ => none

/-- A value with at most `depth` arrays and inline tables around its innermost part. -/
def value? (depth : Nat) : Reader Node := fun cs =>
  match cs with
  | '"' :: _ | '\'' :: _ => do
    let (s, cs) ← string? cs
    some (.str s, cs)
  | '[' :: rest =>
    match depth with
    | 0 => none
    | depth + 1 => do
      let (vs, cs) ← items? (value? depth) (rest.length + 1) rest
      some (.array vs, cs)
  | '{' :: rest =>
    match depth with
    | 0 => none
    | depth + 1 =>
      match skipBlanks rest with
      | '}' :: cs => some (.table .inline [], cs)
      | rest => do
        let (es, cs) ← pairs? (value? depth) (rest.length + 1) [] rest
        some (.table .inline es, cs)
  | 't' :: 'r' :: 'u' :: 'e' :: rest => some (.bool true, rest)
  | 'f' :: 'a' :: 'l' :: 's' :: 'e' :: rest => some (.bool false, rest)
  | cs =>
    match datetime? cs with
    | some rest => some (.datetime, rest)
    | none => number? cs

/-! ## Documents -/

/-- A header that keys are being read for. -/
structure Header where
  path : List String
  key : String
  repeated : Bool

/-- A document being read: what stands before the current header, and the table that the
keys now go to. -/
structure Draft where
  root : Entries
  header : Option Header
  current : Entries

namespace Draft

/-- The document with the current table put in its place. -/
def close (d : Draft) : Option Entries :=
  match d.header with
  | none => some d.current
  | some h => do
    let place := if h.repeated then Entries.appendTable h.key d.current
      else Entries.putTable h.key d.current
    let (_, root) ← d.root.within place h.path
    return root

/-- Starts the table of a header. -/
def start (d : Draft) (h : Header) : Option Draft := do
  let root ← d.close
  if h.repeated then
    let (_, root) ← root.within (Entries.openTables h.key) h.path
    return ⟨root, some h, []⟩
  else
    let (current, root) ← root.within (Entries.takeTable h.key) h.path
    return ⟨root, some h, current⟩

def addKey (d : Draft) (steps : List String) (key : String) (v : Node) : Option Draft := do
  let current ← d.current.addKey steps key v
  return { d with current }

end Draft

/-- The lines of a document. -/
def lines? (fuel : Nat) (d : Draft) (cs : List Char) : Option Draft :=
  match fuel with
  | 0 => none
  | fuel + 1 =>
    match skipBlanks cs with
    | [] => some d
    | '#' :: cs => do
      let cs ← lineEnd? (cs.dropWhile isPlain)
      lines? fuel d cs
    | '\n' :: cs | '\r' :: '\n' :: cs => lines? fuel d cs
    | '[' :: '[' :: cs => do
      let ((path, key), cs) ← keyPath? cs
      let cs ← char? ']' cs
      let cs ← char? ']' cs
      let cs ← endOfLine? cs
      let d ← d.start ⟨path, key, true⟩
      lines? fuel d cs
    | '[' :: cs => do
      let ((path, key), cs) ← keyPath? cs
      let cs ← char? ']' cs
      let cs ← endOfLine? cs
      let d ← d.start ⟨path, key, false⟩
      lines? fuel d cs
    | cs => do
      let ((steps, key), cs) ← keyPath? cs
      let cs ← char? '=' cs
      let (v, cs) ← value? nestingLimit (skipBlanks cs)
      let cs ← endOfLine? cs
      let d ← d.addKey steps key v
      lines? fuel d cs

/-- The table that a document denotes. -/
def document? (cs : List Char) : Option Entries := do
  let d ← lines? (cs.length + 1) ⟨[], none, []⟩ cs
  d.close

/-- The table that a text denotes; a byte order mark in front is skipped. -/
def parse? (text : String) : Option Entries :=
  match text.toList with
  | '\ufeff' :: cs => document? cs
  | cs => document? cs

end VoxelWorld.Toml
