import Std.Data.HashMap
import VoxelWorld.Save.Path

/-!
# Save.Disk — files by path

A disk maps the paths of regular files to their bytes; directories are there wherever
they are needed. Two things can go wrong: a path has a name that no file can have, or a
regular file stands where it needs a directory.
-/

namespace VoxelWorld

/-- Why reading or writing failed. -/
inductive IoError
  /-- The bytes end too early. -/
  | unexpectedEnd
  /-- The bytes do not fit. -/
  | noRoom
  | notFound
  /-- The bytes are readable but wrong, for the stated reason. -/
  | invalidData (message : String)
  | notADirectory
  /-- The path is too long, or has a character that no name can have. -/
  | badName
deriving DecidableEq, Repr

/-- The regular files by path. -/
structure Disk where
  files : Std.HashMap String (List UInt8) := ∅

namespace Disk

def empty : Disk := {}

instance : Inhabited Disk := ⟨empty⟩

def get? (d : Disk) (path : String) : Option (List UInt8) := d.files[path]?

def contains (d : Disk) (path : String) : Bool := d.files.contains path

def put (d : Disk) (path : String) (bytes : List UInt8) : Disk := ⟨d.files.insert path bytes⟩

def erase (d : Disk) (path : String) : Disk := ⟨d.files.erase path⟩

/-- Whether a regular file stands where the path needs a directory. -/
def isBlocked (d : Disk) (path : String) : Bool :=
  (Path.ancestors path).any fun dir => d.contains (Path.direct dir)

/-- Succeeds if nothing stands in the way of a file with this path. -/
def reach (d : Disk) (path : String) : Except IoError Unit :=
  if !Path.isNameable path then .error .badName
  else if d.isBlocked path then .error .notADirectory
  else .ok ()

/-- The bytes of a file; `none` if there is no such file. -/
def read (d : Disk) (path : String) : Except IoError (Option (List UInt8)) := do
  d.reach path
  return d.get? path

/-- Whether a directory is there: one of the files lies below it. -/
def hasDir (d : Disk) (dir : String) : Bool :=
  d.files.keys.any fun path => (Path.direct path).startsWith (dir ++ "/")

/-- The bytes of a file that must be there, by any of its paths. -/
def fetch (d : Disk) (path : String) : Except IoError (List UInt8) := do
  d.reach path
  let found := d.get? path <|>
    (if (Path.detours path).all d.hasDir then d.get? (Path.direct path) else none)
  match found with
  | some bytes => return bytes
  | none => throw .notFound

/-- The files by path, in the order of their paths. -/
def listing (d : Disk) : List (String × List UInt8) :=
  d.files.toList.mergeSort fun a b => a.1 ≤ b.1

/-- The files below a directory, by their paths from there. -/
def below (d : Disk) (dir : String) : List (String × List UInt8) :=
  d.listing.filterMap fun (path, bytes) =>
    if path.startsWith (dir ++ "/") then some ((path.drop (dir.length + 1)).toString, bytes)
    else none

/-! ## Steps -/

/-- One change to a disk. -/
inductive Step
  | makeDirs (dir : String)
  /-- Makes an empty file, or empties one. -/
  | create (path : String)
  | append (path : String) (bytes : List UInt8)
  | rename (source target : String)
deriving DecidableEq, Repr

/-- The disk after a step. -/
def step (d : Disk) : Step → Except IoError Disk
  | .makeDirs dir => do
    d.reach dir
    if d.contains dir then throw .notADirectory else return d
  | .create path => do
    d.reach path
    return d.put path []
  | .append path bytes =>
    match d.get? path with
    | none => .error .notFound
    | some old => .ok (d.put path (old ++ bytes))
  | .rename source target =>
    match d.get? source with
    | none => .error .notFound
    | some bytes => do
      d.reach target
      return (d.erase source).put target bytes

/-- Takes steps until one fails; the steps before it stay done. -/
def run (d : Disk) : List Step → Except IoError Unit × Disk
  | [] => (.ok (), d)
  | s :: rest =>
    match d.step s with
    | .error e => (.error e, d)
    | .ok d => run d rest

/-- The steps that give a file these bytes, whether it is there or not. -/
def writeSteps (path : String) (bytes : List UInt8) : List Step :=
  ((Path.ancestors path).getLast?.map Step.makeDirs).toList ++ [.create path, .append path bytes]

def write (d : Disk) (path : String) (bytes : List UInt8) : Except IoError Unit × Disk :=
  d.run (writeSteps path bytes)

end Disk

end VoxelWorld
