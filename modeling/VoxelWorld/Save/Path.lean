import VoxelWorld.Coord
import VoxelWorld.Save.Base36

/-!
# Save.Path — where a chunk is kept

1. The file of the chunk `(x, z)` is `x/z/bc_x.z` under the root, with the coordinates in
   base 36.
2. `ancestors` are the directories on the way to a path.
3. `isNameable` says which paths a file system takes.
4. `direct` is the shortest form of a path, which names the same file if its `detours` are
   directories.
-/

namespace VoxelWorld.Path

/-- A path below a directory. -/
def join (dir name : String) : String :=
  if dir.isEmpty || dir.endsWith "/" then dir ++ name else dir ++ "/" ++ name

/-- The directory of a chunk below the root. -/
def chunkDir (c : ChunkCoord) : String := join (Base36.encode c.x) (Base36.encode c.z)

/-- The part of the file name that chunks with the same `x` share. -/
def fileStem (c : ChunkCoord) : String := "bc_" ++ Base36.encode c.x

def fileName (c : ChunkCoord) : String := fileStem c ++ "." ++ Base36.encode c.z

/-- The directory of a chunk. -/
def dirFor (root : String) (c : ChunkCoord) : String := join root (chunkDir c)

/-- The file of a chunk. -/
def fileFor (root : String) (c : ChunkCoord) : String := join (dirFor root c) (fileName c)

/-- The file that a chunk is written to before it takes its place. -/
def temporaryFor (root : String) (c : ChunkCoord) : String :=
  join (dirFor root c) (fileStem c ++ ".tmp")

/-- The parts of a path before each of its slashes; `acc` is what was passed, reversed. -/
def ancestorsFrom (acc : List Char) : List Char → List String
  | [] => []
  | '/' :: cs => String.ofList acc.reverse :: ancestorsFrom ('/' :: acc) cs
  | c :: cs => ancestorsFrom (c :: acc) cs

/-- The directories on the way to a path. -/
def ancestors (path : String) : List String := ancestorsFrom [] path.toList

/-! ## Names -/

/-- The names between the slashes of a path; `acc` is the name under way, reversed. -/
def namesFrom (acc : List Char) : List Char → List String
  | [] => [String.ofList acc.reverse]
  | '/' :: cs => String.ofList acc.reverse :: namesFrom [] cs
  | c :: cs => namesFrom (c :: acc) cs

/-- The names between the slashes of a path. -/
def names (path : String) : List String := namesFrom [] path.toList

/-- Whether a path can be asked for at all: no null character, no name above 255 bytes, and
below 4096 bytes in all. -/
def isNameable (path : String) : Bool :=
  !path.contains '\x00' && path.utf8ByteSize < 4096 && (names path).all (·.utf8ByteSize ≤ 255)

/-- The names on the way down, the last one first, after one more step. -/
def descend (passed : List String) (name : String) : List String :=
  match name, passed with
  | "", _ => passed
  | ".", _ => passed
  | "..", top :: below => if top = ".." then name :: passed else below
  | name, passed => name :: passed

/-- The path of the names that were passed, the last one first. -/
def spell (absolute : Bool) (passed : List String) : String :=
  (if absolute then "/" else "") ++ "/".intercalate passed.reverse

/-- The same path without detours: no empty name, no `.`, and no `..` after another name. -/
def direct (path : String) : String :=
  spell (path.startsWith "/") ((names path).foldl descend [])

/-- The directories that are left again on the way down. -/
def leftFrom (absolute : Bool) (passed : List String) : List String → List String
  | [] => []
  | name :: rest =>
    let later := leftFrom absolute (descend passed name) rest
    if name = ".." && passed.head?.any (· ≠ "..") then spell absolute passed :: later else later

/-- The directories that a path enters and leaves again by `..`. -/
def detours (path : String) : List String := leftFrom (path.startsWith "/") [] (names path)

end VoxelWorld.Path
