import VoxelWorld.Text.Combining
import VoxelWorld.Text.Unprinted

/-!
# Text.Quoted — a text in double quotes

Quotes, backslashes and what cannot be seen are written as escapes; every other
character stands for itself.
-/

namespace VoxelWorld.Quoted

/-- Whether a character cannot be read where it stands. -/
def isHidden (c : Char) : Bool := Text.isCombining c || Text.isUnprinted c

/-- The number of a character in hexadecimal, between braces. -/
def numbered (c : Char) : List Char :=
  ['\\', 'u', '\x7b'] ++ Nat.toDigits 16 c.toNat ++ ['\x7d']

/-- The written form of one character. -/
def encodeChar (c : Char) : List Char :=
  match c with
  | '"' => ['\\', '"']
  | '\\' => ['\\', '\\']
  | '\t' => ['\\', 't']
  | '\r' => ['\\', 'r']
  | '\n' => ['\\', 'n']
  | '\x00' => ['\\', '0']
  | c => if isHidden c then numbered c else [c]

/-- The written form of a text. -/
def encode (s : String) : String := String.ofList ('"' :: s.toList.flatMap encodeChar ++ ['"'])

end VoxelWorld.Quoted
