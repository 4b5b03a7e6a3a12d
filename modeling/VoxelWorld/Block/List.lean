import VoxelWorld.Block.Registry
import VoxelWorld.Toml.Fields

/-!
# Block.List — block lists in TOML

A block list holds one record under `blocks` for each type. `Registry.ofToml` refuses a
text that is no such list before it looks at the definitions themselves.
-/

namespace VoxelWorld

/-- Why a text gives no value. -/
inductive ConfigError
  /-- The text is not TOML, or a value in it is missing or has the wrong type. -/
  | malformed
  /-- The values are readable but not allowed, for the stated reason. -/
  | invalid (message : String)
deriving DecidableEq, Repr

def BlockForm.ofName? : String → Option BlockForm
  | "normal" => some .cube
  | "billboard" => some .billboard
  | _ => none

/-- The name of a form in block lists. -/
def BlockForm.name : BlockForm → String
  | .cube => "normal"
  | .billboard => "billboard"

theorem BlockForm.ofName?_name (f : BlockForm) : ofName? f.name = some f := by
  cases f <;> rfl

/-- The definition that a record holds. -/
def BlockDef.ofNode? (v : Toml.Node) : Option BlockDef := do
  let field ← v.fields?
  let name ← (field "name" 0).bind Toml.Node.str?
  let id ← Toml.optional? (Toml.Node.natUpTo? 255) (field "id" 1)
  let translucent ← Toml.optional? Toml.Node.bool? (field "translucent" 2)
  let invisible ← Toml.optional? Toml.Node.bool? (field "invisible" 3)
  let form ← Toml.optional? (fun v => v.choice?.bind BlockForm.ofName?) (field "form" 4)
  let luminance ← Toml.optional? (Toml.Node.natUpTo? 255) (field "luminance" 5)
  return { name, id := id.map UInt8.ofNat, translucent, invisible, form, luminance }

/-- The definitions of a block list. -/
def BlockDef.listOfToml? (text : String) : Option (List BlockDef) := do
  let root ← Toml.parse? text
  let blocks ← root.get? "blocks"
  (← blocks.list?).mapM BlockDef.ofNode?

/-- The registry of definitions, with the reason of a refusal as a text. -/
def Registry.ofDefsChecked (defs : List BlockDef) : Except ConfigError Registry :=
  (Registry.ofDefs defs).mapError fun e => .invalid e.message

/-- The registry of a block list. -/
def Registry.ofToml (text : String) : Except ConfigError Registry :=
  match BlockDef.listOfToml? text with
  | none => .error .malformed
  | some defs => Registry.ofDefsChecked defs

end VoxelWorld
