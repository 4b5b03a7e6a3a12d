import VoxelWorld.Block.Basic

/-!
# Block.Registry — the block types of a world

A registry gives every one of the 256 ids a type and some of them a name.

1. `Registry.empty` knows air alone; every other id is `unknown`.
2. `Registry.define` takes one definition. It numbers a definition without an id
   one above the largest number seen so far, and refuses a number above 255, a
   name that already has another id, and a luminance above 15 — in this order.
3. `Registry.ofDefs` takes a list of definitions one by one.
-/

namespace VoxelWorld

/-- One entry of a block list. -/
structure BlockDef where
  name : String
  id : Option BlockId := none
  translucent : Option Bool := none
  invisible : Option Bool := none
  form : Option BlockForm := none
  luminance : Option Nat := none
deriving DecidableEq, Repr, Inhabited

/-- The type that a definition gives to an id. It is translucent if it is invisible
and the definition does not say otherwise. -/
def BlockDef.toType (d : BlockDef) (id : BlockId) : BlockType :=
  let invisible := d.invisible.getD false
  { id
    name := d.name
    translucent := d.translucent.getD invisible
    invisible
    form := d.form.getD .cube
    luminance := d.luminance.getD 0 }

/-- Why a block list is refused. -/
inductive BlockListError
  | tooManyTypes (name : String)
  | duplicateName (name : String)
  | tooBright (name : String) (luminance : Nat)
deriving DecidableEq, Repr

/-- The text of a refusal. -/
def BlockListError.message : BlockListError → String
  | tooManyTypes name => s!"too many block types at '{name}'"
  | duplicateName name => s!"duplicate block name '{name}'"
  | tooBright name luminance => s!"block '{name}' luminance {luminance} exceeds 15"

/-- A type for each id, and the ids of the names. -/
structure Registry where
  types : Array BlockType
  names : List (String × BlockId)
  types_size : types.size = 256

namespace Registry

/-! ## Looking up -/

@[inline] def get (r : Registry) (id : BlockId) : BlockType :=
  have : id.toNat < r.types.size := by
    rw [r.types_size]
    exact id.toNat_lt
  r.types[id.toNat]

def idOf? (r : Registry) (name : String) : Option BlockId := r.names.lookup name

/-- The id of a name, or air for a list that lacks it. -/
def idOrAir (r : Registry) (name : String) : BlockId := (r.idOf? name).getD air

@[inline] def isTranslucent (r : Registry) (id : BlockId) : Bool := (r.get id).translucent

@[inline] def luminance (r : Registry) (id : BlockId) : Nat := (r.get id).luminance

/-- The type of every name, ordered by id. -/
def defined (r : Registry) : List BlockType :=
  ((r.names.map (·.2)).mergeSort (· ≤ ·)).map r.get

/-! ## Building -/

def empty : Registry where
  types := (Array.ofFn fun i : Fin 256 => BlockType.unknown (UInt8.ofNat i)).set! 0 .ofAir
  names := [("air", air)]
  types_size := by simp

instance : Inhabited Registry := ⟨empty⟩

/-- The registry with one more type under its name and id. -/
def put (r : Registry) (t : BlockType) : Registry where
  types := r.types.set! t.id.toNat t
  names := if r.names.lookup t.name = none then (t.name, t.id) :: r.names else r.names
  types_size := by simp [r.types_size]

/-- A registry under construction, with the number that the next definition gets if it
brings none. -/
structure Draft where
  registry : Registry
  next : Nat

/-- One definition. -/
def define (s : Draft) (d : BlockDef) : Except BlockListError Draft := do
  let id ← match d.id with
    | some id => pure id
    | none => if s.next ≤ 255 then pure (UInt8.ofNat s.next) else throw (.tooManyTypes d.name)
  if (s.registry.idOf? d.name).any (· ≠ id) then
    throw (.duplicateName d.name)
  let t := d.toType id
  if t.luminance > 15 then
    throw (.tooBright d.name t.luminance)
  return ⟨s.registry.put t, max s.next (id.toNat + 1)⟩

/-- The registry of a list of definitions. -/
def ofDefs (defs : List BlockDef) : Except BlockListError Registry := do
  let s ← defs.foldlM define ⟨empty, 1⟩
  return s.registry

end Registry

end VoxelWorld
