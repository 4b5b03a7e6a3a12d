import VoxelWorld.Light.Volume

/-!
# Light.Flood — spreading and retracting light

Light loses one level with each axis step and enters translucent blocks only.

1. `spread` raises the cells around a source. The cells raised to one level form a
   wave, and each wave raises the next one, a level darker.
2. `retract` darkens the cells that a source may have lit, wave by wave, and collects
   the brighter cells on the border of the darkened region; then it spreads those.
3. `refresh` computes one cell from the six cells around it.

Both floods end because the level of the waves falls by one each time.
-/

namespace VoxelWorld.Light

variable {V : Type} [LightVolume V]

/-! ## Steps -/

/-- The axis steps, in the order in which a flood visits them. -/
def directions : List (Int × Int × Int) :=
  [(1, 0, 0), (-1, 0, 0), (0, 1, 0), (0, -1, 0), (0, 0, 1), (0, 0, -1)]

@[inline] def step (p : Pos) (d : Int × Int × Int) : Checked Pos := p.offset d.1 d.2.1 d.2.2

/-- Whether light can enter a cell. -/
@[specialize] def conducts (reg : Registry) (vol : V) (p : Pos) : Checked Bool := do
  if ← LightVolume.acceptsLight vol p then
    return reg.isTranslucent (← LightVolume.block vol p)
  else return false

/-! ## Spreading -/

/-- A volume and the cells of the next wave, the last one first. -/
structure Wave (V : Type) where
  vol : V
  cells : List Pos

/-- Raises one neighbour of a cell to `level`, if it is darker and conducts. -/
@[specialize] def raise (reg : Registry) (kind : LightKind) (level : Nat) (p : Pos)
    (s : Wave V) (d : Int × Int × Int) : Checked (Wave V) := do
  let n ← step p d
  if (← LightVolume.light s.vol n kind) < level then
    if ← conducts reg s.vol n then
      let ⟨vol, cells⟩ := s
      return ⟨← LightVolume.setLight vol n kind level, n :: cells⟩
    else return s
  else return s

/-- Raises the neighbours of a cell to `level`, unless the cell no longer holds the level
above, because its write was dropped or a brighter source overtook it. -/
@[specialize] def raiseAround (reg : Registry) (kind : LightKind) (level : Nat)
    (s : Wave V) (p : Pos) : Checked (Wave V) := do
  if (← LightVolume.light s.vol p kind) = level + 1 then
    directions.foldlM (raise reg kind level p) s
  else return s

/-- Spreads from a wave whose neighbours are to be raised to `level`. -/
@[specialize] def spreadWaves (reg : Registry) (kind : LightKind) :
    (level : Nat) → List Pos → V → Checked V
  | 0, _, vol => return vol
  | level + 1, wave, vol => do
    let s ← wave.foldlM (raiseAround reg kind (level + 1)) ⟨vol, []⟩
    spreadWaves reg kind level s.cells.reverse s.vol

/-- Sets a cell to a level of at most `maxLight` and lights the cells around it. -/
@[specialize] def spread (reg : Registry) (vol : V) (origin : Pos) (kind : LightKind)
    (value : Nat) : Checked V := do
  match min value maxLight with
  | 0 => return vol
  | level + 1 =>
    let vol ← LightVolume.setLight vol origin kind (level + 1)
    spreadWaves reg kind level [origin] vol

/-! ## Retracting -/

/-- A volume, the cells of the next wave and the bright cells found so far, the last ones
first. -/
structure Retraction (V : Type) where
  vol : V
  cells : List Pos
  bright : List Pos

/-- Darkens one neighbour of a cell if it is translucent and darker than `level`, and
notes it as bright if it is not darker. -/
@[specialize] def darken (reg : Registry) (kind : LightKind) (level : Nat) (p : Pos)
    (s : Retraction V) (d : Int × Int × Int) : Checked (Retraction V) := do
  let n ← step p d
  if ← LightVolume.acceptsLight s.vol n then
    let v ← LightVolume.light s.vol n kind
    if level ≤ v then
      if s.bright.contains n then return s
      else return { s with bright := n :: s.bright }
    else if v = 0 then return s
    else if reg.isTranslucent (← LightVolume.block s.vol n) then
      let ⟨vol, cells, bright⟩ := s
      return ⟨← LightVolume.setLight vol n kind 0, n :: cells, bright⟩
    else return s
  else return s

@[specialize] def darkenAround (reg : Registry) (kind : LightKind) (level : Nat)
    (s : Retraction V) (p : Pos) : Checked (Retraction V) :=
  directions.foldlM (darken reg kind level p) s

/-- Darkens the region lit by a wave of cells that held `level`. -/
@[specialize] def retractWaves (reg : Registry) (kind : LightKind) :
    (level : Nat) → List Pos → List Pos → V → Checked (V × List Pos)
  | 0, _, bright, vol => return (vol, bright)
  | level + 1, wave, bright, vol => do
    let s ← wave.foldlM (darkenAround reg kind (level + 1)) ⟨vol, [], bright⟩
    retractWaves reg kind level s.cells.reverse s.bright s.vol

/-- Spreads a cell at the level it holds. -/
@[specialize] def respread (reg : Registry) (kind : LightKind) (vol : V) (p : Pos) :
    Checked V := do
  let v ← LightVolume.light vol p kind
  spread reg vol p kind v

/-- Takes back the light of a source of the given level and relights the border. -/
@[specialize] def retract (reg : Registry) (vol : V) (origin : Pos) (kind : LightKind)
    (value : Nat) : Checked V := do
  let vol ← LightVolume.setLight vol origin kind 0
  let (vol, bright) ← retractWaves reg kind (min value maxLight) [origin] [] vol
  bright.reverse.foldlM (respread reg kind) vol

/-! ## One cell -/

/-- The brightest of the six cells around a cell. -/
@[specialize] def brightestAround (vol : V) (p : Pos) (kind : LightKind) : Checked Nat :=
  directions.foldlM (fun best d => do
    let n ← step p d
    return max best (← LightVolume.light vol n kind)) 0

/-- Computes a cell from the cells around it. A block that stops light is dark; any other
cell never gets darker. -/
@[specialize] def refresh (reg : Registry) (vol : V) (p : Pos) (kind : LightKind) :
    Checked V := do
  if reg.isTranslucent (← LightVolume.block vol p) then
    let current ← LightVolume.light vol p kind
    let brightest ← brightestAround vol p kind
    LightVolume.setLight vol p kind (max (brightest - 1) current)
  else LightVolume.setLight vol p kind 0

end VoxelWorld.Light
