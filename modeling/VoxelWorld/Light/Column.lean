import VoxelWorld.Light.Flood

/-!
# Light.Column — sky light by columns, and relighting a chunk

1. `refreshColumn` lights a column from the top: cells above the first block that
   covers the sky are bright where nothing fills them, cells from there on are dark
   or, if asked for, computed from the cells around them.
2. `seedSky` does so for all columns of a new chunk, without spreading.
3. `relight` spreads every light of a chunk into the cells around it.
-/

namespace VoxelWorld.Light

variable {V : Type} [LightVolume V]

/-! ## Columns -/

/-- A volume, and whether the sky is covered by the part of the column above. -/
structure ColumnState (V : Type) where
  vol : V
  covered : Bool

/-- Lights the next lower cell of a column. With `spreading`, a cell that got brighter is
spread and one that got darker is retracted. -/
@[specialize] def refreshColumnCell (reg : Registry) (x z : Int) (spreading refreshing : Bool)
    (s : ColumnState V) (y : Nat) : Checked (ColumnState V) := do
  let ⟨vol, covered⟩ := s
  let p : Pos := ⟨x, y, z⟩
  let type := reg.get (← LightVolume.block vol p)
  let covered := covered || type.coversSky
  let old ← LightVolume.light vol p .sky
  let vol ←
    if covered then do
      let vol ← LightVolume.setLight vol p .sky 0
      if refreshing then refresh reg vol p .sky else pure vol
    else LightVolume.setLight vol p .sky maxLight
  let new ← LightVolume.light vol p .sky
  let vol ←
    if spreading then
      if new < old then retract reg vol p .sky old
      else if old < new then spread reg vol p .sky new
      else pure vol
    else pure vol
  return ⟨vol, covered⟩

/-- Lights the column of `(x, z)` from the top down. -/
@[specialize] def refreshColumn (reg : Registry) (vol : V) (x z : Int)
    (spreading refreshing : Bool) : Checked V := do
  let ys := (List.range (LightVolume.height vol).toNat).reverse
  let s ← ys.foldlM (refreshColumnCell reg x z spreading refreshing) ⟨vol, false⟩
  return s.vol

/-- Lights all columns of a chunk, without spreading. -/
def seedSky (reg : Registry) (c : Chunk) : Checked Chunk := do
  let vol ← ChunkVolume.new c
  let vol ← (sideRange vol.chunk.dims.width).foldlM (fun vol x =>
    (sideRange vol.chunk.dims.depth).foldlM (fun vol z => do
      let wx ← checkCoord (vol.baseX + x)
      let wz ← checkCoord (vol.baseZ + z)
      refreshColumn reg vol wx wz false false) vol) vol
  return vol.chunk

/-! ## Relighting -/

/-- Spreads the light of one cell: sky light from translucent blocks, block light from
them and from blocks that give off light. -/
@[specialize] def relightCell (reg : Registry) (p : Pos) (vol : V) : Checked V := do
  let type := reg.get (← LightVolume.block vol p)
  let sky ← LightVolume.light vol p .sky
  let vol ← if sky > 0 && type.translucent then spread reg vol p .sky sky else pure vol
  let level ← LightVolume.light vol p .block
  if level > 0 && (type.translucent || type.luminance > 0) then spread reg vol p .block level
  else return vol

/-- Spreads the light of every cell of a chunk. -/
@[specialize] def relight (reg : Registry) (vol : V) (coord : ChunkCoord) (d : Dims) :
    Checked V := do
  let baseX ← coord.worldX d
  let baseZ ← coord.worldZ d
  (sideRange d.width).foldlM (fun vol x =>
    (sideRange d.depth).foldlM (fun vol z =>
      (sideRange d.height).foldlM (fun vol y => do
        let wx ← checkCoord (baseX + x)
        let wz ← checkCoord (baseZ + z)
        relightCell reg ⟨wx, y, wz⟩ vol) vol) vol) vol

end VoxelWorld.Light
