import VoxelWorld.Block.Registry

/-!
# Proofs.Registry — looking up block types

What `Registry.get` gives in an empty registry, and after one more type was put in.
-/

namespace VoxelWorld.Registry

/-- A type that is put in is found under its own id, and hides no other. -/
theorem get_put (r : Registry) (t : BlockType) (id : BlockId) :
    (r.put t).get id = if id = t.id then t else r.get id := by
  have hlt : id.toNat < r.types.size := by
    rw [r.types_size]
    exact id.toNat_lt
  have hread : (r.put t).get id = if t.id.toNat = id.toNat then t else r.get id :=
    Array.getElem_setIfInBounds hlt
  rw [hread]
  by_cases h : id = t.id
  · rw [if_pos h, if_pos (congrArg UInt8.toNat h.symm)]
  · rw [if_neg h, if_neg fun h' => h (UInt8.toNat_inj.1 h'.symm)]

/-- The empty registry knows air. Any other id it takes for unknown. -/
theorem get_empty (id : BlockId) :
    Registry.empty.get id = if id = air then .ofAir else .unknown id := by
  have hlt : id.toNat < (Array.ofFn fun i : Fin 256 => BlockType.unknown (UInt8.ofNat i)).size := by
    rw [Array.size_ofFn]
    exact id.toNat_lt
  unfold get empty
  simp only [Array.set!_eq_setIfInBounds]
  rw [Array.getElem_setIfInBounds hlt, Array.getElem_ofFn, UInt8.ofNat_toNat]
  -- the entry of air is put in last, over the one that air has among the unknown
  by_cases h : id = air
  · rw [if_pos h, if_pos]
    rw [h]
    rfl
  · rw [if_neg h, if_neg fun h' => h (UInt8.toNat_inj.1 h'.symm)]

end VoxelWorld.Registry
