import VoxelWorld.Chunk.Codec
import VoxelWorld.Proofs.Ensures

/-!
# Proofs.Codec — a chunk that was written is read back

* `wordOfBytes_wordBytes` is the round trip of a coordinate that fits its width.
* `readArrays?_append` gives the three arrays back, and what follows them.
* `read?_toBytes` is the round trip of a chunk: cells and coordinate are what they were, and of
  the state only the light flag is left.
-/

namespace VoxelWorld

/-! ## Words -/

/-- The four bytes of a word, put together again. -/
theorem wordOfBytes_wordBytes {n : Int} (h : FitsCoord n) :
    ∃ a b c d, wordBytes n = [a, b, c, d] ∧ wordOfBytes a b c d = n := by
  refine ⟨_, _, _, _, rfl, ?_⟩
  have hlt : (n % 4294967296).toNat < 4294967296 := by omega
  have hword : ((n % 4294967296).toNat : Int) = n % 4294967296 := by omega
  generalize (n % 4294967296).toNat = w at hlt hword
  have hbytes : w / 16777216 % 256 * 16777216 + w / 65536 % 256 * 65536 + w / 256 % 256 * 256 +
      w % 256 = w := by
    omega
  unfold wordOfBytes
  simp only [UInt8.toNat_ofNat', Nat.reducePow]
  rw [hbytes, Int.bmod_def, hword]
  rcases h with ⟨hlo, hhi⟩
  split <;> omega

/-- The numbers of a chunk fit the width of a coordinate. -/
def ChunkCoord.Fits (c : ChunkCoord) : Prop := FitsCoord c.x ∧ FitsCoord c.z

namespace Chunk

variable {c : Chunk} {d : Dims} {rest : List UInt8}

/-- Reading as many bytes as were written gives these and leaves the rest. -/
theorem takeBytes?_append {front : List UInt8} {n : Nat} (h : front.length = n) :
    takeBytes? n (front ++ rest) = some (front, rest) := by
  unfold takeBytes?
  subst h
  simp

/-- The header gives the coordinate and the flags back. -/
theorem readHeader?_append (hx : FitsCoord c.coord.x) (hz : FitsCoord c.coord.z) :
    readHeader? (c.header ++ rest) = some ((c.coord, c.flagByte), rest) := by
  rcases wordOfBytes_wordBytes hx with ⟨x₁, x₂, x₃, x₄, hbytes, hword⟩
  rcases wordOfBytes_wordBytes hz with ⟨z₁, z₂, z₃, z₄, hbytes', hword'⟩
  unfold header
  rw [hbytes, hbytes']
  show some (((⟨wordOfBytes x₁ x₂ x₃ x₄, wordOfBytes z₁ z₂ z₃ z₄⟩ : ChunkCoord), c.flagByte),
    rest) = _
  rw [hword, hword']

/-- The three arrays are read back one after the other, and what follows them is left. Each of them
has the length that its sides ask for, so they need no lengths of their own. -/
theorem readArrays?_append (blocks : BlockArray d) (sky light : NibbleArray d) :
    readArrays? d (blocks.bytes.toList ++ (sky.bytes.toList ++ (light.bytes.toList ++ rest))) =
      some ((blocks, sky, light), rest) := by
  have hblocks : blocks.bytes.toList.length = d.cells := by
    rw [Array.length_toList, blocks.size_eq]
  have hnibbles : ∀ a : NibbleArray d, a.bytes.toList.length = (d.cells + 1) / 2 := by
    intro a
    rw [Array.length_toList, a.size_eq]
  -- bytes of the right length are an array
  have hblocks' : BlockArray.ofBytes? blocks.bytes = some blocks := dif_pos blocks.size_eq
  have hnibbles' : ∀ a : NibbleArray d, NibbleArray.ofBytes? a.bytes = some a :=
    fun a => dif_pos a.size_eq
  unfold readArrays?
  simp only [takeBytes?_append hblocks, takeBytes?_append (hnibbles sky),
    takeBytes?_append (hnibbles light), Option.bind_eq_bind, Option.bind_some,
    Array.toArray_toList, hblocks', hnibbles']
  rfl

/-- The state of a chunk that was written and read back. -/
def saved (c : Chunk) : Chunk := { c with life := lifeOfFlags c.flagByte }

/-- A chunk is read back from what was written of it. -/
theorem read?_toBytes (hx : FitsCoord c.coord.x) (hz : FitsCoord c.coord.z)
    (hnew : ∃ new, Chunk.new c.coord c.dims = .ok new) :
    read? c.dims (c.toBytes ++ rest) = .ok (some (c.saved, rest)) := by
  rcases hnew with ⟨new, hnew⟩
  unfold read? toBytes
  rw [List.append_assoc, readHeader?_append hx hz]
  simp only [hnew, List.append_assoc, readArrays?_append]
  rfl

/-- A chunk that was read has the size that was asked for, and is neither fresh nor disposed. -/
theorem of_read? {bytes : List UInt8} (h : read? d bytes = .ok (some (c, rest))) :
    c.dims = d ∧ c.isFresh = false ∧ c.isDisposed = false ∧
      ∃ new, Chunk.new c.coord d = .ok new := by
  unfold read? at h
  split at h
  · cases h
  · rcases Checked.bind_eq_ok.1 h with ⟨new, hnew, h⟩
    rcases Option.map_eq_some_iff.1 (Checked.pure_eq_ok.1 h) with ⟨arrays, -, heq⟩
    cases heq
    exact ⟨rfl, rfl, rfl, new, hnew⟩

/-- Reading stops only if no chunk can be made. -/
theorem read?_ensures {faulty : Prop} {bytes : List UInt8}
    (hnew : ∀ coord e, Chunk.new coord d = .error e → faulty) :
    Ensures faulty (read? d bytes) fun r => ∀ c rest, r = some (c, rest) →
      c.dims = d ∧ c.isFresh = false ∧ c.isDisposed = false ∧
        ∃ new, Chunk.new c.coord d = .ok new := by
  refine Ensures.intro (fun r hr c rest hsome => ?_) fun e he => ?_
  · rw [hsome] at hr
    exact of_read? hr
  · unfold read? at he
    split at he
    · cases he
    · rename_i coord flags bytes' _
      cases hmade : Chunk.new coord d with
      | error e' => exact hnew coord e' hmade
      | ok new =>
        rw [hmade] at he
        cases he

@[simp] theorem coord_saved : c.saved.coord = c.coord := rfl

@[simp] theorem dims_saved : c.saved.dims = c.dims := rfl

@[simp] theorem isFresh_saved : c.saved.isFresh = false := rfl

@[simp] theorem block_saved (x y z : Int) : c.saved.block x y z = c.block x y z := rfl

@[simp] theorem light_saved (x y z : Int) (k : LightKind) :
    c.saved.light x y z k = c.light x y z k := by
  cases k <;> rfl

/-- The light flag comes back. -/
@[simp] theorem isLightDirty_saved : c.saved.isLightDirty = c.isLightDirty := by
  show decide (c.flagByte &&& 1 = 1) = c.isLightDirty
  unfold flagByte
  cases c.isLightDirty <;> decide

end Chunk

end VoxelWorld
