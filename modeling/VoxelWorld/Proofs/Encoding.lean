import Mathlib.Data.List.Basic
import VoxelWorld.Proofs.Chunk
import VoxelWorld.Proofs.Codec

/-!
# Proofs.Encoding — chunks and their bytes, both ways

* `Dims.Writable` are the sizes whose chunks have fewer than `2 ^ 63` bytes; of these there is
  room for a chunk, and none of the counts leaves its width (`new_of_writable`,
  `encodedLength_of_writable`).
* `writeTo_eq` says that whoever takes bytes in pieces takes those of `toBytes`.
* `exists_parts` takes as many bytes as a chunk has apart into coordinates, flags and arrays, and
  `read?_layout` reads these; so every byte string of that length is the one of a chunk, but for
  seven bits of its flags (`read?_of_length`).
* `SameContents` is what two chunks have in common whose bytes are equal (`toBytes_eq_iff`).
-/

namespace VoxelWorld

/-! ## Words -/

/-- A word is a number of 32 bits, and the same modulo `2 ^ 32` as the one that its bytes spell. -/
theorem wordOfBytes_spec (a b c d : UInt8) : FitsCoord (wordOfBytes a b c d) ∧
    (wordOfBytes a b c d % 4294967296).toNat =
      a.toNat * 16777216 + b.toNat * 65536 + c.toNat * 256 + d.toNat := by
  have ha := a.toNat_lt
  have hb := b.toNat_lt
  have hc := c.toNat_lt
  have hd := d.toNat_lt
  unfold wordOfBytes
  rw [Int.bmod_def]
  constructor <;> split <;> omega

/-- The bytes of a word are those that it was made of. -/
theorem wordBytes_wordOfBytes (a b c d : UInt8) :
    wordBytes (wordOfBytes a b c d) = [a, b, c, d] := by
  have ha := a.toNat_lt
  have hb := b.toNat_lt
  have hc := c.toNat_lt
  have hd := d.toNat_lt
  unfold wordBytes
  simp only [(wordOfBytes_spec a b c d).2, List.cons.injEq, and_true, ← UInt8.toNat_inj,
    UInt8.toNat_ofNat']
  omega

theorem length_wordBytes (n : Int) : (wordBytes n).length = 4 := rfl

/-- Four bytes are those of some word. -/
theorem exists_word {b : List UInt8} (h : 4 ≤ b.length) :
    ∃ n rest, FitsCoord n ∧ b = wordBytes n ++ rest := by
  match b, h with
  | x :: y :: z :: w :: rest, _ =>
    refine ⟨wordOfBytes x y z w, rest, (wordOfBytes_spec x y z w).1, ?_⟩
    rw [wordBytes_wordOfBytes]
    rfl
  | [], h | [_], h | [_, _], h | [_, _, _], h => simp at h

/-! ## Sizes -/

namespace Dims

variable {d : Dims}

/-- The number of bytes of a chunk. -/
def byteCount (d : Dims) : Nat := 9 + d.cells + 2 * ((d.cells + 1) / 2)

/-- Sizes of chunks that can be held as bytes. -/
structure Writable (d : Dims) : Prop where
  x : 0 < d.x
  y : 0 < d.y
  z : 0 < d.z
  bytes : d.byteCount < 9223372036854775808

/-- What can be held as bytes can be held as cells. -/
theorem Writable.cells_le (h : d.Writable) : d.cells ≤ arrayLimit := by
  have hbytes := h.bytes
  unfold byteCount at hbytes
  unfold arrayLimit
  omega

/-- Counting the cells does not stop. -/
theorem Writable.volume (h : d.Writable) : d.volume = .ok d.cells :=
  volume_of_cells_le h.z h.cells_le

end Dims

/-- No count leaves its width. -/
theorem encodedLength_of_writable {d : Dims} (h : d.Writable) :
    encodedLength d = .ok d.byteCount := by
  have hbytes := h.bytes
  unfold Dims.byteCount at hbytes
  have hstart : checkSize (9 + d.cells) = .ok (9 + d.cells) := checkSize_of_lt (by omega)
  have hlight : checkSize (2 * ((d.cells + 1) / 2)) = .ok (2 * ((d.cells + 1) / 2)) :=
    checkSize_of_lt (by omega)
  simp only [encodedLength, h.volume, hstart, hlight, bind, Except.bind]
  exact checkSize_of_lt (by omega)

namespace Chunk

variable {c c' : Chunk} {d : Dims}

/-- There is room for a chunk. -/
theorem new_of_writable (h : d.Writable) (coord : ChunkCoord) :
    ∃ new, Chunk.new coord d = .ok new := (new_isOk_iff h.z).2 h.cells_le

/-! ## Writing -/

/-- The bytes of a chunk follow from its sides alone. -/
theorem length_toBytes : c.toBytes.length = c.dims.byteCount := by
  simp only [toBytes, header, wordBytes, List.length_append, List.length_cons, List.length_nil,
    Array.length_toList, c.blocks.size_eq, c.skyLight.size_eq, c.blockLight.size_eq,
    Dims.byteCount]
  omega

/-- Whoever does not mind where one piece ends and the next begins is given the bytes of the
chunk. -/
theorem writeTo_eq {m : Type → Type} [Monad m] {write : List UInt8 → m Unit}
    (hwrite : ∀ a b, write (a ++ b) = do write a; write b) :
    c.writeTo write = write c.toBytes := by
  unfold writeTo toBytes
  rw [hwrite, hwrite, hwrite]

/-- Writing to a buffer puts the bytes at its end. -/
theorem writeTo_append (out : List UInt8) : c.writeTo append out = ((), out ++ c.toBytes) := by
  rw [writeTo_eq]
  · rfl
  · intro a b
    funext out
    show ((), out ++ (a ++ b)) = ((), out ++ a ++ b)
    rw [List.append_assoc]

/-- A buffer that is large enough keeps the rest of its room. -/
theorem writeInto?_eq (room : Nat) : c.writeInto? room =
    if c.toBytes.length ≤ room then some (room - c.toBytes.length) else none := by
  unfold writeInto?
  rw [writeTo_eq]
  · unfold fill
    split <;> rfl
  · intro a b
    funext room
    show fill (a ++ b) room = (fill a room).bind fun r => fill b r.2
    unfold fill
    rw [List.length_append]
    -- the second piece gets the room that the first one leaves
    by_cases ha : a.length ≤ room
    · rw [if_pos ha, Option.bind_some]
      by_cases hb : b.length ≤ room - a.length
      · rw [if_pos hb, if_pos (by omega), Nat.sub_sub]
      · rw [if_neg hb, if_neg (by omega)]
    · rw [if_neg ha, if_neg (by omega)]
      rfl

/-! ## Reading -/

/-- The bytes of a chunk with these coordinates, flags and arrays. -/
def layout (x z : Int) (flags : UInt8) (blocks : BlockArray d) (sky light : NibbleArray d) :
    List UInt8 :=
  wordBytes x ++ wordBytes z ++
    flags :: (blocks.bytes.toList ++ (sky.bytes.toList ++ light.bytes.toList))

/-- A chunk is written as its header and its three arrays. -/
theorem toBytes_eq_layout : c.toBytes =
    layout c.coord.x c.coord.z c.flagByte c.blocks c.skyLight c.blockLight := by
  simp [toBytes, header, layout]

variable {x z : Int} {flags : UInt8} {blocks : BlockArray d} {sky light : NibbleArray d}
  {b b' : List UInt8}

/-- The flags are the byte at place eight. -/
theorem modify_layout (f : UInt8 → UInt8) :
    (layout x z flags blocks sky light).modify 8 f =
      layout x z (f flags) blocks sky light := rfl

/-- The chunk with these coordinates, flags and arrays. -/
def ofParts (x z : Int) (flags : UInt8) (blocks : BlockArray d) (sky light : NibbleArray d) :
    Chunk :=
  { coord := ⟨x, z⟩, dims := d, blocks, skyLight := sky, blockLight := light,
    life := lifeOfFlags flags }

/-- Only the lowest bit of the flags means anything. -/
theorem flagByte_ofParts : (ofParts x z flags blocks sky light).flagByte = flags &&& 1 := by
  have hmod : (flags &&& 1).toNat = flags.toNat % 2 := by
    rw [UInt8.toNat_and]
    exact Nat.and_one_is_mod _
  have hbit : flags &&& 1 = 0 ∨ flags &&& 1 = 1 := by
    rcases Nat.mod_two_eq_zero_or_one flags.toNat with heven | hodd
    · exact .inl (UInt8.toNat_inj.1 (hmod.trans heven))
    · exact .inr (UInt8.toNat_inj.1 (hmod.trans hodd))
  show (if decide (flags &&& 1 = 1) = true then 1 else 0) = flags &&& 1
  rcases hbit with hbit | hbit
  · rw [hbit]
    rfl
  · rw [hbit]
    rfl

/-- Coordinates, flags and arrays are read, and what follows them is left. -/
theorem read?_layout (hd : d.Writable) (hx : FitsCoord x) (hz : FitsCoord z)
    (rest : List UInt8) :
    read? d (layout x z flags blocks sky light ++ rest) =
      .ok (some (ofParts x z flags blocks sky light, rest)) := by
  rcases wordOfBytes_wordBytes hx with ⟨x₁, x₂, x₃, x₄, hbytes, hword⟩
  rcases wordOfBytes_wordBytes hz with ⟨z₁, z₂, z₃, z₄, hbytes', hword'⟩
  rcases new_of_writable hd ⟨x, z⟩ with ⟨new, hnew⟩
  unfold read? layout
  rw [hbytes, hbytes']
  simp only [List.cons_append, List.nil_append, List.append_assoc, readHeader?, hword, hword',
    hnew, readArrays?_append]
  rfl

/-- A chunk is read back, and nothing is left over. -/
theorem read?_all (hd : c.dims.Writable) (hx : FitsCoord c.coord.x) (hz : FitsCoord c.coord.z) :
    read? c.dims c.toBytes = .ok (some (c.saved, [])) := by
  have hread : read? c.dims (c.toBytes ++ []) = .ok (some (c.saved, [])) :=
    read?_toBytes hx hz (new_of_writable hd c.coord)
  rwa [List.append_nil] at hread

/-- As many bytes as a chunk has are the bytes of some coordinates, flags and arrays. -/
theorem exists_parts (h : b.length = d.byteCount) :
    ∃ x z flags, ∃ (blocks : BlockArray d) (sky light : NibbleArray d),
      FitsCoord x ∧ FitsCoord z ∧ b = layout x z flags blocks sky light := by
  unfold Dims.byteCount at h
  rcases exists_word (b := b) (by omega) with ⟨x, b₁, hx, rfl⟩
  rw [List.length_append, length_wordBytes] at h
  rcases exists_word (b := b₁) (by omega) with ⟨z, b₂, hz, rfl⟩
  rw [List.length_append, length_wordBytes] at h
  rcases List.exists_cons_of_length_pos (l := b₂) (by omega) with ⟨flags, body, rfl⟩
  rw [List.length_cons] at h
  -- behind the header the bytes are cut where the arrays end
  refine ⟨x, z, flags, ⟨(body.take d.cells).toArray, ?_⟩,
    ⟨((body.drop d.cells).take ((d.cells + 1) / 2)).toArray, ?_⟩,
    ⟨((body.drop d.cells).drop ((d.cells + 1) / 2)).toArray, ?_⟩, hx, hz, ?_⟩
  · rw [List.size_toArray, List.length_take]
    omega
  · rw [List.size_toArray, List.length_take, List.length_drop]
    omega
  · rw [List.size_toArray, List.length_drop, List.length_drop]
    omega
  · simp only [layout, List.take_append_drop, List.append_assoc]

/-- Every byte string of the right length is read, whatever follows it, and written again it is
the same but for the bits of the flags that mean nothing. -/
theorem read?_append_of_length (hd : d.Writable) (h : b.length = d.byteCount)
    (rest : List UInt8) :
    ∃ c, read? d (b ++ rest) = .ok (some (c, rest)) ∧ c.dims = d ∧ FitsCoord c.coord.x ∧
      FitsCoord c.coord.z ∧ c.toBytes = b.modify 8 (· &&& 1) := by
  rcases exists_parts h with ⟨x, z, flags, blocks, sky, light, hx, hz, rfl⟩
  refine ⟨_, read?_layout hd hx hz rest, rfl, hx, hz, ?_⟩
  rw [toBytes_eq_layout, flagByte_ofParts, modify_layout]
  rfl

/-- Any bytes of the right length are a chunk, up to the flags that are not kept. -/
theorem read?_of_length (hd : d.Writable) (h : b.length = d.byteCount) :
    ∃ c, read? d b = .ok (some (c, [])) ∧ c.dims = d ∧ FitsCoord c.coord.x ∧
      FitsCoord c.coord.z ∧ c.toBytes = b.modify 8 (· &&& 1) := by
  have hread := read?_append_of_length hd h []
  rwa [List.append_nil] at hread

/-! ## Contents -/

/-- Two chunks agree in all that is written of a chunk. -/
structure SameContents (c c' : Chunk) : Prop where
  coord : c.coord = c'.coord
  blocks : c.blocks.bytes = c'.blocks.bytes
  skyLight : c.skyLight.bytes = c'.skyLight.bytes
  blockLight : c.blockLight.bytes = c'.blockLight.bytes
  lightDirty : c.isLightDirty = c'.isLightDirty

/-- Writing and reading back keeps what is written. -/
theorem sameContents_saved : SameContents c.saved c := ⟨rfl, rfl, rfl, rfl, isLightDirty_saved⟩

/-- Chunks of the same contents are the same bytes. -/
theorem SameContents.toBytes (h : SameContents c c') : c.toBytes = c'.toBytes := by
  simp only [Chunk.toBytes, header, flagByte, h.coord, h.blocks, h.skyLight, h.blockLight,
    h.lightDirty]

/-- The bytes of a chunk tell its contents, since they can be read back. -/
theorem toBytes_eq_iff (hd : c.dims.Writable) (hdims : c'.dims = c.dims)
    (hx : FitsCoord c.coord.x) (hz : FitsCoord c.coord.z)
    (hx' : FitsCoord c'.coord.x) (hz' : FitsCoord c'.coord.z) :
    c.toBytes = c'.toBytes ↔ SameContents c c' := by
  constructor
  · intro heq
    have hread := read?_all hd hx hz
    have hread' := read?_all (hdims ▸ hd) hx' hz'
    rw [hdims, ← heq, hread] at hread'
    have hsaved : c.saved = c'.saved :=
      congrArg Prod.fst (Option.some.inj (Except.ok.inj hread'))
    constructor
    · exact congrArg (·.coord) hsaved
    · exact congrArg (·.blocks.bytes) hsaved
    · exact congrArg (·.skyLight.bytes) hsaved
    · exact congrArg (·.blockLight.bytes) hsaved
    · simpa using congrArg isLightDirty hsaved
  · exact SameContents.toBytes

/-! ## Results -/

/-- A chunk is written as the stated number of bytes, at once or part by part, and is read back
with the same contents, dirty, not fresh and without a mesh. Any bytes of that number are read, and
written again they are the same but for seven bits of the flags; so they stand for the same contents
exactly if they differ in no other bits. -/
theorem codec_exact {d : Dims} (hd : d.Writable) :
    (∀ c : Chunk, c.dims = d → FitsCoord c.coord.x → FitsCoord c.coord.z →
      encodedLength d = .ok c.toBytes.length ∧
      (∀ (m : Type → Type) [Monad m] (write : List UInt8 → m Unit),
        (∀ a b, write (a ++ b) = do write a; write b) → c.writeTo write = write c.toBytes) ∧
      (∀ out, c.writeTo append out = ((), out ++ c.toBytes)) ∧
      ∃ c', read? d c.toBytes = .ok (some (c', [])) ∧ SameContents c' c ∧
        c'.isFresh = false ∧ c'.isDirty = true ∧ c'.life.slots = .live none none) ∧
    (∀ b, encodedLength d = .ok b.length →
      ∃ c, read? d b = .ok (some (c, [])) ∧ c.toBytes = b.modify 8 (· &&& 1)) ∧
    ∀ b b' c c', encodedLength d = .ok b.length → encodedLength d = .ok b'.length →
      read? d b = .ok (some (c, [])) → read? d b' = .ok (some (c', [])) →
      (SameContents c c' ↔ b.modify 8 (· &&& 1) = b'.modify 8 (· &&& 1)) := by
  have hlength : ∀ b : List UInt8, encodedLength d = .ok b.length → b.length = d.byteCount := by
    intro b hb
    rw [encodedLength_of_writable hd] at hb
    exact (Except.ok.inj hb).symm
  refine ⟨?_, fun b hb => ?_, fun b b' c c' hb hb' hread hread' => ?_⟩
  · -- what is written is read back
    rintro c rfl hx hz
    refine ⟨?_, fun m _ write => writeTo_eq, writeTo_append, c.saved, read?_all hd hx hz,
      sameContents_saved, rfl, rfl, rfl⟩
    rw [length_toBytes]
    exact encodedLength_of_writable hd
  · -- what is read writes the bytes it came from
    rcases read?_of_length hd (hlength b hb) with ⟨c, hread, -, -, -, hbytes⟩
    exact ⟨c, hread, hbytes⟩
  · -- two readings agree where the bytes they would write do
    rcases read?_of_length hd (hlength b hb) with ⟨c₁, hread₁, hdims, hx, hz, hbytes⟩
    rcases read?_of_length hd (hlength b' hb') with ⟨c₂, hread₂, hdims', hx', hz', hbytes'⟩
    cases hread.symm.trans hread₁
    cases hread'.symm.trans hread₂
    rw [← hbytes, ← hbytes']
    exact (toBytes_eq_iff (hdims ▸ hd) (hdims'.trans hdims.symm) hx hz hx' hz').symm

/-- A chunk of one cell has twelve bytes. Where all bits of them are set, all but seven are bits
of the chunk. -/
theorem codec_exact_one_cell :
    (⟨1, 1, 1⟩ : Dims).Writable ∧
      ∃ c, read? ⟨1, 1, 1⟩ (List.replicate 12 255) = .ok (some (c, [])) ∧
        c.toBytes = List.replicate 8 255 ++ 1 :: List.replicate 3 255 := by
  have hd : (⟨1, 1, 1⟩ : Dims).Writable := by
    constructor <;> decide
  rcases (codec_exact hd).2.1 (List.replicate 12 255) rfl with ⟨c, hread, hbytes⟩
  exact ⟨hd, c, hread, hbytes⟩

end Chunk

end VoxelWorld
