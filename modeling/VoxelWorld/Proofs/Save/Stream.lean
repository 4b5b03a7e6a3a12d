import Mathlib.Data.List.Forall2
import VoxelWorld.Proofs.Encoding
import VoxelWorld.Save.Stream

/-!
# Proofs.Save.Stream — where a chunk in a stream ends

* `length_of_read?` says that reading a chunk takes as many bytes as a chunk has, whatever they
  are, and `readFrom_of_length_lt` that fewer are noticed.
* `readMany` reads a number of chunks one after the other, and notices if the stream has fewer
  (`readMany_of_length_lt`).
* `written` is what a list of chunks writes, one after the other (`written_eq`), and
  `readMany_written` reads it back.
* `stream_exact` collects them.
-/

namespace VoxelWorld.Chunk

variable {c : Chunk} {d : Dims} {n : Nat} {bytes front rest : List UInt8}

/-! ## How much is read -/

/-- As many bytes as asked for, or none. -/
theorem takeBytes?_eq : takeBytes? n bytes =
    if (bytes.take n).length = n then some (bytes.take n, bytes.drop n) else none := by
  unfold takeBytes?
  rw [List.splitAt_eq]

/-- The bytes that are taken are the first of the stream. -/
theorem takeBytes?_eq_some :
    takeBytes? n bytes = some (front, rest) ↔ front.length = n ∧ bytes = front ++ rest := by
  constructor
  · intro h
    rw [takeBytes?_eq] at h
    split at h
    · rename_i hlength
      cases h
      exact ⟨hlength, (List.take_append_drop n bytes).symm⟩
    · cases h
  · rintro ⟨hlength, rfl⟩
    exact takeBytes?_append hlength

/-- A header takes nine bytes. -/
theorem length_of_readHeader? {r : ChunkCoord × UInt8}
    (h : readHeader? bytes = some (r, rest)) : bytes.length = 9 + rest.length := by
  unfold readHeader? at h
  split at h
  · have hrest := congrArg Prod.snd (Option.some.inj h)
    dsimp only at hrest
    simp only [List.length_cons, hrest]
    omega
  · cases h

/-- The arrays take one byte for each cell, and a half for each of the two levels. -/
theorem length_of_readArrays? {r : BlockArray d × NibbleArray d × NibbleArray d}
    (h : readArrays? d bytes = some (r, rest)) :
    bytes.length = d.cells + 2 * ((d.cells + 1) / 2) + rest.length := by
  unfold readArrays? at h
  simp only [Option.bind_eq_bind, Option.bind_eq_some_iff, Prod.exists] at h
  rcases h with ⟨blocks, b₁, hblocks, sky, b₂, hsky, light, b₃, hlight, _, -, _, -, _, -, h⟩
  rcases takeBytes?_eq_some.1 hblocks with ⟨hcells, rfl⟩
  rcases takeBytes?_eq_some.1 hsky with ⟨hhalf, rfl⟩
  rcases takeBytes?_eq_some.1 hlight with ⟨hhalf', rfl⟩
  cases h
  simp only [List.length_append]
  omega

/-- A chunk that is read takes the number of its bytes off the stream. -/
theorem length_of_read? (h : read? d bytes = .ok (some (c, rest))) :
    bytes.length = d.byteCount + rest.length := by
  unfold read? at h
  split at h
  · cases h
  · rename_i coord flags body hheader
    rcases Checked.bind_eq_ok.1 h with ⟨new, -, h⟩
    rcases Option.map_eq_some_iff.1 (Checked.pure_eq_ok.1 h) with ⟨⟨arrays, left⟩, harrays, heq⟩
    cases heq
    rw [length_of_readHeader? hheader, length_of_readArrays? harrays, Dims.byteCount]
    omega

/-! ## One chunk -/

/-- A stream that is long enough gives a chunk, and the rest of it is left. -/
theorem readFrom_of_le (hd : d.Writable) (h : d.byteCount ≤ bytes.length) :
    ∃ c, readFrom d bytes = .ok (.ok (c, bytes.drop d.byteCount)) := by
  rcases read?_append_of_length hd (List.length_take_of_le h) (bytes.drop d.byteCount) with
    ⟨c, hread, -⟩
  rw [List.take_append_drop] at hread
  refine ⟨c, ?_⟩
  unfold readFrom
  rw [hread]
  rfl

/-- A stream that is too short is noticed, wherever it ends. -/
theorem readFrom_of_length_lt (hd : d.Writable) (h : bytes.length < d.byteCount) :
    readFrom d bytes = .ok (.error .unexpectedEnd) := by
  have hread : Ensures False (read? d bytes) fun _ => True := by
    refine (read?_ensures fun coord e he => ?_).mono fun _ _ => trivial
    rcases new_of_writable hd coord with ⟨new, hnew⟩
    cases hnew.symm.trans he
  rcases hread.exists_ok id with ⟨r, hr, -⟩
  unfold readFrom
  rw [hr]
  cases r with
  | none => rfl
  | some r =>
    have hlength := length_of_read? hr
    omega

/-- A chunk is read from the front of its bytes, and what follows is left. -/
theorem readFrom_toBytes (hd : c.dims.Writable) (hcoord : c.coord.Fits) (rest : List UInt8) :
    readFrom c.dims (c.toBytes ++ rest) = .ok (.ok (c.saved, rest)) := by
  unfold readFrom
  rw [read?_toBytes hcoord.1 hcoord.2 (new_of_writable hd c.coord)]
  rfl

/-- A buffer takes a chunk exactly if it has room for its bytes. -/
theorem writeInto_eq (room : Nat) : c.writeInto room =
    if c.dims.byteCount ≤ room then .ok (room - c.dims.byteCount) else .error .noRoom := by
  unfold writeInto
  rw [writeInto?_eq, length_toBytes]
  split
  · rename_i h
    split at h
    · cases h
    · rename_i hroom
      rw [if_neg hroom]
  · rename_i h
    split at h
    · rename_i hroom
      cases h
      rw [if_pos hroom]
    · cases h

/-! ## Many chunks -/

/-- Reads a number of chunks, one after the other. -/
def readMany (d : Dims) : Nat → List UInt8 → Checked (Except IoError (List Chunk × List UInt8))
  | 0, bytes => return .ok ([], bytes)
  | n + 1, bytes => do
    match ← readFrom d bytes with
    | .error e => return .error e
    | .ok (c, bytes) => return (← readMany d n bytes).map fun more => (c :: more.1, more.2)

/-- After the first chunk, all depends on the rest of the stream. -/
theorem readMany_succ {r : Except IoError (List Chunk × List UInt8)}
    (hfirst : readFrom d bytes = .ok (.ok (c, rest))) (hmore : readMany d n rest = .ok r) :
    readMany d (n + 1) bytes = .ok (r.map fun more => (c :: more.1, more.2)) := by
  rw [readMany, hfirst]
  show (readMany d n rest >>= fun r => pure (r.map fun more => (c :: more.1, more.2))) = _
  rw [hmore]
  rfl

/-- A stream that is too short for all of the chunks is noticed: the ones that it has are read, and
then one is cut off. -/
theorem readMany_of_length_lt (hd : d.Writable) (h : bytes.length < n * d.byteCount) :
    readMany d n bytes = .ok (.error .unexpectedEnd) := by
  induction n generalizing bytes with
  | zero => omega
  | succ n ih =>
    rw [Nat.succ_mul] at h
    by_cases hfirst : d.byteCount ≤ bytes.length
    · rcases readFrom_of_le hd hfirst with ⟨c, hread⟩
      have hrest : (bytes.drop d.byteCount).length < n * d.byteCount := by
        rw [List.length_drop]
        omega
      exact readMany_succ hread (ih hrest)
    · rw [readMany, readFrom_of_length_lt hd (Nat.lt_of_not_le hfirst)]
      rfl

/-- What chunks write to the end of a list, one after the other. -/
def written (cs : List Chunk) : List UInt8 := (cs.forM (fun c => c.writeTo append) []).2

/-- The bytes of one chunk are followed by those of the next. -/
theorem written_eq (cs : List Chunk) : written cs = cs.flatMap toBytes := by
  have hrun : ∀ out, cs.forM (fun c => c.writeTo append) out =
      ((), out ++ cs.flatMap toBytes) := by
    induction cs with
    | nil =>
      intro out
      rw [List.flatMap_nil, List.append_nil]
      rfl
    | cons c cs ih =>
      intro out
      show cs.forM (fun c => c.writeTo append) (c.writeTo append out).2 = _
      rw [writeTo_append, ih, List.flatMap_cons, List.append_assoc]
  rw [written, hrun, List.nil_append]

/-- All chunks of one shape are of one length. -/
theorem length_written {cs : List Chunk} (h : ∀ c ∈ cs, c.dims = d) :
    (written cs).length = cs.length * d.byteCount := by
  have hlengths : cs.map (fun c => c.toBytes.length) = cs.map fun _ => d.byteCount := by
    apply List.map_congr_left
    intro c hc
    rw [length_toBytes, h c hc]
  rw [written_eq, List.length_flatMap, hlengths, List.map_const',
    List.sum_replicate_nat]

/-- The chunks are read back in their order, and what follows them is left. -/
theorem readMany_written (hd : d.Writable) {cs : List Chunk}
    (h : ∀ c ∈ cs, c.dims = d ∧ c.coord.Fits) (rest : List UInt8) :
    readMany d cs.length (written cs ++ rest) = .ok (.ok (cs.map saved, rest)) := by
  rw [written_eq]
  induction cs with
  | nil => rfl
  | cons c cs ih =>
    rcases h c List.mem_cons_self with ⟨rfl, hcoord⟩
    rw [List.flatMap_cons, List.append_assoc]
    exact readMany_succ (readFrom_toBytes hd hcoord _)
      (ih fun c' hc => h c' (List.mem_cons_of_mem _ hc))

/-! ## Results -/

/-- Reading takes exactly the bytes of one chunk off a stream, or says that it ends too early. So
chunks that were written one after the other are read back in order with nothing left, and a part
cut off at the end is noticed. A buffer takes a chunk exactly if it has room for as many bytes. -/
theorem stream_exact {d : Dims} (hd : d.Writable) :
    ∃ n, encodedLength d = .ok n ∧
      (∀ bytes : List UInt8,
        (n ≤ bytes.length → ∃ c, readFrom d bytes = .ok (.ok (c, bytes.drop n))) ∧
        (bytes.length < n → readFrom d bytes = .ok (.error .unexpectedEnd))) ∧
      (∀ cs : List Chunk, (∀ c ∈ cs, c.dims = d ∧ c.coord.Fits) →
        (∃ cs', readMany d cs.length (written cs) = .ok (.ok (cs', [])) ∧
          List.Forall₂ SameContents cs' cs) ∧
        ∀ front rest, written cs = front ++ rest → rest ≠ [] →
          readMany d cs.length front = .ok (.error .unexpectedEnd)) ∧
      ∀ c : Chunk, c.dims = d → ∀ room,
        (n ≤ room → c.writeInto room = .ok (room - n)) ∧
        (room < n → c.writeInto room = .error .noRoom) := by
  refine ⟨d.byteCount, encodedLength_of_writable hd,
    fun bytes => ⟨readFrom_of_le hd, readFrom_of_length_lt hd⟩, fun cs hcs => ⟨?_, ?_⟩, ?_⟩
  · -- all of them are read, with nothing left
    have hread := readMany_written hd hcs []
    rw [List.append_nil] at hread
    refine ⟨_, hread, ?_⟩
    rw [List.forall₂_map_left_iff, List.forall₂_same]
    exact fun c _ => sameContents_saved
  · -- what is cut off is missing in the end, wherever it is cut
    intro front rest hsplit hrest
    have hlength := length_written fun c hc => (hcs c hc).1
    have hpos := List.length_pos_iff.2 hrest
    rw [hsplit, List.length_append] at hlength
    apply readMany_of_length_lt hd
    omega
  · rintro c rfl room
    rw [writeInto_eq]
    exact ⟨fun h => if_pos h, fun h => if_neg (Nat.not_le_of_lt h)⟩

/-- A chunk of one cell, lit by the sky. -/
def oneCell (x z : Int) (block : UInt8) : Chunk :=
  ofParts x z 1 (d := ⟨1, 1, 1⟩) ⟨#[block], rfl⟩ ⟨#[15], rfl⟩ ⟨#[0], rfl⟩

/-- Two chunks of twelve bytes each are read back from their stream, but not from all of it but
the last byte. -/
theorem stream_exact_two_cells :
    (⟨1, 1, 1⟩ : Dims).Writable ∧ (oneCell 3 (-1) 7).coord.Fits ∧ (oneCell (-2) 0 9).coord.Fits ∧
      (∃ cs, readMany ⟨1, 1, 1⟩ 2 (written [oneCell 3 (-1) 7, oneCell (-2) 0 9]) =
          .ok (.ok (cs, [])) ∧
        List.Forall₂ SameContents cs [oneCell 3 (-1) 7, oneCell (-2) 0 9]) ∧
      readMany ⟨1, 1, 1⟩ 2 ((written [oneCell 3 (-1) 7, oneCell (-2) 0 9]).take 23) =
        .ok (.error .unexpectedEnd) ∧
      (oneCell 3 (-1) 7).writeInto 13 = .ok 1 ∧
      (oneCell 3 (-1) 7).writeInto 11 = .error .noRoom := by
  have hd : (⟨1, 1, 1⟩ : Dims).Writable := by
    constructor <;> decide
  have hfirst : (oneCell 3 (-1) 7).coord.Fits := by
    constructor <;> decide
  have hsecond : (oneCell (-2) 0 9).coord.Fits := by
    constructor <;> decide
  rcases stream_exact hd with ⟨n, hn, -, hstream, hbuffer⟩
  cases hn.symm.trans (show encodedLength ⟨1, 1, 1⟩ = .ok 12 from rfl)
  -- twelve bytes each, so the second one is cut off a byte before its end
  have hboth : ∀ c ∈ [oneCell 3 (-1) 7, oneCell (-2) 0 9], c.dims = ⟨1, 1, 1⟩ ∧ c.coord.Fits :=
    List.forall_mem_cons.2 ⟨⟨rfl, hfirst⟩, List.forall_mem_singleton.2 ⟨rfl, hsecond⟩⟩
  rcases hstream _ hboth with ⟨hall, hcut⟩
  have hroom := hbuffer (oneCell 3 (-1) 7) rfl
  refine ⟨hd, hfirst, hsecond, hall, ?_, (hroom 13).1 (by decide), (hroom 11).2 (by decide)⟩
  exact hcut _ _ (List.take_append_drop 23 _).symm (by decide)

end VoxelWorld.Chunk
