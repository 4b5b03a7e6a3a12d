import Mathlib.Data.List.Induction
import Mathlib.Data.Set.Function
import Mathlib.Order.Interval.Set.Defs
import VoxelWorld.Proofs.Coord
import VoxelWorld.Proofs.Storage

/-!
# Proofs.Storage.Written — an array is what was last written to it

The arrays of a chunk are compared with a map from its cells to values:

1. The numbers of the cells are the numbers below the volume, each of them once
   (`Dims.number_bijOn`).
2. `lastWritten` is the value that a list of calls leaves in a cell; it knows of no bytes. A
   read after any calls gives that value (`BlockArray.get?_run`, `NibbleArray.get?_run`).
3. `ActsAs` says of an array that reads and writes cannot tell it from a map. Both arrays act
   as what was last written to them (`storage_acts_as_written`).
4. The half byte that no cell uses stays what it is when a cell is written
   (`NibbleArray.spare?_set`).
-/

namespace VoxelWorld

variable {d : Dims} {x y z : Int} {α κ σ : Type}

/-! ## Cells and numbers -/

namespace Dims

/-- The number of a cell, without a look at whether the position is one. -/
def number (d : Dims) (p : Int × Int × Int) : Nat :=
  (p.2.1.toNat * d.z + p.2.2.toNat) * d.x + p.1.toNat

theorem index?_of_contains (h : d.Contains x y z) : d.index? x y z = some (d.number (x, y, z)) :=
  index?_eq_some.2 ⟨h, rfl⟩

/-- The digits of a number are the cell that it belongs to. -/
theorem exists_cell (hd : d.Valid) {i : Nat} (hi : i < d.cells) :
    ∃ x y z : Int, d.Contains x y z ∧ d.number (x, y, z) = i := by
  have hrow : i / d.x < d.y * d.z := by
    rw [Nat.div_lt_iff_lt_mul hd.x_pos]
    calc i < d.cells := hi
      _ = d.y * d.z * d.x := by unfold cells; rw [Nat.mul_comm d.x, Nat.mul_right_comm]
  have hx : i % d.x < d.x := Nat.mod_lt i hd.x_pos
  have hy : i / d.x / d.z < d.y := (Nat.div_lt_iff_lt_mul hd.z_pos).2 hrow
  have hz : i / d.x % d.z < d.z := Nat.mod_lt _ hd.z_pos
  refine ⟨(i % d.x : Nat), (i / d.x / d.z : Nat), (i / d.x % d.z : Nat), ?_, ?_⟩
  · exact ⟨Int.natCast_nonneg _, Int.natCast_nonneg _, Int.natCast_nonneg _,
      Int.ofNat_lt.2 hx, Int.ofNat_lt.2 hy, Int.ofNat_lt.2 hz⟩
  · simp only [number, Int.toNat_natCast]
    rw [Nat.div_add_mod' (i / d.x) d.z, Nat.div_add_mod']

/-- The cells are numbered from zero up to the volume, with no number left out or used twice. -/
theorem number_bijOn (hd : d.Valid) :
    Set.BijOn d.number {p | d.Contains p.1 p.2.1 p.2.2} (Set.Iio d.cells) := by
  refine ⟨?maps, ?inj, ?surj⟩
  case maps =>
    intro p hp
    exact index?_lt (index?_of_contains hp)
  case inj =>
    intro p hp q hq heq
    have hq' := index?_of_contains hq
    rw [← heq] at hq'
    obtain ⟨hx, hy, hz⟩ := index?_inj (index?_of_contains hp) hq'
    exact Prod.ext hx (Prod.ext hy hz)
  case surj =>
    intro i hi
    obtain ⟨x, y, z, hc, hnumber⟩ := exists_cell hd hi
    exact ⟨(x, y, z), hc, hnumber⟩

/-- Where the volume is a size, the numbers are sizes too. -/
theorem linearIndex_eq (h : d.cells ≤ arrayLimit) :
    d.linearIndex x y z = .ok (if d.Contains x y z then some (d.number (x, y, z)) else none) := by
  unfold linearIndex
  by_cases hc : d.Contains x y z
  · have hi := index?_of_contains hc
    have hlt : d.number (x, y, z) < 18446744073709551616 := by
      have hcell := index?_lt hi
      unfold arrayLimit at h
      omega
    rw [if_pos hc, hi]
    simp only [checkSize_of_lt hlt, Except.map_ok]
  · rw [if_neg hc, index?_eq_none.2 hc]

end Dims

/-! ## What was last written -/

/-- A call that writes one cell. -/
structure CellWrite (α : Type) where
  x : Int
  y : Int
  z : Int
  value : α

/-- What the call writes to a cell, if that is its cell. -/
def CellWrite.at (w : CellWrite α) (x y z : Int) : Option α :=
  if w.x = x ∧ w.y = y ∧ w.z = z then some w.value else none

/-- What the last of the calls that write to a cell writes there, with `writes` for what one
call writes to it. -/
def lastWritten (writes : κ → Option α) (calls : List κ) : Option α :=
  calls.reverse.findSome? writes

/-- The last call counts where it writes, and the ones before it elsewhere. -/
theorem lastWritten_concat (writes : κ → Option α) (calls : List κ) (c : κ) :
    lastWritten writes (calls ++ [c]) = (writes c).or (lastWritten writes calls) := by
  unfold lastWritten
  rw [List.reverse_append, List.reverse_singleton, List.singleton_append, List.findSome?_cons]
  cases writes c <;> rfl

/-- If each call is read back as what it writes, and leaves a read that it does not write as it
is, then so does a list of calls. -/
theorem read_foldl (read : σ → Option α) {step : σ → κ → σ} {writes : κ → Option α}
    (hstep : ∀ s c, read (step s c) = (writes c).or (read s)) (s : σ) (calls : List κ) :
    read (calls.foldl step s) = (lastWritten writes calls).or (read s) := by
  induction calls using List.reverseRecOn with
  | nil => rfl
  | append_singleton calls c ih =>
    rw [List.foldl_append, List.foldl_cons, List.foldl_nil, hstep, ih, lastWritten_concat,
      Option.or_assoc]

/-- An array with its way to read and to write a cell is the map `value` of the cells: a read
gives the value, a write gives the value from before, and a position that is no cell is
refused by both, with nothing changed. -/
structure ActsAs (d : Dims) (a : σ) (read : Int → Int → Int → Option α)
    (write : Int → Int → Int → α → Option α × σ) (value : Int → Int → Int → α) : Prop where
  read_cell : ∀ x y z, d.Contains x y z → read x y z = some (value x y z)
  write_cell : ∀ x y z v, d.Contains x y z → (write x y z v).1 = some (value x y z)
  read_outside : ∀ x y z, ¬ d.Contains x y z → read x y z = none
  write_outside : ∀ x y z v, ¬ d.Contains x y z → write x y z v = (none, a)

/-- A write that gives what was read before acts as well as the reads do. -/
theorem ActsAs.of_reads {a : σ} {read : Int → Int → Int → Option α}
    {store : Int → Int → Int → α → σ} {value : Int → Int → Int → α}
    (hread : ∀ x y z, d.Contains x y z → read x y z = some (value x y z))
    (hnone : ∀ x y z, ¬ d.Contains x y z → read x y z = none)
    (hstore : ∀ x y z v, ¬ d.Contains x y z → store x y z v = a) :
    ActsAs d a read (fun x y z v => (read x y z, store x y z v)) value where
  read_cell := hread
  write_cell x y z _ hc := hread x y z hc
  read_outside := hnone
  write_outside x y z v hc := by rw [hnone x y z hc, hstore x y z v hc]

/-! ## Blocks -/

namespace BlockArray

def write (a : BlockArray d) (w : CellWrite BlockId) : BlockArray d :=
  (a.replace w.x w.y w.z w.value).2

/-- The array after a list of writes. -/
def run (a : BlockArray d) (calls : List (CellWrite BlockId)) : BlockArray d :=
  calls.foldl write a

/-- What is in a cell of a new array after a list of writes. -/
def written (calls : List (CellWrite BlockId)) (x y z : Int) : BlockId :=
  (lastWritten (CellWrite.at · x y z) calls).getD air

/-- A write outside does nothing. -/
theorem set_outside {a : BlockArray d} {v : BlockId} (h : ¬ d.Contains x y z) :
    a.set x y z v = a := by
  unfold set
  rw [Dims.index?_eq_none.2 h]

/-- One write shows in its own cell. -/
theorem get?_write (a : BlockArray d) (w : CellWrite BlockId) (h : d.Contains x y z) :
    (a.write w).get? x y z = (w.at x y z).or (a.get? x y z) := by
  rw [write, replace, get?_set, CellWrite.at]
  by_cases hcell : w.x = x ∧ w.y = y ∧ w.z = z
  · obtain ⟨rfl, rfl, rfl⟩ := hcell
    rw [if_pos ⟨h, rfl, rfl, rfl⟩, if_pos ⟨rfl, rfl, rfl⟩, Option.some_or]
  · rw [if_neg fun hc => hcell ⟨hc.2.1.symm, hc.2.2.1.symm, hc.2.2.2.symm⟩, if_neg hcell,
      Option.none_or]

/-- After any writes a cell holds what was last written to it, or else what was there before. -/
theorem get?_run (a : BlockArray d) (calls : List (CellWrite BlockId)) (h : d.Contains x y z) :
    (a.run calls).get? x y z = (lastWritten (CellWrite.at · x y z) calls).or (a.get? x y z) :=
  read_foldl (·.get? x y z) (fun a w => get?_write a w h) a calls

/-- A new array is full of air. -/
theorem get?_new {a : BlockArray d} (ha : BlockArray.new d = .ok a) (h : d.Contains x y z) :
    a.get? x y z = some air := by
  obtain ⟨v, hv⟩ := get?_isSome (a := a) h
  have hair : a.get x y z = air := get_new ha
  rw [get, hv, Option.getD_some] at hair
  rw [hv, hair]

/-- An array that was new acts as what was last written to it. -/
theorem actsAs_run {a : BlockArray d} (ha : BlockArray.new d = .ok a)
    (calls : List (CellWrite BlockId)) :
    ActsAs d (a.run calls) (a.run calls).get? (a.run calls).replace (written calls) := by
  refine ActsAs.of_reads (fun x y z hc => ?_) (fun _ _ _ => get?_eq_none)
    fun _ _ _ _ => set_outside
  rw [get?_run a calls hc, get?_new ha hc, Option.or_some, written]

end BlockArray

/-! ## Levels of light -/

namespace NibbleArray

/-- The calls that change an array of levels. -/
inductive Call
  | set (w : CellWrite Nat)
  | fill (v : Nat)

/-- What a call writes to a cell; a level is written as fifteen at most. -/
def Call.at (x y z : Int) : Call → Option Nat
  | .set w => (w.at x y z).map (min · maxLight)
  | .fill v => some (min v maxLight)

def call (a : NibbleArray d) : Call → NibbleArray d
  | .set w => (a.replace w.x w.y w.z w.value).2
  | .fill v => a.fill v

/-- The array after a list of calls. -/
def run (a : NibbleArray d) (calls : List Call) : NibbleArray d := calls.foldl call a

/-- What is in a cell of a new array after a list of calls. -/
def written (calls : List Call) (x y z : Int) : Nat :=
  (lastWritten (Call.at x y z) calls).getD 0

/-- A write outside does nothing. -/
theorem set_outside {a : NibbleArray d} {v : Nat} (h : ¬ d.Contains x y z) :
    a.set x y z v = a := by
  unfold set
  rw [Dims.index?_eq_none.2 h]

/-- Both halves of the byte that `fill` writes are the level. -/
theorem nibble?_fill {a : NibbleArray d} {v i : Nat} (hi : i / 2 < a.bytes.size) :
    nibble? (a.fill v).bytes i = some (min v maxLight) := by
  unfold nibble? fill
  rw [Array.getElem?_replicate, if_pos hi, Option.map_some]
  generalize hn : min v maxLight = n
  have hle : n ≤ 15 := hn ▸ Nat.min_le_right v maxLight
  have hbyte : (UInt8.ofNat (n * 16 + n)).toNat = n * 16 + n := by
    rw [UInt8.toNat_ofNat']
    omega
  unfold Nibble.low Nibble.high
  rw [hbyte]
  split
  · congr 1
    omega
  · congr 1
    omega

/-- Filling reaches every cell. -/
theorem get?_fill {a : NibbleArray d} {v : Nat} (h : d.Contains x y z) :
    (a.fill v).get? x y z = some (min v maxLight) := by
  have hi := Dims.index?_of_contains h
  rw [get?_eq, hi, Option.bind_some, nibble?_fill (a.byte_lt hi)]

/-- One call shows in its own cell, or in all. -/
theorem get?_call (a : NibbleArray d) (c : Call) (h : d.Contains x y z) :
    (a.call c).get? x y z = (c.at x y z).or (a.get? x y z) := by
  cases c with
  | set w =>
    rw [call, replace, get?_set, Call.at, CellWrite.at]
    by_cases hcell : w.x = x ∧ w.y = y ∧ w.z = z
    · obtain ⟨rfl, rfl, rfl⟩ := hcell
      rw [if_pos ⟨h, rfl, rfl, rfl⟩, if_pos ⟨rfl, rfl, rfl⟩, Option.map_some, Option.some_or]
    · rw [if_neg fun hc => hcell ⟨hc.2.1.symm, hc.2.2.1.symm, hc.2.2.2.symm⟩, if_neg hcell,
        Option.map_none, Option.none_or]
  | fill v =>
    -- a fill reaches every cell, so nothing shows through from before
    rw [call, get?_fill h, Call.at, Option.some_or]

/-- After any calls a cell holds what was last written to it, or else what was there before. -/
theorem get?_run (a : NibbleArray d) (calls : List Call) (h : d.Contains x y z) :
    (a.run calls).get? x y z = (lastWritten (Call.at x y z) calls).or (a.get? x y z) :=
  read_foldl (·.get? x y z) (fun a c => get?_call a c h) a calls

/-- An array that was new acts as what was last written to it. -/
theorem actsAs_run {a : NibbleArray d} (ha : NibbleArray.new d = .ok a) (calls : List Call) :
    ActsAs d (a.run calls) (a.run calls).get? (a.run calls).replace (written calls) := by
  refine ActsAs.of_reads (fun x y z hc => ?_) (fun _ _ _ => get?_eq_none)
    fun _ _ _ _ => set_outside
  rw [get?_run a calls hc, get?_new ha hc, Option.or_some, written]

/-- The half byte that no cell uses, if there is one: the high half of the last byte. -/
def spare? (a : NibbleArray d) : Option Nat := a.bytes.back?.map Nibble.high

/-- With an odd number of cells the spare half byte is the one past the last cell. -/
theorem spare?_eq (hodd : d.cells % 2 = 1) (a : NibbleArray d) :
    a.spare? = nibble? a.bytes d.cells := by
  have hlast : a.bytes.size - 1 = d.cells / 2 := by
    rw [a.size_eq]
    omega
  have hhigh : ¬ d.cells % 2 = 0 := by omega
  unfold spare? nibble?
  rw [Array.back?_eq_getElem?, hlast]
  simp only [if_neg hhigh]

/-- There is one, since there is a last byte. -/
theorem exists_spare (hodd : d.cells % 2 = 1) (a : NibbleArray d) : ∃ n, a.spare? = some n := by
  have hlast : a.bytes.size - 1 < a.bytes.size := by
    rw [a.size_eq]
    omega
  unfold spare?
  rw [Array.back?_eq_getElem?, Array.getElem?_eq_getElem hlast]
  exact ⟨_, rfl⟩

/-- Writing a cell leaves the unused half of the last byte alone. -/
theorem spare?_set (hodd : d.cells % 2 = 1) {a : NibbleArray d} {v : Nat} :
    (a.set x y z v).spare? = a.spare? := by
  rw [spare?_eq hodd, spare?_eq hodd]
  unfold set
  split
  · rfl
  · rename_i i hi
    have hlt := Dims.index?_lt hi
    have hbyte := a.byte_lt hi
    -- the spare half comes after the halves of all cells
    have hother : d.cells ≠ i := by omega
    rw [nibble?_modify hbyte (Nat.min_le_right v maxLight), if_neg hother]

end NibbleArray

/-! ## Both arrays -/

/-- Under any sides that a world can have, the cells are numbered one to one by the numbers
below the volume, and after any calls both arrays, new at first, act as the map of the cells to
what was last written to them. A call that sets one level leaves the unused half of the last
byte alone where there is one. -/
theorem storage_acts_as_written (hd : d.Valid) (hcells : d.cells < 9223372036854775808) :
    d.volume = .ok d.cells ∧
    (∃ number : Int × Int × Int → Nat,
      Set.BijOn number {p | d.Contains p.1 p.2.1 p.2.2} (Set.Iio d.cells) ∧
      ∀ x y z, d.linearIndex x y z =
        .ok (if d.Contains x y z then some (number (x, y, z)) else none)) ∧
    (∃ a, BlockArray.new d = .ok a ∧ ∀ calls,
      ActsAs d (a.run calls) (a.run calls).get? (a.run calls).replace
        (BlockArray.written calls)) ∧
    (∃ a, NibbleArray.new d = .ok a ∧ ∀ calls,
      ActsAs d (a.run calls) (a.run calls).get? (a.run calls).replace
        (NibbleArray.written calls)) ∧
    (d.cells % 2 = 1 → ∀ (a : NibbleArray d) (x y z : Int) (v : Nat),
      ∃ n, a.spare? = some n ∧ (a.replace x y z v).2.spare? = some n) := by
  have hlimit : d.cells ≤ arrayLimit := by
    unfold arrayLimit
    omega
  refine ⟨Dims.volume_of_cells_le hd.z_pos hlimit, ⟨d.number, Dims.number_bijOn hd, ?_⟩, ?_, ?_, ?_⟩
  · intro x y z
    exact Dims.linearIndex_eq hlimit
  · obtain ⟨a, ha⟩ := (BlockArray.new_isOk_iff hd.z_pos).2 hlimit
    exact ⟨a, ha, BlockArray.actsAs_run ha⟩
  · obtain ⟨a, ha⟩ := NibbleArray.exists_new hd.z_pos hlimit
    exact ⟨a, ha, NibbleArray.actsAs_run ha⟩
  · intro hodd a x y z v
    obtain ⟨n, hn⟩ := NibbleArray.exists_spare hodd a
    exact ⟨n, hn, (NibbleArray.spare?_set hodd).trans hn⟩

/-- Three cells in two bytes: a level too bright is written to the first cell, then all cells
are filled, then the second cell is written, next to the first one in its byte. The fill and
the last write are what is read, and the fourth half byte is no cell. -/
theorem storage_of_three_cells :
    Dims.Valid ⟨3, 1, 1⟩ ∧ ∃ a : NibbleArray ⟨3, 1, 1⟩, NibbleArray.new ⟨3, 1, 1⟩ = .ok a ∧
      (a.run [.set ⟨0, 0, 0, 200⟩]).get? 0 0 0 = some 15 ∧
      (a.run [.set ⟨0, 0, 0, 200⟩, .fill 7, .set ⟨1, 0, 0, 3⟩]).get? 0 0 0 = some 7 ∧
      (a.run [.set ⟨0, 0, 0, 200⟩, .fill 7, .set ⟨1, 0, 0, 3⟩]).get? 1 0 0 = some 3 ∧
      (a.run [.fill 7]).replace 3 0 0 9 = (none, a.run [.fill 7]) := by
  have hd : Dims.Valid ⟨3, 1, 1⟩ := by constructor <;> decide
  obtain ⟨-, -, -, ⟨a, ha, hacts⟩, -⟩ := storage_acts_as_written hd (by decide)
  refine ⟨hd, a, ha, ?_, ?_, ?_, ?_⟩
  · exact (hacts _).read_cell 0 0 0 (by decide)
  · exact (hacts _).read_cell 0 0 0 (by decide)
  · exact (hacts _).read_cell 1 0 0 (by decide)
  · exact (hacts _).write_outside 3 0 0 9 (by decide)

end VoxelWorld
