import VoxelWorld.Storage.Nibbles

/-!
# Proofs.Storage — reading back what was written

Both arrays of a chunk are maps from its cells:

1. `Dims.index?` gives different cells different numbers (`index?_inj`).
2. Reading after a write gives the written value at the written cell and what was there
   before everywhere else (`BlockArray.get?_set`, `NibbleArray.get?_set`).
3. A new array holds air or darkness in every cell. There is one if and only if its bytes are not
   too many (`BlockArray.new_isOk_iff`).
-/

namespace VoxelWorld

variable {d : Dims} {x y z x' y' z' : Int}

namespace Dims

/-- A cell has the number that counting along `x`, then `z`, then `y` gives it. -/
theorem index?_eq_some {i : Nat} :
    d.index? x y z = some i ↔
      d.Contains x y z ∧ i = (y.toNat * d.z + z.toNat) * d.x + x.toNat := by
  unfold index?
  split
  · rename_i h
    simp only [Option.some.injEq]
    exact ⟨fun hi => ⟨h, hi.symm⟩, fun hi => hi.2.symm⟩
  · rename_i h
    simp [h]

/-- Only cells have numbers. -/
theorem index?_eq_none : d.index? x y z = none ↔ ¬ d.Contains x y z := by
  unfold index?
  split <;> simp_all

/-- Two numbers written with a digit below `n` agree only digit by digit. -/
theorem digits_inj {n a b a' b' : Nat} (hb : b < n) (hb' : b' < n)
    (h : a * n + b = a' * n + b') : a = a' ∧ b = b' := by
  have hn : 0 < n := by omega
  have hdiv := congrArg (· / n) h
  have hmod := congrArg (· % n) h
  simp only [Nat.mul_comm _ n, Nat.mul_add_div hn, Nat.div_eq_of_lt hb, Nat.div_eq_of_lt hb',
    Nat.add_zero] at hdiv
  simp only [Nat.mul_comm _ n, Nat.mul_add_mod, Nat.mod_eq_of_lt hb, Nat.mod_eq_of_lt hb'] at hmod
  exact ⟨hdiv, hmod⟩

/-- A number belongs to one cell only. -/
theorem index?_inj {i : Nat} (h : d.index? x y z = some i) (h' : d.index? x' y' z' = some i) :
    x = x' ∧ y = y' ∧ z = z' := by
  obtain ⟨⟨hx, hy, hz, hxd, hyd, hzd⟩, hi⟩ := index?_eq_some.1 h
  obtain ⟨⟨hx', hy', hz', hxd', hyd', hzd'⟩, hi'⟩ := index?_eq_some.1 h'
  obtain ⟨hrow, hxx⟩ := digits_inj (by omega) (by omega) (hi.symm.trans hi')
  obtain ⟨hyy, hzz⟩ := digits_inj (by omega) (by omega) hrow
  omega

/-- The number of cells is a size if it is small enough for an array. -/
theorem volume_of_cells_le (hz : 0 < d.z) (h : d.cells ≤ arrayLimit) : d.volume = .ok d.cells := by
  have harea : d.x * d.y ≤ d.cells := Nat.le_mul_of_pos_right _ hz
  have hcells : d.cells < 18446744073709551616 := Nat.lt_of_le_of_lt h (by decide)
  unfold volume
  rw [checkSize_of_lt (Nat.lt_of_le_of_lt harea hcells)]
  exact checkSize_of_lt hcells

/-- It is none if it does not fit into 64 bits. -/
theorem volume_of_large (h : 18446744073709551616 ≤ d.cells) : d.volume = .error .overflow := by
  unfold volume checkSize
  by_cases harea : d.x * d.y < 18446744073709551616
  · have hcells : ¬ d.x * d.y * d.z < 18446744073709551616 := Nat.not_lt.2 h
    rw [if_pos harea]
    exact if_neg hcells
  · rw [if_neg harea]
    rfl

end Dims

/-- There is no upper bound but that of arrays. -/
theorem zeroBytes_isOk_iff {n : Nat} : (∃ a, zeroBytes n = .ok a) ↔ n ≤ arrayLimit := by
  unfold zeroBytes
  split
  · rename_i h
    exact ⟨fun _ => h, fun _ => ⟨_, rfl⟩⟩
  · rename_i h
    exact ⟨nofun, fun h' => absurd h' h⟩

/-! ## Blocks -/

namespace BlockArray

variable {a : BlockArray d} {v : BlockId}

/-- A block is the byte with the number of its cell. -/
theorem get?_eq : a.get? x y z = (d.index? x y z).bind (a.bytes[·]?) := by
  unfold get?
  split
  · rename_i h
    rw [h]
    rfl
  · rename_i i h
    have hi : i < a.bytes.size := a.size_eq ▸ Dims.index?_lt h
    simp only [h, Option.bind_some, Array.getElem?_eq_getElem hi]

/-- Every cell has a block. -/
theorem get?_isSome (h : d.Contains x y z) : ∃ v, a.get? x y z = some v := by
  have hi := Dims.index?_eq_some.2 ⟨h, rfl⟩
  have hlt := Dims.index?_lt hi
  rw [← a.size_eq] at hlt
  rw [get?_eq, hi, Option.bind_some, Array.getElem?_eq_getElem hlt]
  exact ⟨_, rfl⟩

/-- Outside there is none. -/
theorem get?_eq_none (h : ¬ d.Contains x y z) : a.get? x y z = none := by
  rw [get?_eq, Dims.index?_eq_none.2 h, Option.bind_none]

/-- A write changes its own cell, if it is one. -/
theorem get?_set : (a.set x y z v).get? x' y' z' =
    if d.Contains x y z ∧ x' = x ∧ y' = y ∧ z' = z then some v else a.get? x' y' z' := by
  unfold set
  split
  · rename_i h
    rw [if_neg fun hc => Dims.index?_eq_none.1 h hc.1]
  · rename_i i h
    have hi : i < a.bytes.size := a.size_eq ▸ Dims.index?_lt h
    rw [get?_eq, get?_eq]
    by_cases hcell : x' = x ∧ y' = y ∧ z' = z
    · obtain ⟨rfl, rfl, rfl⟩ := hcell
      rw [if_pos ⟨(Dims.index?_eq_some.1 h).1, rfl, rfl, rfl⟩, h, Option.bind_some]
      simp [Array.set!_eq_setIfInBounds, hi]
    · rw [if_neg fun hc => hcell hc.2]
      cases hj : d.index? x' y' z' with
      | none => rfl
      | some j =>
        -- different cells have different numbers
        have hij : i ≠ j := by
          rintro rfl
          obtain ⟨rfl, rfl, rfl⟩ := Dims.index?_inj h hj
          exact hcell ⟨rfl, rfl, rfl⟩
        simp [Array.set!_eq_setIfInBounds, Array.getElem?_setIfInBounds_ne hij]

/-- A new array is all air. -/
theorem get_new (h : BlockArray.new d = .ok a) : a.get x y z = air := by
  unfold BlockArray.new at h
  split at h
  · cases h
  · split at h
    · cases h
    · rename_i n _ bytes hb
      cases h
      unfold zeroBytes at hb
      split at hb
      · cases hb
        unfold BlockArray.get
        rw [get?_eq]
        cases d.index? x y z with
        | none => rfl
        | some i => simp only [Option.bind_some, Array.getElem?_replicate]; split <;> rfl
      · cases hb

/-- There is a new array just if its cells are not too many for one. -/
theorem new_isOk_iff (hz : 0 < d.z) : (∃ a, BlockArray.new d = .ok a) ↔ d.cells ≤ arrayLimit := by
  constructor
  · -- both the count of the cells and their bytes had to be got
    rintro ⟨a, ha⟩
    unfold BlockArray.new at ha
    split at ha
    · cases ha
    · rename_i n hn
      split at ha
      · cases ha
      · rename_i bytes hbytes
        rw [← Dims.volume_eq_ok hn]
        exact zeroBytes_isOk_iff.1 ⟨bytes, hbytes⟩
  · intro h
    have hvolume := Dims.volume_of_cells_le hz h
    obtain ⟨bytes, hbytes⟩ := zeroBytes_isOk_iff.2 h
    unfold BlockArray.new
    split
    · rename_i e he
      cases hvolume.symm.trans he
    · rename_i n hn
      cases hvolume.symm.trans hn
      split
      · rename_i e he
        cases hbytes.symm.trans he
      · exact ⟨_, rfl⟩

end BlockArray

/-! ## Levels of light -/

namespace NibbleArray

variable {a : NibbleArray d} {v : Nat}

/-- The half byte with a number, in a list of bytes. -/
def nibble? (bytes : Array UInt8) (i : Nat) : Option Nat :=
  bytes[i / 2]?.map fun b => if i % 2 = 0 then Nibble.low b else Nibble.high b

/-- A level is the half byte with the number of its cell. -/
theorem get?_eq : a.get? x y z = (d.index? x y z).bind (nibble? a.bytes) := by
  unfold get?
  split
  · rename_i h
    rw [h]
    rfl
  · rename_i i h
    simp only [h, Option.bind_some, nibble?, Array.getElem?_eq_getElem (a.byte_lt h),
      Option.map_some]

/-- Every cell has a level. -/
theorem get?_isSome (h : d.Contains x y z) : ∃ v, a.get? x y z = some v := by
  have hi := Dims.index?_eq_some.2 ⟨h, rfl⟩
  rw [get?_eq, hi, Option.bind_some, nibble?, Array.getElem?_eq_getElem (a.byte_lt hi)]
  exact ⟨_, rfl⟩

/-- Outside there is none. -/
theorem get?_eq_none (h : ¬ d.Contains x y z) : a.get? x y z = none := by
  rw [get?_eq, Dims.index?_eq_none.2 h, Option.bind_none]

/-- A half byte is no more than fifteen. -/
theorem nibble?_le {bytes : Array UInt8} {i n : Nat} (h : nibble? bytes i = some n) :
    n ≤ maxLight := by
  unfold nibble? at h
  obtain ⟨b, _, rfl⟩ := Option.map_eq_some_iff.1 h
  have := b.toNat_lt
  unfold maxLight Nibble.low Nibble.high
  split <;> omega

/-- Every level is at most the greatest one. -/
theorem get?_le {n : Nat} (h : a.get? x y z = some n) : n ≤ maxLight := by
  rw [get?_eq] at h
  obtain ⟨i, _, hi⟩ := Option.bind_eq_some_iff.1 h
  exact nibble?_le hi

/-- Writing one half of a byte is read back there and leaves the other half alone. -/
theorem nibble?_modify {bytes : Array UInt8} {i j : Nat} (hi : i / 2 < bytes.size)
    (hv : v ≤ maxLight) :
    nibble? (bytes.modify (i / 2) fun b =>
      if i % 2 = 0 then Nibble.withLow b v else Nibble.withHigh b v) j =
    if j = i then some v else nibble? bytes j := by
  unfold nibble?
  rw [Array.getElem?_modify]
  -- two numbers share a byte if they differ in the last binary digit alone
  by_cases hbyte : i / 2 = j / 2
  · rw [if_pos hbyte, ← hbyte, Array.getElem?_eq_getElem hi]
    simp only [Option.map_some]
    by_cases hij : j = i
    · subst hij
      rw [if_pos rfl]
      by_cases heven : j % 2 = 0
      · simp only [if_pos heven, Nibble.low_withLow _ hv]
      · simp only [if_neg heven, Nibble.high_withHigh _ hv]
    · rw [if_neg hij]
      by_cases heven : i % 2 = 0
      · have hodd : ¬ j % 2 = 0 := by omega
        simp only [if_pos heven, if_neg hodd, Nibble.high_withLow _ hv]
      · have hodd : j % 2 = 0 := by omega
        simp only [if_neg heven, if_pos hodd, Nibble.low_withHigh]
  · have hij : j ≠ i := by
      rintro rfl
      exact hbyte rfl
    rw [if_neg hbyte, if_neg hij]

/-- A write changes its own cell and not the one it shares a byte with. -/
theorem get?_set : (a.set x y z v).get? x' y' z' =
    if d.Contains x y z ∧ x' = x ∧ y' = y ∧ z' = z then some (min v maxLight)
    else a.get? x' y' z' := by
  unfold set
  split
  · rename_i h
    rw [if_neg fun hc => Dims.index?_eq_none.1 h hc.1]
  · rename_i i h
    have hi : i / 2 < a.bytes.size := by
      have := Dims.index?_lt h
      rw [a.size_eq]
      omega
    rw [get?_eq, get?_eq]
    -- two cells may share a byte, but then they have different halves of it
    by_cases hcell : x' = x ∧ y' = y ∧ z' = z
    · obtain ⟨rfl, rfl, rfl⟩ := hcell
      rw [if_pos ⟨(Dims.index?_eq_some.1 h).1, rfl, rfl, rfl⟩, h, Option.bind_some]
      simp only [nibble?_modify hi (Nat.min_le_right v maxLight), if_pos]
    · rw [if_neg fun hc => hcell hc.2]
      cases hj : d.index? x' y' z' with
      | none => rfl
      | some j =>
        have hij : j ≠ i := by
          rintro rfl
          obtain ⟨rfl, rfl, rfl⟩ := Dims.index?_inj h hj
          exact hcell ⟨rfl, rfl, rfl⟩
        simp only [Option.bind_some, nibble?_modify hi (Nat.min_le_right v maxLight),
          if_neg hij]

/-- Zero bytes are zero half bytes. -/
theorem nibble?_replicate {m i n : Nat} (h : nibble? (Array.replicate m 0) i = some n) :
    n = 0 := by
  unfold nibble? at h
  obtain ⟨b, hb, rfl⟩ := Option.map_eq_some_iff.1 h
  obtain ⟨_, hb⟩ := Array.getElem?_eq_some_iff.1 hb
  rw [Array.getElem_replicate] at hb
  subst hb
  split <;> rfl

/-- A new array is all dark. -/
theorem get?_new (h : NibbleArray.new d = .ok a) (hc : d.Contains x y z) :
    a.get? x y z = some 0 := by
  obtain ⟨n, hn⟩ := get?_isSome (a := a) hc
  rw [hn]
  unfold NibbleArray.new at h
  split at h
  · cases h
  · split at h
    · cases h
    · rename_i m _ bytes hb
      cases h
      unfold zeroBytes at hb
      split at hb
      · cases hb
        rw [get?_eq, Dims.index?_eq_some.2 ⟨hc, rfl⟩, Option.bind_some] at hn
        rw [nibble?_replicate hn]
      · cases hb

/-- There is room for levels where there is room for blocks. -/
theorem exists_new (hz : 0 < d.z) (h : d.cells ≤ arrayLimit) : ∃ a, NibbleArray.new d = .ok a := by
  have hvolume := Dims.volume_of_cells_le hz h
  have hhalf : (d.cells + 1) / 2 ≤ arrayLimit := by omega
  obtain ⟨bytes, hbytes⟩ := zeroBytes_isOk_iff.2 hhalf
  unfold NibbleArray.new
  split
  · rename_i e he
    cases hvolume.symm.trans he
  · rename_i n hn
    cases hvolume.symm.trans hn
    split
    · rename_i e he
      cases hbytes.symm.trans he
    · exact ⟨_, rfl⟩

end NibbleArray

end VoxelWorld
