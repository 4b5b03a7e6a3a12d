import Mathlib.Algebra.Order.Field.Power
import Mathlib.Data.Rat.Cast.Order
import Mathlib.Tactic.Ring
import Mathlib.Tactic.NormNum
import VoxelWorld.Geometry

/-!
# Proofs.Single — whole numbers in single precision

A single-precision number has 24 binary digits, so whole numbers up to `2 ^ 24` on both sides of
zero are exact, and so is the next one after each of them:

1. `Full`: a significand that uses all 24 digits. Rounding brings a number into that form and, where
   only zeros are dropped, changes nothing (`round_mul`, `round_of_mul`).
2. `unpack_pack`: what is in that form is stored as it is.
3. `Whole`: the form of a whole number. Conversion gives it (`whole_ofNat`), a change of sign and
   the addition of 1 keep it (`Whole.neg`, `Whole.add_one`).
4. `value_coordToFloat`, `value_coordToFloat_add_one`: a coordinate, and the one after it.

Nothing here holds further out: `16777217` is rounded to `16777216`.
-/

open Float.Model (Format UnpackedFloat totalExponent)
open Float.Model.UnpackedFloat

namespace VoxelWorld.Single

/-- The number that an unpacked one stands for; infinities and NaN stand for none. -/
def rational? : UnpackedFloat → Option ℚ
  | .zero _ => some 0
  | .finite s m e _ => some (s.apply m * 2 ^ e)
  | .infinity _ => none
  | .notANumber => none

/-- The number that a single-precision one stands for. -/
def value? (x : Float32) : Option ℚ := rational? x.toModel.unpack

/-- A significand of exactly 24 binary digits. -/
structure Full (m : Nat) : Prop where
  le : 8388608 ≤ m
  lt : m < 16777216

variable {s : Sign} {n m k i j : Nat} {e t : Int} {u : UnpackedFloat}

theorem Full.pos (h : Full m) : 0 < m := Nat.lt_of_lt_of_le (by decide) h.le

/-- Zeros at the end are digits too. -/
theorem log2_mul_two_pow (hn : n ≠ 0) : (n * 2 ^ i).log2 = n.log2 + i := by
  induction i with
  | zero => rw [pow_zero, Nat.mul_one, Nat.add_zero]
  | succ i ih =>
    have hpos : n * 2 ^ i ≠ 0 := Nat.mul_ne_zero hn (Nat.two_pow_pos i).ne'
    rw [show n * 2 ^ (i + 1) = 2 * (n * 2 ^ i) by ring, Nat.log2_two_mul hpos, ih]
    rfl

theorem Full.log2 (h : Full m) : m.log2 = 23 := (Nat.log2_eq_iff h.pos.ne').2 ⟨h.le, h.lt⟩

/-- The last of the 24 digits has the place that the zeros behind it reach up to. -/
theorem Full.log2_mul (h : Full m) : ((m * 2 ^ i).log2 : Int) + e = 23 + (e + i) := by
  rw [log2_mul_two_pow h.pos.ne', h.log2]
  omega

/-! ## Exact rounding -/

/-- The exponent of a number goes with 24 digits before it. -/
theorem targetExponent_eq (hlog : (n.log2 : Int) + e = 23 + t) (ht : -149 ≤ t) :
    Format.binary32.targetExponent (totalExponent n e) = t := by
  have hmin : Format.binary32.minExponent = -149 := by decide
  have hbits : (Format.binary32.mantissaBits : Int) = 24 := by decide
  unfold Format.targetExponent totalExponent
  rw [hmin, hbits]
  omega

/-- Digits that are zero leave no trace when they are dropped. -/
theorem shiftRight_mul_two_pow (m i : Nat) :
    (⟨m * 2 ^ i, false, false⟩ : ExtendedMantissa) >>> i = ⟨m, false, false⟩ := by
  show i.repeat ExtendedMantissa.shiftRightOne _ = _
  induction i generalizing m with
  | zero =>
    rw [pow_zero, Nat.mul_one]
    rfl
  | succ i ih =>
    rw [Nat.repeat, show m * 2 ^ (i + 1) = m * 2 * 2 ^ i by ring, ih]
    simp [ExtendedMantissa.shiftRightOne]

/-- Zeros past the 24 digits are dropped. -/
theorem shiftToTargetExponent_mul (h : Full m) (ht : -149 ≤ e + i) :
    shiftToTargetExponent .binary32 (m * 2 ^ i) e .exact = (⟨m, false, false⟩, e + i) := by
  have hshift : (e + i - e).toNat = i := by omega
  unfold shiftToTargetExponent shiftToExponent
  simp only [targetExponent_eq h.log2_mul ht, hshift]
  exact Prod.ext (shiftRight_mul_two_pow m i) rfl

/-- Rounding with all digits at hand: the significand is full, so nothing is carried. -/
theorem roundWithAccuracy_mul (h : Full m) (ht : -149 ≤ e + i) :
    roundWithAccuracy .binary32 s (m * 2 ^ i) e .exact = .finite s m (e + i) h.pos := by
  have hagain := shiftToTargetExponent_mul (e := e + i) (i := 0) h (by omega)
  rw [pow_zero, Nat.mul_one, Int.natCast_zero, Int.add_zero] at hagain
  have hrounded : (⟨m, false, false⟩ : ExtendedMantissa).roundedMantissa = m := rfl
  unfold UnpackedFloat.roundWithAccuracy
  rw [shiftToTargetExponent_mul h ht]
  dsimp only
  rw [hrounded, hagain]
  exact dif_neg h.pos.ne'

/-- Rounding of an exact number starts where its 24 digits end. -/
theorem round_eq (hlog : (n.log2 : Int) + e = 23 + t) (ht : -149 ≤ t) :
    UnpackedFloat.round .binary32 s n e =
      roundWithAccuracy .binary32 s (n * 2 ^ (e - t).toNat) (e - (e - t).toNat) .exact := by
  unfold UnpackedFloat.round decreaseExponent
  simp only [targetExponent_eq hlog ht, Nat.shiftLeft_eq]

/-- A number whose digits past the first 24 are zero is rounded to itself. -/
theorem round_mul (h : Full m) (ht : -149 ≤ e + i) :
    UnpackedFloat.round .binary32 s (m * 2 ^ i) e = .finite s m (e + i) h.pos := by
  have hshift : (e - (e + i)).toNat = 0 := by omega
  rw [round_eq h.log2_mul ht, hshift, pow_zero, Nat.mul_one, Int.natCast_zero, Int.sub_zero]
  exact roundWithAccuracy_mul h ht

/-- A number of fewer digits is rounded to itself. -/
theorem round_of_mul (h : Full (n * 2 ^ i)) (ht : -149 ≤ e - i) :
    UnpackedFloat.round .binary32 s n e = .finite s (n * 2 ^ i) (e - i) h.pos := by
  have hn : n ≠ 0 := by
    rintro rfl
    exact absurd h.le (by simp)
  have hlog : (n.log2 : Int) + e = 23 + (e - i) := by
    have := log2_mul_two_pow (i := i) hn
    rw [h.log2] at this
    omega
  have hshift : (e - (e - i)).toNat = i := by omega
  have hround := roundWithAccuracy_mul (s := s) (e := e - i) (i := 0) h (by omega)
  rw [pow_zero, Nat.mul_one, Int.natCast_zero, Int.add_zero] at hround
  rw [round_eq hlog ht, hshift]
  exact hround

/-! ## Packing -/

/-- The sign is the bit at the top. -/
theorem unpackSign_packComponents {f : Format} {b : BitVec f.exponentBits}
    {v : BitVec f.mantissaBitsWithoutImplicit} :
    unpackSign (packComponents f s b v) = s.toBitVec := by
  apply BitVec.eq_of_getLsbD_eq
  intro i hi
  obtain rfl : i = 0 := by omega
  unfold unpackSign packComponents
  simp [BitVec.getLsbD_append, BitVec.getElem_append]

theorem ofBitVec_toBitVec (s : Sign) : Sign.ofBitVec s.toBitVec = s := by
  cases s <;> rfl

/-- Zeros keep their signs. -/
theorem unpack_packedZero (s : Sign) : unpack .binary32 (packedZero .binary32 s) = .zero s := by
  cases s <;> rfl

/-- Full significands within the exponents of the format are stored as they are. -/
theorem unpack_pack (h : Full m) (hlo : -149 ≤ e) (hhi : e ≤ 104) :
    unpack .binary32 (pack .binary32 (.finite s m e h.pos)) = .finite s m e h.pos := by
  have hbias : (Format.binary32.exponentBias : Int) = 127 := by decide
  obtain ⟨b, rfl⟩ : ∃ b : Nat, e = b - 150 := ⟨(e + 150).toNat, by omega⟩
  -- the three fields as numbers
  have hbits : ((b - 150 : Int) + 127 + 23).toNat = b := by omega
  have hexp : (BitVec.ofNat 8 b).toNat = b := by
    rw [BitVec.toNat_ofNat, Nat.mod_eq_of_lt (by omega)]
  have hmant : (1#1 ++ BitVec.ofNat 23 m).toNat = m := by
    have hle := h.le
    have hlt := h.lt
    rw [BitVec.toNat_append, ← Nat.shiftLeft_add_eq_or_of_lt (BitVec.isLt _), BitVec.toNat_ofNat,
      Nat.shiftLeft_eq]
    show 1 * 8388608 + m % 8388608 = m
    omega
  have hfull : 23 + 1 = Format.binary32.mantissaBits := by decide
  have hpack : pack .binary32 (.finite s m (b - 150) h.pos) =
      packComponents .binary32 s (BitVec.ofNat 8 b) (BitVec.ofNat 23 m) := by
    unfold pack
    simp only [hbias, h.log2, Int.cast_ofNat_Int, hbits]
    rw [if_neg (by omega), if_pos hfull]
  -- the exponent is neither that of infinities nor that of zero
  have hnotmax : BitVec.ofNat 8 b ≠ -1#8 := by
    intro hb
    rw [hb] at hexp
    have : (-1#8).toNat = 255 := by decide
    omega
  have hnotzero : BitVec.ofNat 8 b ≠ 0#8 := by
    intro hb
    rw [hb] at hexp
    have : (0#8).toNat = 0 := by decide
    omega
  rw [hpack]
  unfold unpack
  dsimp only
  rw [if_neg (by rwa [unpackExponent_packComponents]),
    if_neg (by rwa [unpackExponent_packComponents]), UnpackedFloat.finite.injEq]
  refine ⟨?_, ?_, ?_⟩
  · rw [unpackSign_packComponents, ofBitVec_toBitVec]
  · rwa [unpackMantissa_packComponents]
  · rw [unpackExponent_packComponents, hexp, hbias]
    rfl

/-! ## Whole numbers -/

/-- The form of a whole number after rounding. -/
inductive Whole : UnpackedFloat → Int → Prop
  | zero (s : Sign) : Whole (.zero s) 0
  | finite (s : Sign) {k m j : Nat} (h : Full m) (hj : j ≤ 24) (hk : k * 8388608 = m * 2 ^ j) :
      Whole (.finite s m (j - 23) h.pos) (s.apply k)

variable {x : Int}

/-- Whole numbers are stored as they are. -/
theorem Whole.unpack_pack (h : Whole u x) : unpack .binary32 (pack .binary32 u) = u := by
  cases h with
  | zero s => exact unpack_packedZero s
  | finite s h hj hk => exact Single.unpack_pack h (by omega) (by omega)

/-- The form of a whole number stands for that number. -/
theorem Whole.rational (h : Whole u x) : rational? u = some (x : ℚ) := by
  cases h with
  | zero s => exact congrArg some Int.cast_zero.symm
  | @finite s k m j h hj hk =>
    have hsize : (m : ℚ) * 2 ^ ((j : Int) - 23) = k := by
      rw [zpow_sub₀ two_ne_zero, zpow_natCast, ← mul_div_assoc]
      refine (div_eq_iff (by norm_num)).2 ?_
      rw [show (2 : ℚ) ^ (23 : Int) = 8388608 by norm_num]
      exact_mod_cast hk.symm
    refine congrArg some ?_
    cases s with
    | positive => exact_mod_cast hsize
    | negative =>
      show ((-(m : Int) : Int) : ℚ) * 2 ^ ((j : Int) - 23) = ((-(k : Int) : Int) : ℚ)
      rw [Int.cast_neg, Int.cast_neg, neg_mul, Int.cast_natCast, Int.cast_natCast, hsize]

/-- The sign of a whole number can be changed. -/
theorem Whole.neg (h : Whole u x) : Whole u.neg (-x) := by
  cases h with
  | zero s => exact .zero _
  | @finite s k m j h hj hk =>
    have hflip : -s.apply k = (-s).apply k := by
      cases s with
      | positive => rfl
      | negative => exact Int.neg_neg _
    rw [hflip]
    exact .finite (-s) h hj hk

/-- The 24 digits of a whole number. -/
theorem exists_full (hpos : 1 ≤ k) (hk : k ≤ 16777216) :
    ∃ m j, Full m ∧ j ≤ 24 ∧ k * 8388608 = m * 2 ^ j := by
  rcases Nat.lt_or_ge k 16777216 with hlt | hge
  · -- zeros are put behind the digits up to the 24th
    have hlog : k.log2 ≤ 23 := by
      have := (Nat.log2_lt (k := 24) (by omega)).2 hlt
      omega
    have hsplit : 2 ^ (23 - k.log2) * 2 ^ k.log2 = 8388608 := by
      rw [← pow_add, Nat.sub_add_cancel hlog]
      rfl
    refine ⟨k * 2 ^ (23 - k.log2), k.log2, ⟨?_, ?_⟩, by omega, by rw [Nat.mul_assoc, hsplit]⟩
    · rw [← hsplit, Nat.mul_comm]
      exact Nat.mul_le_mul_right _ (Nat.log2_self_le (by omega))
    · have hlt := Nat.mul_lt_mul_of_pos_right (Nat.lt_log2_self (n := k))
        (Nat.two_pow_pos (23 - k.log2))
      rwa [pow_succ, Nat.mul_right_comm, Nat.mul_comm (2 ^ k.log2), hsplit] at hlt
  · -- only `2 ^ 24` itself has 25 digits, the last of them zero
    exact ⟨8388608, 24, ⟨by decide, by decide⟩, le_rfl, by omega⟩

/-- Rounded from the place of the units. -/
theorem whole_round (s : Sign) (hpos : 1 ≤ k) (hk : k ≤ 16777216) :
    Whole (UnpackedFloat.round .binary32 s k 0) (s.apply k) := by
  obtain ⟨m, j, h, hj, hkm⟩ := exists_full hpos hk
  -- digits are added behind a short number, and one is dropped from `2 ^ 24`
  rcases Nat.lt_or_ge j 24 with hlt | hge
  · have hsplit : 2 ^ (23 - j) * 2 ^ j = 8388608 := by
      rw [← pow_add, Nat.sub_add_cancel (by omega)]
      rfl
    have hm : k * 2 ^ (23 - j) = m := by
      refine Nat.eq_of_mul_eq_mul_right (Nat.two_pow_pos j) ?_
      rw [Nat.mul_assoc, hsplit, hkm]
    subst hm
    rw [round_of_mul h (by omega), show (0 : Int) - (23 - j : Nat) = j - 23 by omega]
    exact .finite s h hj hkm
  · obtain rfl : j = 24 := by omega
    have hm : k = m * 2 ^ 1 := by
      have : (2 : Nat) ^ 24 = 16777216 := by norm_num
      omega
    have hround := round_mul (s := s) (e := 0) (i := 1) h (by omega)
    rw [← hm] at hround
    rw [hround]
    exact .finite s h hj hkm

/-- Rounded from the place of the last digit of 1. -/
theorem whole_round_scaled (s : Sign) (hpos : 1 ≤ k) (hk : k ≤ 16777216) :
    Whole (UnpackedFloat.round .binary32 s (k * 8388608) (-23)) (s.apply k) := by
  obtain ⟨m, j, h, hj, hkm⟩ := exists_full hpos hk
  rw [hkm, round_mul h (by omega), show (-23 : Int) + j = j - 23 by omega]
  exact .finite s h hj hkm

/-- Conversion gives the form of a whole number. -/
theorem whole_ofNat (hn : n ≤ 16777216) : Whole (ofNat .binary32 n) n := by
  unfold ofNat ofInt UnpackedFloat.normalize
  rcases Nat.eq_zero_or_pos n with rfl | hpos
  · exact .zero .positive
  · rw [Int.compare_eq_gt.2 (by omega)]
    exact whole_round .positive hpos hn

/-- Whole numbers at the place of the last digit of 1, as an addition leaves them. -/
theorem whole_normalize (hlo : -16777216 ≤ x) (hhi : x ≤ 16777216) :
    Whole (UnpackedFloat.normalize .binary32 (x * 8388608) (-23) .positive) x := by
  have hround : ∀ s : Sign, x ≠ 0 → s.apply x.natAbs = x →
      Whole (UnpackedFloat.round .binary32 s (x.natAbs * 8388608) (-23)) x := by
    intro s hne hx
    have h := whole_round_scaled (k := x.natAbs) s (by omega) (by omega)
    rwa [hx] at h
  unfold UnpackedFloat.normalize
  -- a sum of zero has no digits to round
  rcases Int.lt_trichotomy x 0 with hneg | rfl | hpos
  · have hsize : (-(x * 8388608)).toNat = x.natAbs * 8388608 := by omega
    rw [Int.compare_eq_lt.2 (by omega), hsize]
    exact hround .negative hneg.ne (show -(x.natAbs : Int) = x by omega)
  · exact .zero .positive
  · have hsize : (x * 8388608).toNat = x.natAbs * 8388608 := by omega
    rw [Int.compare_eq_gt.2 (by omega), hsize]
    exact hround .positive hpos.ne' (show (x.natAbs : Int) = x by omega)

/-- The number 1, with all of its digits. -/
def one : UnpackedFloat := .finite .positive 8388608 (-23) (by decide)

theorem unpack_one : (1 : Float32).toModel.unpack = one := rfl

theorem whole_one : Whole one 1 :=
  .finite .positive (k := 1) (m := 8388608) (j := 0) ⟨by decide, by decide⟩ (by decide) (by decide)

/-- As long as the sum is no longer than 24 digits, adding 1 loses none. -/
theorem Whole.add_one (h : Whole u x) (hlo : -16777216 ≤ x) (hhi : x < 16777216) :
    Whole (add .binary32 u one) (x + 1) := by
  cases h with
  | zero s => exact whole_one
  | @finite s k m j h hj hk =>
    -- both summands are written down to the last digit of 1, which only adds zeros to them
    have hmin : min ((j : Int) - 23) (-23) = -23 := by omega
    have hshift : ((j : Int) - 23 - -23).toNat = j := by omega
    have hsum : s.apply (m * 2 ^ j : Nat) + Sign.positive.apply 8388608 =
        (s.apply k + 1) * 8388608 := by
      rw [← hk]
      cases s with
      | positive =>
        show ((k * 8388608 : Nat) : Int) + 8388608 = (k + 1) * 8388608
        omega
      | negative =>
        show -((k * 8388608 : Nat) : Int) + 8388608 = (-k + 1) * 8388608
        omega
    unfold add one decreaseExponent
    simp only [hmin, hshift, Nat.shiftLeft_eq]
    show Whole (UnpackedFloat.normalize .binary32
      (s.apply (m * 2 ^ j : Nat) + Sign.positive.apply 8388608) (-23) .positive) _
    rw [hsum]
    exact whole_normalize (by omega) (by omega)

/-! ## Coordinates -/

theorem unpack_ofModel_pack (h : Whole u x) : (Float32.Model.pack u).unpack = u := h.unpack_pack

/-- A size of at most 24 digits. -/
theorem whole_sizeToFloat (hn : n ≤ 16777216) : Whole (sizeToFloat n).toModel.unpack n := by
  have h := whole_ofNat hn
  have hsmall : (UInt64.ofNat n).toNat = n := Nat.mod_eq_of_lt (by omega)
  have hunpack : (sizeToFloat n).toModel.unpack = ofNat .binary32 n := by
    show (Float32.Model.pack (ofNat .binary32 (UInt64.ofNat n).toNat)).unpack = _
    rw [hsmall, unpack_ofModel_pack h]
  rw [hunpack]
  exact h

/-- A coordinate is converted by its size, and then gets its sign. -/
theorem whole_coordToFloat (hlo : -16777216 ≤ x) (hhi : x ≤ 16777216) :
    Whole (coordToFloat x).toModel.unpack x := by
  have hsize := whole_sizeToFloat (n := x.natAbs) (by omega)
  unfold coordToFloat
  split
  · have h := hsize.neg
    have hx : -(x.natAbs : Int) = x := by omega
    rw [hx] at h
    exact (unpack_ofModel_pack h).symm ▸ h
  · rwa [show (x.natAbs : Int) = x by omega] at hsize

/-- A coordinate of at most 24 digits is exact. -/
theorem value_coordToFloat (hlo : -16777216 ≤ x) (hhi : x ≤ 16777216) :
    value? (coordToFloat x) = some (x : ℚ) := (whole_coordToFloat hlo hhi).rational

/-- The number one past a coordinate of at most 24 digits is exact, except past `2 ^ 24`. -/
theorem value_coordToFloat_add_one (hlo : -16777216 ≤ x) (hhi : x < 16777216) :
    value? (coordToFloat x + 1) = some ((x + 1 : Int) : ℚ) := by
  have h := (whole_coordToFloat hlo hhi.le).add_one hlo hhi
  show rational? (Float32.Model.pack
    (add .binary32 (coordToFloat x).toModel.unpack (1 : Float32).toModel.unpack)).unpack = _
  rw [unpack_one, unpack_ofModel_pack h]
  exact h.rational

end VoxelWorld.Single
