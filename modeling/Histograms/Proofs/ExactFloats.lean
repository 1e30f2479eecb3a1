import Mathlib
import Histograms.Proofs.ExactCounts
/-!
# Whole floats convert exactly

A counting store that moves to floats converts each integer cell with `Float.ofNat`, and
adds later amounts to cells that hold `+0.0`. Both run the core float model, which unpacks
its operands, rounds and packs the result. Nothing is lost on the values a store meets: the
model's unpacking agrees with the exact reading `Binary64.ofFloat`, packing an unpacked float
gives it back, and rounding a value the format holds exactly gives that value. So
`Float.ofNat n` is the whole float worth `n`, and `+0.0 + y` is `y` up to the sign of a zero.

Main statements:

* `Binary64.toUnpacked_ofFloat` — the exact reading and the model's unpacking agree.
* `UnpackedFloat.roundWithAccuracy_canonical`, `UnpackedFloat.round_canonical` — rounding
  a value that the format holds exactly.
* `Float.ofNat_eq_of_toNat?` — `Float.ofNat n` is the whole float worth `n > 0`.
* `Float.ofNat_beq_of_toNat?` — it equals every whole float worth `n`, `-0.0` included.
* `Float.add_beq_of_beq_zero` — a zero of either sign plus `y` equals `y` unless `y` is NaN.
* `Count.beq_of_toNat?` — counts worth the same whole number are equal, floats included.
-/

open Float.Model UnpackedFloat

theorem Nat.log2_mul_two_pow {m : Nat} (hm : m ≠ 0) (k : Nat) :
    (m * 2 ^ k).log2 = m.log2 + k := by
  induction k with
  | zero => simp
  | succ k ih =>
    have hpos : m * 2 ^ k ≠ 0 := Nat.mul_ne_zero hm (Nat.pos_iff_ne_zero.mp (Nat.two_pow_pos k))
    rw [Nat.pow_succ, ← Nat.mul_assoc, Nat.mul_comm _ 2, Nat.log2_two_mul hpos, ih]
    omega

namespace Float.Model.UnpackedFloat

@[simp] theorem binary64_exponentBias : Format.binary64.exponentBias = 1023 := rfl

@[simp] theorem binary64_mantissaBits : Format.binary64.mantissaBits = 53 := rfl

@[simp] theorem binary64_minExponent : Format.binary64.minExponent = -1074 := rfl

/-! ### The three bit fields -/

section Fields

variable (b : BitVec Format.binary64.numBits)

theorem toNat_unpackMantissa : (unpackMantissa b).toNat = b.toNat % 2 ^ 52 := by
  simp [unpackMantissa, Nat.shiftRight_zero]

theorem toNat_unpackExponent : (unpackExponent b).toNat = b.toNat / 2 ^ 52 % 2 ^ 11 := by
  simp [unpackExponent, Nat.shiftRight_eq_div_pow]

theorem toNat_unpackSign : (unpackSign b).toNat = b.toNat / 2 ^ 63 := by
  have hb : b.toNat < 2 ^ 64 := b.isLt
  simp [unpackSign, Nat.shiftRight_eq_div_pow]
  omega

theorem unpackExponent_eq_allOnes_iff :
    unpackExponent b = -BitVec.ofNat Format.binary64.exponentBits 1 ↔ b.toNat / 2 ^ 52 % 2048 = 2047 := by
  rw [← BitVec.toNat_inj, toNat_unpackExponent]
  simp

theorem unpackExponent_eq_zero_iff :
    unpackExponent b = BitVec.ofNat Format.binary64.exponentBits 0 ↔ b.toNat / 2 ^ 52 % 2048 = 0 := by
  rw [← BitVec.toNat_inj, toNat_unpackExponent]
  simp

theorem unpackMantissa_eq_zero_iff :
    unpackMantissa b = BitVec.ofNat Format.binary64.mantissaBitsWithoutImplicit 0 ↔ b.toNat % 2 ^ 52 = 0 := by
  rw [← BitVec.toNat_inj, toNat_unpackMantissa]
  simp

theorem ofBitVec_unpackSign :
    Sign.ofBitVec (unpackSign b) = if 2 ^ 63 ≤ b.toNat then .negative else .positive := by
  have hb : b.toNat < 2 ^ 64 := b.isLt
  have hs := toNat_unpackSign b
  unfold Sign.ofBitVec
  by_cases h : 2 ^ 63 ≤ b.toNat
  · rw [if_pos h, if_neg]
    intro h0
    rw [h0] at hs
    simp at hs
    omega
  · rw [if_neg h, if_pos]
    apply BitVec.eq_of_toNat_eq
    simp [hs]
    omega

end Fields

theorem toNat_one_append (v : BitVec 52) : (1#1 ++ v).toNat = v.toNat + 2 ^ 52 := by
  rw [BitVec.toNat_append, ← Nat.shiftLeft_add_eq_or_of_lt v.isLt, Nat.shiftLeft_eq]
  simp [Nat.add_comm]

/-! ### Rounding a value the format holds -/

/-- Shifting out `k` zero bits is exact: no round or sticky bit is set. -/
theorem shiftRight_exact (m k : Nat) :
    ExtendedMantissa.mk (m * 2 ^ k) false false >>> k = ⟨m, false, false⟩ := by
  induction k generalizing m with
  | zero => simp [HShiftRight.hShiftRight, Nat.repeat]
  | succ k ih =>
    change ExtendedMantissa.shiftRightOne (ExtendedMantissa.mk (m * 2 ^ (k + 1)) false false >>> k) = _
    rw [Nat.pow_succ, Nat.mul_comm _ 2, ← Nat.mul_assoc, Nat.mul_comm m 2, ih]
    simp [ExtendedMantissa.shiftRightOne]

section Canonical

/- `M * 2 ^ E` is a normal binary64 value: a mantissa of 53 bits with its leading bit set,
and an exponent the format reaches. -/
variable {M : Nat} {E : Int} (hlo : 2 ^ 52 ≤ M) (hhi : M < 2 ^ 53) (hE : -1074 ≤ E)
include hlo hhi hE

/-- A canonical mantissa padded by `k` zero bits shifts back to the value's own exponent
without loss. -/
theorem shiftToTargetExponent_canonical (k : Nat) :
    shiftToTargetExponent Format.binary64 (M * 2 ^ k) (E - k) .exact = (⟨M, false, false⟩, E) := by
  have hlog : (M * 2 ^ k).log2 = 52 + k := by
    rw [Nat.log2_mul_two_pow (by omega), (Nat.log2_eq_iff (by omega)).mpr ⟨hlo, hhi⟩]
  have htarget : Format.binary64.targetExponent (totalExponent (M * 2 ^ k) (E - k)) = E := by
    simp only [Format.targetExponent, totalExponent, hlog, binary64_mantissaBits,
      binary64_minExponent]
    omega
  simp only [shiftToTargetExponent, shiftToExponent, htarget,
    ExtendedMantissa.ofMantissaAndAccuracy]
  rw [show (E - (E - k)).toNat = k by omega, shiftRight_exact]
  simp

/-- Rounding a value that the format holds exactly gives that value. -/
theorem roundWithAccuracy_canonical (s : Sign) (k : Nat) :
    roundWithAccuracy Format.binary64 s (M * 2 ^ k) (E - k) .exact =
      .finite s M E (by omega) := by
  have hfinal : shiftToTargetExponent Format.binary64 M E .exact = (⟨M, false, false⟩, E) := by
    simpa using shiftToTargetExponent_canonical hlo hhi hE 0
  simp only [roundWithAccuracy, shiftToTargetExponent_canonical hlo hhi hE k,
    ExtendedMantissa.roundedMantissa, ExtendedMantissa.accuracy, Accuracy.roundToNearestEven,
    hfinal]
  rw [dif_neg (by omega)]

/-- Rounding `m * 2 ^ e` gives the canonical form of the same value, whichever of the two
exponents is the larger. -/
theorem round_canonical (s : Sign) {m : Nat} {e : Int}
    (hval : m * 2 ^ (e - E).toNat = M * 2 ^ (E - e).toNat) :
    round Format.binary64 s m e = .finite s M E (by omega) := by
  have hm : m ≠ 0 := by
    rintro rfl
    have : 0 < M * 2 ^ (E - e).toNat := Nat.mul_pos (by omega) (Nat.two_pow_pos _)
    omega
  -- the leading bit of `m * 2 ^ e` sits where that of `M * 2 ^ E` does
  have hlog : m.log2 + (e - E).toNat = 52 + (E - e).toNat := by
    have h := congrArg Nat.log2 hval
    rwa [Nat.log2_mul_two_pow hm, Nat.log2_mul_two_pow (by omega),
      (Nat.log2_eq_iff (by omega)).mpr ⟨hlo, hhi⟩] at h
  have htarget : Format.binary64.targetExponent (totalExponent m e) = E := by
    simp only [Format.targetExponent, totalExponent, binary64_mantissaBits, binary64_minExponent]
    omega
  simp only [round, htarget, decreaseExponent, Nat.shiftLeft_eq]
  by_cases he : e ≤ E
  · -- the mantissa already carries the trailing zeros: nothing to shift left
    obtain ⟨k, rfl⟩ : ∃ k : Nat, e = E - k := ⟨(E - e).toNat, by omega⟩
    have hk : (E - k - E).toNat = 0 := by omega
    have hm' : m = M * 2 ^ k := by simpa [hk, show (E - (E - k)).toNat = k by omega] using hval
    rw [hk, hm']
    simpa using roundWithAccuracy_canonical hlo hhi hE s k
  · -- shift the mantissa left until its exponent is the value's
    have hk : (E - e).toNat = 0 := by omega
    have hm' : m * 2 ^ (e - E).toNat = M := by simpa [hk] using hval
    rw [hm', show e - ((e - E).toNat : Int) = E by omega]
    simpa using roundWithAccuracy_canonical hlo hhi hE s 0

end Canonical

end Float.Model.UnpackedFloat

/-- Packing what unpacking read gives the float back: its bits are valid, so a NaN among
them is the canonical one that packing writes. -/
theorem Float.Model.pack_unpack (a : Float.Model) : pack a.unpack = a := by
  obtain ⟨bits, hv⟩ := a
  simp only [Float.Model.pack, Float.Model.unpack, pack_unpack_of_valid hv]

namespace Histograms.Binary64

/-- The sign of the core model for a sign bit. -/
def sign (negative : Bool) : Sign := if negative then .negative else .positive

/-- The core model's unpacked form of an exact reading: a zero mantissa is a signed zero. -/
def toUnpacked : Binary64 → UnpackedFloat
  | .nan => .notANumber
  | .infinite negative => .infinity (sign negative)
  | .finite negative mant exp =>
    if h : mant = 0 then .zero (sign negative)
    else .finite (sign negative) mant exp (Nat.pos_of_ne_zero h)

theorem sign_decide (p : Prop) [Decidable p] :
    sign (decide p) = if p then .negative else .positive := by
  by_cases h : p <;> simp [sign, h]

/-- **The exact reading agrees with the model.** Reading a float's bits as sign, mantissa
and exponent gives what the core model's unpacking gives. -/
theorem toUnpacked_ofFloat (x : Float) : (ofFloat x).toUnpacked = x.toModel.unpack := by
  have hN : x.toBits.toNat = x.toModel.toBits.toBitVec.toNat := rfl
  unfold ofFloat Float.Model.unpack UnpackedFloat.unpack
  rw [hN]
  generalize x.toModel.toBits.toBitVec = b
  dsimp only
  rw [ofBitVec_unpackSign, ← sign_decide]
  have hE := toNat_unpackExponent b
  have hM := toNat_unpackMantissa b
  by_cases hmax : @unpackExponent Format.binary64 b = -BitVec.ofNat Format.binary64.exponentBits 1
  · rw [if_pos hmax, if_pos ((unpackExponent_eq_allOnes_iff b).mp hmax)]
    by_cases hman : @unpackMantissa Format.binary64 b = BitVec.ofNat Format.binary64.mantissaBitsWithoutImplicit 0
    · rw [if_pos hman, if_pos ((unpackMantissa_eq_zero_iff b).mp hman)]
      rfl
    · rw [if_neg hman, if_neg (mt (unpackMantissa_eq_zero_iff b).mpr hman)]
      rfl
  rw [if_neg hmax, if_neg (mt (unpackExponent_eq_allOnes_iff b).mpr hmax)]
  by_cases hzero : @unpackExponent Format.binary64 b = BitVec.ofNat Format.binary64.exponentBits 0
  · have hfield := (unpackExponent_eq_zero_iff b).mp hzero
    rw [if_pos hzero, if_pos hfield]
    by_cases hman : @unpackMantissa Format.binary64 b = BitVec.ofNat Format.binary64.mantissaBitsWithoutImplicit 0
    · have hfrac : b.toNat % 2 ^ 52 = 0 := (unpackMantissa_eq_zero_iff b).mp hman
      rw [dif_pos hman]
      simp only [toUnpacked, hfrac, dite_true]
    · have hfrac := mt (unpackMantissa_eq_zero_iff b).mpr hman
      have hfield' : b.toNat / 2 ^ 52 % 2 ^ 11 = 0 := hfield
      rw [dif_neg hman]
      simp only [toUnpacked, dif_neg hfrac, hM, hE, hfield', binary64_exponentBias]
      rfl
  · rw [if_neg hzero, if_neg (mt (unpackExponent_eq_zero_iff b).mpr hzero)]
    simp only [toUnpacked, toNat_one_append, hM, hE, binary64_exponentBias]
    simp

/-- A finite reading is a subnormal (exponent `minExp`, no leading bit) or a normal value
(53 bits with the leading one, and an exponent in `[-1074, 971]`). -/
theorem ofFloat_finite_cases {x : Float} {negative : Bool} {mant : Nat} {exp : Int}
    (h : ofFloat x = .finite negative mant exp) :
    exp = minExp ∧ mant < 2 ^ 52 ∨ 2 ^ 52 ≤ mant ∧ mant < 2 ^ 53 ∧ -1074 ≤ exp ∧ exp ≤ 971 := by
  unfold ofFloat at h
  dsimp only at h
  split at h
  · split at h <;> cases h
  · split at h
    · cases h
      exact .inl ⟨rfl, Nat.mod_lt _ (by decide)⟩
    · next hmax hzero =>
      cases h
      have : x.toBits.toNat / 2 ^ 52 % 2048 < 2048 := Nat.mod_lt _ (by decide)
      have : x.toBits.toNat % 2 ^ 52 < 2 ^ 52 := Nat.mod_lt _ (by decide)
      right
      omega

/-- A whole float worth `n > 0` unpacks to a positive normal value `M * 2 ^ E` worth `n`. -/
theorem unpack_of_toNat? {x : Float} {n : Nat} (hx : x.toNat? = some n) (hn : 0 < n) :
    ∃ M E hM, x.toModel.unpack = .finite .positive M E hM ∧
      2 ^ 52 ≤ M ∧ M < 2 ^ 53 ∧ -1074 ≤ E ∧ M * 2 ^ E.toNat = n * 2 ^ (-E).toNat := by
  obtain ⟨negative, mant, exp, hread, hsign, hval⟩ := Float.toNat?_eq_some_iff.mp hx
  have hmant : mant ≠ 0 := by
    rintro rfl
    have : 0 < n * 2 ^ (-exp).toNat := Nat.mul_pos hn (Nat.two_pow_pos _)
    omega
  have hneg : negative = false := hsign.resolve_right hmant
  subst hneg
  rcases ofFloat_finite_cases hread with ⟨rfl, hsmall⟩ | ⟨hlo, hhi, hlo', -⟩
  · -- a subnormal is below one, so it is not a whole number above zero
    have hbig : 2 ^ 52 ≤ n * 2 ^ (-minExp).toNat :=
      Nat.le_trans (Nat.pow_le_pow_right (by decide) (by decide)) (Nat.le_mul_of_pos_left _ hn)
    rw [show minExp.toNat = 0 from rfl, Nat.pow_zero, Nat.mul_one] at hval
    omega
  · refine ⟨mant, exp, Nat.pos_of_ne_zero hmant, ?_, hlo, hhi, hlo', hval⟩
    rw [← toUnpacked_ofFloat, hread]
    simp [toUnpacked, hmant, sign]

/-- A whole float worth `0` is a zero of either sign. -/
theorem unpack_of_toNat?_zero {x : Float} (hx : x.toNat? = some 0) :
    ∃ s, x.toModel.unpack = .zero s := by
  obtain ⟨negative, mant, exp, hread, -, hval⟩ := Float.toNat?_eq_some_iff.mp hx
  have hmant : mant = 0 := by
    have h : mant * 2 ^ exp.toNat = 0 := by simpa using hval
    exact (Nat.mul_eq_zero.mp h).resolve_right (Nat.pos_iff_ne_zero.mp (Nat.two_pow_pos _))
  refine ⟨sign negative, ?_⟩
  rw [← toUnpacked_ofFloat, hread]
  simp [toUnpacked, hmant]

end Histograms.Binary64

/-! ### Floats of whole numbers -/

open Histograms.Binary64

/-- A float equals itself exactly when it is not NaN. -/
theorem Float.beq_self_eq_not_isNaN (x : Float) : (x == x) = !x.isNaN := by
  by_cases h : x = Float.nan
  · simp [h]
  · simp [h, Float.beq_self_iff]

theorem Float.unpack_ofNat_zero : (Float.ofNat 0).toModel.unpack = .zero .positive := rfl

/-- The float `1`, the first entry of the table of powers of ten that `Float.ofNat` multiplies by. -/
theorem Float.unpack_one :
    (Float.ofBits 0x3FF0000000000000).toModel.unpack =
      .finite .positive (2 ^ 52) (-52) (by decide) := rfl

/-- `n * 2 ^ j` is the value `M * 2 ^ E` written with exponent `-j`, for any `j` that
reaches below `E`. -/
theorem Nat.mul_two_pow_of_value {n M j : Nat} {E : Int}
    (hval : M * 2 ^ E.toNat = n * 2 ^ (-E).toNat) (hj : -(j : Int) ≤ E) :
    n * 2 ^ j = M * 2 ^ (E + j).toNat := by
  by_cases hE : 0 ≤ E
  · have hn : n = M * 2 ^ E.toNat := by simpa [show (-E).toNat = 0 by omega] using hval.symm
    rw [hn, Nat.mul_assoc, ← Nat.pow_add, show E.toNat + j = (E + j).toNat by omega]
  · have hM : M = n * 2 ^ (-E).toNat := by simpa [show E.toNat = 0 by omega] using hval
    rw [hM, Nat.mul_assoc, ← Nat.pow_add, show (-E).toNat + (E + j).toNat = j by omega]

/-- The unpacked form of a float packs back to it. -/
theorem Float.pack_eq_of_unpack {x : Float} {u : UnpackedFloat} (hunpack : x.toModel.unpack = u) :
    pack u = x.toModel := by
  rw [← hunpack, Float.Model.pack_unpack]

section Whole

/- A positive normal float `x`, unpacked to its canonical significand `M` and exponent `E`:
the three ways `Float.ofNat` computes give `x` back from its value. -/
variable {x : Float} {M : Nat} {E : Int} (hlo : 2 ^ 52 ≤ M) (hhi : M < 2 ^ 53) (hE : -1074 ≤ E)
  (hunpack : x.toModel.unpack = .finite .positive M E (Nat.lt_of_lt_of_le (Nat.two_pow_pos 52) hlo))
include hlo hhi hE hunpack

/-- The fast path's conversion of a machine integer worth `x`. -/
theorem Float.toFloat_toUInt64_canonical {n : Nat} (hval : M * 2 ^ E.toNat = n * 2 ^ (-E).toNat)
    (hsmall : n < 2 ^ 53) : n.toUInt64.toFloat = x := by
  have hnat : n.toUInt64.toNat = n := UInt64.toNat_ofNat_of_lt' (Nat.lt_trans hsmall (by decide))
  show Float.ofModel (pack (UnpackedFloat.ofNat Format.binary64 n.toUInt64.toNat)) = x
  have hround := round_canonical hlo hhi hE .positive (m := n) (e := 0) (by simpa using hval.symm)
  have hpos : compare (n : Int) 0 = .gt := by
    refine Int.compare_eq_gt.mpr (Int.natCast_pos.mpr (Nat.pos_of_ne_zero fun hn => ?_))
    rw [hn, Nat.zero_mul] at hval
    exact Nat.ne_of_gt (Nat.mul_pos (by omega) (Nat.two_pow_pos _)) hval
  simp only [hnat, UnpackedFloat.ofNat, UnpackedFloat.ofInt, UnpackedFloat.normalize, hpos,
    Int.toNat_natCast, hround, Float.pack_eq_of_unpack hunpack]

/-- The fast path's product with the float `1`. -/
theorem Float.mul_one_canonical : x * Float.ofBits 0x3FF0000000000000 = x := by
  show Float.ofModel (pack (UnpackedFloat.mul Format.binary64 x.toModel.unpack
    (Float.ofBits 0x3FF0000000000000).toModel.unpack)) = x
  rw [hunpack, Float.unpack_one]
  have hround := roundWithAccuracy_canonical hlo hhi hE (.positive * .positive) 52
  simp only [UnpackedFloat.mul, show E + -52 = E - ((52 : Nat) : Int) by omega, hround]
  exact congrArg Float.ofModel (Float.pack_eq_of_unpack hunpack)

/-- The slow path multiplies `n * 2 ^ 53` by `10 ^ 0` in the model and rounds. -/
theorem Float.ofModel_ofScientific_canonical {n : Nat} (hn : 0 < n)
    (hval : M * 2 ^ E.toNat = n * 2 ^ (-E).toNat) :
    Float.ofModel (Float.Model.ofScientific n 0) = x := by
  -- a significand below `2 ^ 53` worth at least one has an exponent of at least `-52`
  have hE53 : -((53 : Nat) : Int) ≤ E := by
    refine Int.not_lt.mp fun hlt => ?_
    have h1 : E.toNat = 0 := by omega
    have h2 : 2 ^ 53 ≤ 2 ^ (-E).toNat := Nat.pow_le_pow_right (by decide) (by omega)
    have h3 : 2 ^ (-E).toNat ≤ n * 2 ^ (-E).toNat := Nat.le_mul_of_pos_left _ hn
    rw [h1, Nat.pow_zero, Nat.mul_one] at hval
    omega
  have hround := roundWithAccuracy_canonical hlo hhi hE (.positive * .positive) (E + 53).toNat
  have h11 : (2 : Int) ^ Format.binary64.exponentBits = 2048 := rfl
  unfold Float.Model.ofScientific UnpackedFloat.ofScientific
  rw [dif_neg (by omega), if_neg (by omega), if_neg (by omega), if_pos (by omega)]
  have hmant : n * 2 ^ Format.binary64.mantissaBits * 10 ^ (0 : Int).toNat =
      M * 2 ^ (E + 53).toNat := by
    simpa using Nat.mul_two_pow_of_value hval hE53
  have hexp : -(Format.binary64.mantissaBits : Int) + 0 = E - ((E + 53).toNat : Int) := by
    rw [binary64_mantissaBits]
    omega
  simp only [UnpackedFloat.mul, Nat.shiftLeft_eq]
  rw [hmant, hexp, hround]
  exact congrArg Float.ofModel (Float.pack_eq_of_unpack hunpack)

end Whole

/-- **`Float.ofNat` is exact on whole floats.** The float of the value of a whole float
above zero is that float, on the fast path below `2 ^ 53` and on the model's slow path. -/
theorem Float.ofNat_eq_of_toNat? {x : Float} {n : Nat} (hx : x.toNat? = some n) (hn : 0 < n) :
    Float.ofNat n = x := by
  obtain ⟨M, E, hM, hunpack, hlo, hhi, hE, hval⟩ := unpack_of_toNat? hx hn
  show Float.ofScientific n false 0 = x
  unfold Float.ofScientific
  split
  · next hsmall =>
    -- the fast path converts `n` and multiplies it by the float `1`
    rw [if_neg Bool.false_ne_true, Float.toFloat_toUInt64_canonical hlo hhi hE hunpack hval hsmall.1]
    exact Float.mul_one_canonical hlo hhi hE hunpack
  · exact Float.ofModel_ofScientific_canonical hlo hhi hE hunpack hn hval

/-- A whole float is not NaN. -/
theorem Float.isNaN_of_toNat? {x : Float} {n : Nat} (hx : x.toNat? = some n) : x.isNaN = false := by
  obtain ⟨negative, mant, exp, hread, -⟩ := Float.toNat?_eq_some_iff.mp hx
  show x.toModel.unpack.isNaN = false
  rw [← toUnpacked_ofFloat, hread]
  simp only [toUnpacked]
  split <;> rfl

/-- Every whole float worth `n` equals `Float.ofNat n`; for `n = 0` that takes in `-0.0`. -/
theorem Float.ofNat_beq_of_toNat? {x : Float} {n : Nat} (hx : x.toNat? = some n) :
    (Float.ofNat n == x) = true := by
  rcases Nat.eq_zero_or_pos n with rfl | hn
  · obtain ⟨s, hs⟩ := unpack_of_toNat?_zero hx
    show (Float.ofNat 0).toModel.unpack.beq x.toModel.unpack = true
    rw [Float.unpack_ofNat_zero, hs]
    cases s <;> rfl
  · rw [Float.ofNat_eq_of_toNat? hx hn, Float.beq_self_eq_not_isNaN, Float.isNaN_of_toNat? hx]
    rfl

/-- Adding a float that is not a zero to a zero of either sign gives it back. -/
theorem Float.add_of_unpack_zero {x y : Float} {s : Sign} (hx : x.toModel.unpack = .zero s)
    (hy : ∀ s, y.toModel.unpack ≠ .zero s) : x + y = y := by
  show Float.ofModel (pack (UnpackedFloat.add Format.binary64 x.toModel.unpack
    y.toModel.unpack)) = y
  have hadd : UnpackedFloat.add Format.binary64 (.zero s) y.toModel.unpack = y.toModel.unpack := by
    cases h : y.toModel.unpack with
    | zero s' => exact absurd h (hy s')
    | _ => rfl
  rw [hx, hadd, Float.Model.pack_unpack]

/-- A float equal to `0.0` is a zero of one sign or the other. -/
theorem Float.unpack_of_beq_zero {x : Float} (hx : (x == 0.0) = true) :
    ∃ s, x.toModel.unpack = .zero s := by
  have hzero : (0.0 : Float).toModel.unpack = .zero .positive := rfl
  change x.toModel.unpack.beq (0.0 : Float).toModel.unpack = true at hx
  rw [hzero] at hx
  cases h : x.toModel.unpack with
  | zero s => exact ⟨s, rfl⟩
  | infinity s => rw [h] at hx; cases s <;> cases hx
  | notANumber => rw [h] at hx; cases hx
  | finite s m e hm => rw [h] at hx; cases s <;> cases hx

/-- **Adding to a zero loses nothing.** A zero of either sign plus `y` equals `y`, unless `y`
is NaN; a zero plus a zero is a zero, which equals either zero. -/
theorem Float.add_beq_of_beq_zero {x : Float} (hx : (x == 0.0) = true) (y : Float) :
    (x + y == y) = !y.isNaN := by
  obtain ⟨s, hs⟩ := Float.unpack_of_beq_zero hx
  by_cases hz : ∃ s', y.toModel.unpack = .zero s'
  · obtain ⟨s', hs'⟩ := hz
    show (pack (UnpackedFloat.add Format.binary64 x.toModel.unpack
      y.toModel.unpack)).unpack.beq y.toModel.unpack = !y.toModel.unpack.isNaN
    rw [hs, hs']
    cases s <;> cases s' <;> rfl
  · rw [Float.add_of_unpack_zero hs fun s h => hz ⟨s, h⟩, Float.beq_self_eq_not_isNaN]

/-- Adding to `+0.0`, the zero a fresh cell holds. -/
theorem Float.zero_add_beq (y : Float) : (Float.ofNat 0 + y == y) = !y.isNaN :=
  Float.add_beq_of_beq_zero (by decide) y

/-- A whole amount added to `+0.0` gives the whole float it came from. -/
theorem Float.zero_add_ofNat_beq {x : Float} {n : Nat} (hx : x.toNat? = some n) :
    (Float.ofNat 0 + Float.ofNat n == x) = true := by
  rcases Nat.eq_zero_or_pos n with rfl | hn
  · rw [show Float.ofNat 0 + Float.ofNat 0 = Float.ofNat 0 from rfl]
    exact Float.ofNat_beq_of_toNat? hx
  · rw [Float.ofNat_eq_of_toNat? hx hn, Float.zero_add_beq, Float.isNaN_of_toNat? hx]
    rfl

namespace Histograms.Count

/-- Two counts that denote the same whole number are equal. -/
theorem beq_of_toNat? {a b : Count} {n : Nat} (ha : a.toNat? = some n) (hb : b.toNat? = some n) :
    (a == b) = true := by
  cases a with
  | real x =>
    cases b with
    | real y =>
      -- two floats: both equal the float of `n`
      show (x == y) = true
      exact BEq.trans (BEq.symm (Float.ofNat_beq_of_toNat? ha)) (Float.ofNat_beq_of_toNat? hb)
    | _ => simp_all [BEq.beq, Count.beq, toNat?]
  | _ => cases b <;> simp_all [BEq.beq, Count.beq, toNat?]

end Histograms.Count
