import Histograms.Proofs.ExactFloats
/-!
# Packing a float and reading it back

The core float model computes every operation on an unpacked float and packs the result
into 64 bits. The exact reading `Binary64.ofFloat` reads those bits back. A reading that
some float's bits give (`Binary64.Valid`: NaN, an infinity, a subnormal or zero at the least
exponent, or a normal value with 53 significant bits) is read back unchanged from the bits
that packing it writes; a normal value whose exponent is past the format's range is read as
an infinity. So the reading of the result of a float operation is the reading of what the
model computed before packing.

Main statements:

* `Binary64.ofFloat_ofModel_pack` — a valid reading packs and reads back unchanged.
* `Binary64.ofFloat_ofModel_pack_overflow` — a normal value past the range reads as an infinity.
* `Binary64.ofFloat_neg` — negation flips the sign of the reading.
* `Float.toNat?_ofNat` — `Float.ofNat k` is the whole float worth `k`, for `k < 2 ^ 53`.
-/

open Float.Model UnpackedFloat

namespace Histograms.Binary64

/-- A reading that the bits of a float give: NaN, an infinity, a zero or subnormal at the
least exponent, or a normal value with its leading bit set and an exponent in range. -/
def Valid : Binary64 → Prop
  | .finite _ mant exp =>
    exp = minExp ∧ mant < 2 ^ 52 ∨ 2 ^ 52 ≤ mant ∧ mant < 2 ^ 53 ∧ -1074 ≤ exp ∧ exp ≤ 971
  | _ => True

theorem valid_ofFloat (x : Float) : (ofFloat x).Valid := by
  cases h : ofFloat x with
  | finite n m e => exact ofFloat_finite_cases h
  | _ => trivial

/-- Flips the sign of a reading; NaN has none. -/
def neg : Binary64 → Binary64
  | .nan => .nan
  | .infinite negative => .infinite !negative
  | .finite negative mant exp => .finite (!negative) mant exp

/-! ### The bits of a packed float -/

/-- The three bit fields of a float as one number: sign, exponent field, fraction field. -/
theorem toNat_packComponents (s : Sign) (e : BitVec 11) (m : BitVec 52) :
    (packComponents Format.binary64 s e m).toNat =
      s.toBitVec.toNat * 2 ^ 63 + e.toNat * 2 ^ 52 + m.toNat := by
  simp only [packComponents]
  rw [BitVec.toNat_append, BitVec.toNat_append, ← Nat.shiftLeft_add_eq_or_of_lt e.isLt,
    ← Nat.shiftLeft_add_eq_or_of_lt m.isLt, Nat.shiftLeft_eq, Nat.shiftLeft_eq]
  ring

theorem toNat_toBitVec_sign (negative : Bool) :
    (sign negative).toBitVec.toNat = if negative then 1 else 0 := by
  cases negative <;> rfl

/-- Reading bits given as sign, exponent field and fraction field. -/
theorem ofFloat_of_fields {x : Float} {negative : Bool} (field frac : Nat) (hf : field < 2048)
    (hm : frac < 2 ^ 52)
    (h : x.toBits.toNat = (if negative then 1 else 0) * 2 ^ 63 + field * 2 ^ 52 + frac) :
    ofFloat x =
      if field = 2047 then (if frac = 0 then .infinite negative else .nan)
      else if field = 0 then .finite negative frac minExp
      else .finite negative (frac + 2 ^ 52) ((field : Int) - 1075) := by
  have hfield : x.toBits.toNat / 2 ^ 52 % 2048 = field := by
    rw [h]
    cases negative <;> simp only [if_true, if_false, Bool.false_eq_true] <;> omega
  have hfrac : x.toBits.toNat % 2 ^ 52 = frac := by
    rw [h]
    cases negative <;> simp only [if_true, if_false, Bool.false_eq_true] <;> omega
  have hsign : decide (2 ^ 63 ≤ x.toBits.toNat) = negative := by
    rw [h]
    cases negative <;> simp only [if_true, if_false, Bool.false_eq_true, decide_eq_true_eq,
      decide_eq_false_iff_not] <;> omega
  simp only [ofFloat, hfield, hfrac, hsign]

theorem toBits_ofModel_pack (u : UnpackedFloat) :
    (Float.ofModel (pack u)).toBits.toNat = (UnpackedFloat.pack Format.binary64 u).toNat := rfl

/-! ### Valid readings pack and read back -/

section Finite

variable {negative : Bool} {mant : Nat} {exp : Int}

theorem ofFloat_ofModel_pack_zero (negative : Bool) :
    ofFloat (Float.ofModel (pack (.zero (sign negative)))) = .finite negative 0 minExp := by
  rw [ofFloat_of_fields 0 0 (by decide) (by decide)]
  · rfl
  · rw [toBits_ofModel_pack]
    simp only [UnpackedFloat.pack, packedZero, toNat_packComponents, toNat_toBitVec_sign]
    simp

theorem ofFloat_ofModel_pack_infinity (negative : Bool) :
    ofFloat (Float.ofModel (pack (.infinity (sign negative)))) = .infinite negative := by
  rw [ofFloat_of_fields 2047 0 (by decide) (by decide)]
  · rfl
  · rw [toBits_ofModel_pack]
    simp only [UnpackedFloat.pack, packedInfinity, toNat_packComponents, toNat_toBitVec_sign]
    simp

theorem ofFloat_ofModel_pack_nan : ofFloat (Float.ofModel (pack .notANumber)) = .nan := by
  decide +kernel

/-- A normal value in range packs into its biased exponent and its fraction bits. -/
theorem ofFloat_ofModel_pack_normal (hlo : 2 ^ 52 ≤ mant) (hhi : mant < 2 ^ 53)
    (he : -1074 ≤ exp) (he' : exp ≤ 971) :
    ofFloat (Float.ofModel (pack (.finite (sign negative) mant exp
      (Nat.lt_of_lt_of_le (Nat.two_pow_pos 52) hlo)))) = .finite negative mant exp := by
  have hlog : mant.log2 = 52 := (Nat.log2_eq_iff (by omega)).mpr ⟨hlo, hhi⟩
  have hbias : (exp + (Format.binary64.exponentBias : Int) +
      Format.binary64.mantissaBitsWithoutImplicit).toNat = (exp + 1075).toNat := by
    simp only [binary64_exponentBias]
    omega
  rw [ofFloat_of_fields (exp + 1075).toNat (mant - 2 ^ 52) (by omega) (by omega)]
  · rw [if_neg (by omega), if_neg (by omega)]
    congr 1
    · omega
    · omega
  · rw [toBits_ofModel_pack]
    simp only [UnpackedFloat.pack, hbias, hlog]
    rw [if_neg (show ¬ 2 ^ 11 ≤ (exp + 1075).toNat + 1 by omega),
      if_pos (show 52 + 1 = Format.binary64.mantissaBits from rfl), toNat_packComponents,
      toNat_toBitVec_sign]
    simp only [BitVec.toNat_ofNat]
    rw [Nat.mod_eq_of_lt (show (exp + 1075).toNat < 2 ^ 11 by omega)]
    omega

/-- A subnormal value packs into a zero exponent field and its fraction bits. -/
theorem ofFloat_ofModel_pack_subnormal (hpos : 0 < mant) (hhi : mant < 2 ^ 52) :
    ofFloat (Float.ofModel (pack (.finite (sign negative) mant minExp hpos))) =
      .finite negative mant minExp := by
  have hlog : mant.log2 < 52 := (Nat.log2_lt (by omega)).mpr hhi
  rw [ofFloat_of_fields 0 mant (by omega) hhi]
  · rfl
  · rw [toBits_ofModel_pack]
    simp only [UnpackedFloat.pack]
    rw [if_neg (by decide), if_neg (by simp [Format.mantissaBits]; omega), toNat_packComponents,
      toNat_toBitVec_sign]
    simp only [BitVec.toNat_ofNat]
    rw [Nat.mod_eq_of_lt hhi]

/-- A normal value past the largest exponent packs into an infinity of its sign. -/
theorem ofFloat_ofModel_pack_overflow (hlo : 2 ^ 52 ≤ mant) (he : 971 < exp) :
    ofFloat (Float.ofModel (pack (.finite (sign negative) mant exp
      (Nat.lt_of_lt_of_le (Nat.two_pow_pos 52) hlo)))) = .infinite negative := by
  have hbias : (exp + (Format.binary64.exponentBias : Int) +
      Format.binary64.mantissaBitsWithoutImplicit).toNat = (exp + 1075).toNat := by
    simp only [binary64_exponentBias]
    omega
  have hpack : pack (.finite (sign negative) mant exp (Nat.lt_of_lt_of_le (Nat.two_pow_pos 52) hlo)) =
      pack (.infinity (sign negative)) := by
    simp only [Float.Model.pack]
    congr 2
    simp only [UnpackedFloat.pack, hbias]
    rw [if_pos (by simp; omega)]
  rw [hpack]
  exact ofFloat_ofModel_pack_infinity negative

end Finite

/-- **A valid reading packs and reads back unchanged.** -/
theorem ofFloat_ofModel_pack {r : Binary64} (hr : r.Valid) :
    ofFloat (Float.ofModel (pack r.toUnpacked)) = r := by
  cases r with
  | nan => exact ofFloat_ofModel_pack_nan
  | infinite negative => exact ofFloat_ofModel_pack_infinity negative
  | finite negative mant exp =>
    simp only [toUnpacked]
    split
    · -- a zero is read at the least exponent
      next hm =>
      subst hm
      obtain ⟨rfl, -⟩ | ⟨h, -⟩ := hr
      · exact ofFloat_ofModel_pack_zero negative
      · exact absurd h (by decide)
    · next hm =>
      rcases hr with ⟨rfl, hsmall⟩ | ⟨hlo, hhi, he, he'⟩
      · exact ofFloat_ofModel_pack_subnormal _ hsmall
      · exact ofFloat_ofModel_pack_normal hlo hhi he he'

theorem toUnpacked_neg (r : Binary64) : r.neg.toUnpacked = r.toUnpacked.neg := by
  cases r with
  | nan => rfl
  | infinite n => cases n <;> rfl
  | finite n m e =>
    by_cases hm : m = 0 <;> cases n <;> simp [neg, toUnpacked, hm, UnpackedFloat.neg, sign] <;> rfl

theorem valid_neg {r : Binary64} (hr : r.Valid) : r.neg.Valid := by
  cases r with
  | finite n m e => exact hr
  | _ => trivial

/-- **Negation flips the sign.** The reading of `-x` is the reading of `x` with the other
sign, for every float, NaN and zeros included. -/
theorem ofFloat_neg (x : Float) : ofFloat (-x) = (ofFloat x).neg := by
  have hx : (-x).toModel = pack (ofFloat x).neg.toUnpacked := by
    rw [toUnpacked_neg, toUnpacked_ofFloat]
    rfl
  rw [show -x = Float.ofModel (-x).toModel from rfl, hx,
    ofFloat_ofModel_pack (valid_neg (valid_ofFloat x))]

end Histograms.Binary64

open Histograms Histograms.Binary64

/-- **Small whole numbers convert exactly.** `Float.ofNat k` is the whole float worth `k`
for every `k < 2 ^ 53`. -/
theorem Float.toNat?_ofNat {k : Nat} (hk : k < 2 ^ 53) : (Float.ofNat k).toNat? = some k := by
  rcases Nat.eq_zero_or_pos k with rfl | hpos
  · decide +kernel
  -- the float of the normal form of `k`: `k` shifted up to 53 bits
  have hlog : k.log2 ≤ 52 := Nat.le_of_lt_succ ((Nat.log2_lt (by omega)).mpr hk)
  set j := 52 - k.log2 with hj
  have hlo : 2 ^ 52 ≤ k * 2 ^ j := by
    have := Nat.log2_self_le (Nat.ne_of_gt hpos)
    calc 2 ^ 52 = 2 ^ k.log2 * 2 ^ j := by rw [← Nat.pow_add]; congr 1; omega
      _ ≤ k * 2 ^ j := Nat.mul_le_mul_right _ this
  have hhi : k * 2 ^ j < 2 ^ 53 := by
    have := Nat.lt_log2_self (n := k)
    calc k * 2 ^ j < 2 ^ (k.log2 + 1) * 2 ^ j := Nat.mul_lt_mul_of_pos_right this (Nat.two_pow_pos _)
      _ = 2 ^ 53 := by rw [← Nat.pow_add]; congr 1; omega
  have hread : ofFloat (Float.ofModel (pack (.finite (sign false) (k * 2 ^ j) (-(j : Int))
      (Nat.lt_of_lt_of_le (Nat.two_pow_pos 52) hlo)))) = .finite false (k * 2 ^ j) (-(j : Int)) :=
    ofFloat_ofModel_pack_normal hlo hhi (by omega) (by omega)
  have hx : (Float.ofModel (pack (.finite (sign false) (k * 2 ^ j) (-(j : Int))
      (Nat.lt_of_lt_of_le (Nat.two_pow_pos 52) hlo)))).toNat? = some k := by
    apply Float.toNat?_eq_some_iff.mpr
    refine ⟨false, k * 2 ^ j, -(j : Int), hread, .inl rfl, ?_⟩
    simp [show (-(j : Int)).toNat = 0 by omega]
  rw [Float.ofNat_eq_of_toNat? hx hpos]
  exact hx
