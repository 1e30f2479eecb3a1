import Histograms.Proofs.Packing
import Histograms.Proofs.ValueEquality
/-!
# Rounding to binary64

Binary64 arithmetic computes the exact result of an operation and rounds it to the nearest value
with 53 significant bits, a tie going to the even mantissa. Below `2 ^ -1022` the bits run out
from the bottom and every value is a multiple of `2 ^ minExp` (gradual underflow); a value that
rounds to `2 ^ 1024` or more is an infinity.

This module states that rounding on the reals: `roundHalfEven` rounds to an integer,
`quantumExp u` is the exponent of the last bit kept near `u`, `roundMag` rounds a magnitude and
`roundE` a signed value, overflow included. The property that carries the rest is that rounding
is monotone. Within one binade it is integer rounding of the scaled values; across binades, a
value rounds at most up to the power of two where the next binade starts, and every value of
that binade rounds at least to it.

Main statements:

* `Binary64.roundHalfEven_mono`, `Binary64.roundMag_mono`, `Binary64.roundE_mono` — rounding
  never reverses the order of two values.
* `Binary64.roundE_finiteValue` — a value that a float holds rounds to itself.
-/

namespace Histograms.Binary64

/-- `2` is at least two. As a named instance it is what the numeral `2` of the reals refers to
below, so the definitions of this theory hold no proof terms of their own. -/
theorem atLeastTwo_two : Nat.AtLeastTwo 2 := ⟨le_rfl⟩

attribute [instance] atLeastTwo_two

/-! ### Rounding to an integer -/

/-- The integer nearest to `q`; at a midpoint, the even one of its two neighbours. -/
noncomputable def roundHalfEven (q : ℝ) : ℤ :=
  if q - ⌊q⌋ < 1 / 2 then ⌊q⌋
  else if 1 / 2 < q - ⌊q⌋ then ⌊q⌋ + 1
  else ⌊q⌋ + ⌊q⌋ % 2

section HalfEven

variable {q q' : ℝ}

theorem roundHalfEven_of_frac_lt (h : q - ⌊q⌋ < 1 / 2) : roundHalfEven q = ⌊q⌋ := by
  rw [roundHalfEven, if_pos h]

theorem roundHalfEven_of_half_lt (h : 1 / 2 < q - ⌊q⌋) : roundHalfEven q = ⌊q⌋ + 1 := by
  rw [roundHalfEven, if_neg (not_lt.mpr h.le), if_pos h]

theorem roundHalfEven_of_frac_eq (h : q - ⌊q⌋ = 1 / 2) : roundHalfEven q = ⌊q⌋ + ⌊q⌋ % 2 := by
  rw [roundHalfEven, h, if_neg (lt_irrefl _), if_neg (lt_irrefl _)]

/-- The rounding is the floor or the next integer. -/
theorem roundHalfEven_mem (q : ℝ) : ⌊q⌋ ≤ roundHalfEven q ∧ roundHalfEven q ≤ ⌊q⌋ + 1 := by
  unfold roundHalfEven
  split_ifs <;> omega

@[simp] theorem roundHalfEven_intCast (k : ℤ) : roundHalfEven k = k := by
  simp [roundHalfEven]

@[simp] theorem roundHalfEven_natCast (k : ℕ) : roundHalfEven k = k := by
  exact_mod_cast roundHalfEven_intCast k

@[simp] theorem roundHalfEven_zero : roundHalfEven 0 = 0 := by
  exact_mod_cast roundHalfEven_intCast 0

/-- **Rounding to an integer is monotone.** Below a larger floor every value rounds at most to
that floor; two values with one floor round by where they lie against the midpoint. -/
theorem roundHalfEven_mono (h : q ≤ q') : roundHalfEven q ≤ roundHalfEven q' := by
  have hq := roundHalfEven_mem q
  have hq' := roundHalfEven_mem q'
  rcases (Int.floor_mono h).lt_or_eq with hlt | heq
  · omega
  -- one floor: the fractional parts are ordered as the values are
  have hfrac : q - ⌊q⌋ ≤ q' - ⌊q'⌋ := by rw [heq]; linarith
  rcases lt_trichotomy (q' - ⌊q'⌋) (1 / 2) with hlt' | heq' | hgt'
  · rw [roundHalfEven_of_frac_lt (hfrac.trans_lt hlt'), roundHalfEven_of_frac_lt hlt', heq]
  · rcases hfrac.lt_or_eq with hlt | hfeq
    · rw [roundHalfEven_of_frac_lt (hlt.trans_eq heq'), roundHalfEven_of_frac_eq heq', heq]
      omega
    · rw [roundHalfEven_of_frac_eq (hfeq.trans heq'), roundHalfEven_of_frac_eq heq', heq]
  · rw [roundHalfEven_of_half_lt hgt', ← heq]
    exact hq.2

theorem roundHalfEven_le_of_le {k : ℤ} (h : q ≤ k) : roundHalfEven q ≤ k := by
  simpa using roundHalfEven_mono h

theorem le_roundHalfEven_of_le {k : ℤ} (h : (k : ℝ) ≤ q) : k ≤ roundHalfEven q := by
  simpa using roundHalfEven_mono h

end HalfEven

/-! ### The bits a value keeps -/

/-- The exponent of the last bit kept when a value near `u > 0` is rounded: 53 significant bits
from the leading one, and no bit below `2 ^ minExp`. -/
noncomputable def quantumExp (u : ℝ) : ℤ := max (Int.log 2 u - 52) minExp

section Quantum

variable {u w : ℝ}

theorem minExp_le_quantumExp (u : ℝ) : minExp ≤ quantumExp u := le_max_right _ _

/-- A value lies below the binade after the one its quantum belongs to. -/
theorem lt_two_zpow_quantumExp (u : ℝ) : u < 2 ^ (quantumExp u + 53) := by
  have hlog : u < (2 : ℝ) ^ (Int.log 2 u + 1) := by
    exact_mod_cast Int.lt_zpow_succ_log_self (by norm_num : 1 < 2) u
  refine hlog.trans_le (zpow_le_zpow_right₀ (by norm_num) ?_)
  have := le_max_left (Int.log 2 u - 52) minExp
  unfold quantumExp
  omega

/-- Above the least exponent, the quantum is 52 bits below the leading one. -/
theorem two_zpow_quantumExp_le (hu : 0 < u) (h : minExp < quantumExp u) :
    2 ^ (quantumExp u + 52) ≤ u := by
  have hq : quantumExp u = Int.log 2 u - 52 := by
    unfold quantumExp at h ⊢
    omega
  rw [hq, sub_add_cancel]
  exact_mod_cast Int.zpow_log_le_self (by norm_num : 1 < 2) hu

theorem quantumExp_mono (hu : 0 < u) (h : u ≤ w) : quantumExp u ≤ quantumExp w :=
  max_le_max (by have := Int.log_mono_right (b := 2) hu h; omega) le_rfl

/-- The quantum of a value between `m * 2 ^ e` and `(m + 1) * 2 ^ e`, read off the leading bit
of `m`. -/
theorem quantumExp_of_mem {m : ℕ} {q : ℝ} (hm : 0 < m) (hlo : (m : ℝ) ≤ q) (hhi : q < m + 1)
    (e : ℤ) : quantumExp (q * 2 ^ e) = max ((m.log2 : ℤ) + e - 52) minExp := by
  have hq : 0 < q * 2 ^ e := mul_pos ((Nat.cast_pos.mpr hm).trans_le hlo) (by positivity)
  -- the leading bit of `q * 2 ^ e` is that of `m`, moved by `e`
  have hbelow : (2 : ℝ) ^ ((m.log2 : ℤ) + e) ≤ q * 2 ^ e := by
    have h2 : ((2 ^ m.log2 : ℕ) : ℝ) ≤ m := by exact_mod_cast Nat.log2_self_le hm.ne'
    rw [zpow_add₀ two_ne_zero, zpow_natCast]
    push_cast at h2
    exact mul_le_mul_of_nonneg_right (h2.trans hlo) (by positivity)
  have habove : q * 2 ^ e < (2 : ℝ) ^ ((m.log2 : ℤ) + e + 1) := by
    have h2 : ((m + 1 : ℕ) : ℝ) ≤ ((2 ^ (m.log2 + 1) : ℕ) : ℝ) := by
      exact_mod_cast Nat.lt_log2_self
    rw [show (m.log2 : ℤ) + e + 1 = ((m.log2 + 1 : ℕ) : ℤ) + e by push_cast; ring,
      zpow_add₀ two_ne_zero, zpow_natCast]
    push_cast at h2
    exact mul_lt_mul_of_pos_right (hhi.trans_le h2) (by positivity)
  have hlog : Int.log 2 (q * 2 ^ e) = (m.log2 : ℤ) + e := by
    apply le_antisymm
    · have := (Int.lt_zpow_iff_log_lt (by norm_num : 1 < 2) hq).mp (by exact_mod_cast habove)
      omega
    · exact (Int.zpow_le_iff_le_log (by norm_num : 1 < 2) hq).mp (by exact_mod_cast hbelow)
  rw [quantumExp, hlog]

end Quantum

/-! ### Rounding a magnitude -/

/-- A magnitude `u ≥ 0` rounded to binary64 precision: the nearest multiple of
`2 ^ quantumExp u`, a tie going to the even multiple. Overflow is left to `roundMagE`. -/
noncomputable def roundMag (u : ℝ) : ℝ :=
  roundHalfEven (u / 2 ^ quantumExp u) * 2 ^ quantumExp u

section Magnitude

variable {u w : ℝ}

@[simp] theorem roundMag_zero : roundMag 0 = 0 := by
  simp [roundMag]

theorem roundMag_nonneg (hu : 0 ≤ u) : 0 ≤ roundMag u := by
  have hq : (0 : ℤ) ≤ roundHalfEven (u / 2 ^ quantumExp u) :=
    le_roundHalfEven_of_le (by simp only [Int.cast_zero]; positivity)
  unfold roundMag
  have : (0 : ℝ) ≤ roundHalfEven (u / 2 ^ quantumExp u) := by exact_mod_cast hq
  positivity

/-- A magnitude rounds at most up to the power of two that starts the next binade. -/
theorem roundMag_le_two_zpow (u : ℝ) : roundMag u ≤ 2 ^ (quantumExp u + 53) := by
  have hpos : (0 : ℝ) < 2 ^ quantumExp u := by positivity
  have hscaled : u / 2 ^ quantumExp u ≤ ((2 ^ 53 : ℤ) : ℝ) := by
    rw [div_le_iff₀ hpos]
    have := lt_two_zpow_quantumExp u
    rw [zpow_add₀ two_ne_zero] at this
    push_cast
    linarith
  have hint := roundHalfEven_le_of_le hscaled
  have hreal : (roundHalfEven (u / 2 ^ quantumExp u) : ℝ) ≤ 2 ^ 53 := by exact_mod_cast hint
  rw [roundMag, zpow_add₀ two_ne_zero, mul_comm ((2 : ℝ) ^ quantumExp u)]
  exact mul_le_mul_of_nonneg_right (by exact_mod_cast hreal) hpos.le

/-- Above the least exponent a magnitude rounds at least to the power of two that starts its
binade. -/
theorem two_zpow_le_roundMag (hu : 0 < u) (h : minExp < quantumExp u) :
    2 ^ (quantumExp u + 52) ≤ roundMag u := by
  have hpos : (0 : ℝ) < 2 ^ quantumExp u := by positivity
  have hscaled : ((2 ^ 52 : ℤ) : ℝ) ≤ u / 2 ^ quantumExp u := by
    rw [le_div_iff₀ hpos]
    have := two_zpow_quantumExp_le hu h
    rw [zpow_add₀ two_ne_zero] at this
    push_cast
    linarith
  have hint := le_roundHalfEven_of_le hscaled
  have hreal : (2 : ℝ) ^ 52 ≤ roundHalfEven (u / 2 ^ quantumExp u) := by exact_mod_cast hint
  rw [roundMag, zpow_add₀ two_ne_zero, mul_comm ((2 : ℝ) ^ quantumExp u)]
  exact mul_le_mul_of_nonneg_right (by exact_mod_cast hreal) hpos.le

/-- **Rounding a magnitude is monotone.** With one quantum it is integer rounding of the scaled
values; a smaller quantum means a lower binade, which rounds at most to where the higher one
starts. -/
theorem roundMag_mono (hu : 0 ≤ u) (h : u ≤ w) : roundMag u ≤ roundMag w := by
  rcases hu.lt_or_eq with hu | rfl
  · rcases (quantumExp_mono hu h).lt_or_eq with hlt | heq
    · have hw : 0 < w := hu.trans_le h
      have hmin : minExp < quantumExp w := (minExp_le_quantumExp u).trans_lt hlt
      calc roundMag u ≤ 2 ^ (quantumExp u + 53) := roundMag_le_two_zpow u
        _ ≤ 2 ^ (quantumExp w + 52) := zpow_le_zpow_right₀ (by norm_num) (by omega)
        _ ≤ roundMag w := two_zpow_le_roundMag hw hmin
    · have hscaled : u / 2 ^ quantumExp u ≤ w / 2 ^ quantumExp u :=
        div_le_div_of_nonneg_right h (by positivity)
      have hint : (roundHalfEven (u / 2 ^ quantumExp u) : ℝ) ≤
          roundHalfEven (w / 2 ^ quantumExp u) := by
        exact_mod_cast roundHalfEven_mono hscaled
      rw [roundMag, roundMag, ← heq]
      exact mul_le_mul_of_nonneg_right hint (by positivity)
  · rw [roundMag_zero]
    exact roundMag_nonneg h

/-- A value on the grid of its own quantum is kept as it is. -/
theorem roundMag_of_quantumExp_le {m : ℕ} {e : ℤ} (he : quantumExp (m * 2 ^ e) ≤ e) :
    roundMag (m * 2 ^ e) = m * 2 ^ e := by
  set t := quantumExp ((m : ℝ) * 2 ^ e)
  -- the scaled value is the natural number `m * 2 ^ (e - t)`
  have hscaled : (m : ℝ) * 2 ^ e / 2 ^ t = ((m * 2 ^ (e - t).toNat : ℕ) : ℝ) := by
    rw [mul_div_assoc, ← zpow_sub₀ two_ne_zero, ← Int.toNat_of_nonneg (sub_nonneg.mpr he)]
    push_cast
    rfl
  rw [roundMag, hscaled, roundHalfEven_natCast, Int.cast_natCast, ← hscaled]
  exact div_mul_cancel₀ _ (zpow_ne_zero _ two_ne_zero)

/-- A value with at most 53 bits above an exponent from `minExp` on is kept as it is. -/
theorem roundMag_of_lt {M : ℕ} {E : ℤ} (hM : M < 2 ^ 53) (hE : minExp ≤ E) :
    roundMag (M * 2 ^ E) = M * 2 ^ E := by
  rcases Nat.eq_zero_or_pos M with rfl | hpos
  · simp
  apply roundMag_of_quantumExp_le
  have hlog : M.log2 < 53 := (Nat.log2_lt hpos.ne').mpr hM
  rw [quantumExp_of_mem hpos le_rfl (lt_add_one _)]
  exact max_le (by omega) hE

end Magnitude

/-! ### Signed values and overflow -/

/-- A rounded magnitude as an extended real: `⊤` once it reaches `2 ^ 1024`, where binary64
overflows. -/
noncomputable def roundMagE (u : ℝ) : EReal :=
  if 2 ^ 1024 ≤ roundMag u then ⊤ else (roundMag u : EReal)

/-- **Binary64 rounding of a real.** The magnitude is rounded to 53 significant bits, ties to
even, and overflows to an infinity from `2 ^ 1024` on; the sign is kept. -/
noncomputable def roundE (v : ℝ) : EReal :=
  if v < 0 then -roundMagE (-v) else roundMagE v

section Signed

variable {u w v : ℝ}

theorem roundMagE_nonneg (hu : 0 ≤ u) : 0 ≤ roundMagE u := by
  unfold roundMagE
  split_ifs
  · exact le_top
  · exact_mod_cast roundMag_nonneg hu

theorem roundMagE_mono (hu : 0 ≤ u) (h : u ≤ w) : roundMagE u ≤ roundMagE w := by
  have hmono := roundMag_mono hu h
  unfold roundMagE
  split_ifs with hu' hw'
  · exact le_rfl
  · exact absurd (hu'.trans hmono) hw'
  · exact le_top
  · exact_mod_cast hmono

@[simp] theorem roundE_zero : roundE 0 = 0 := by
  simp [roundE, roundMagE]

theorem roundE_of_nonneg (hv : 0 ≤ v) : roundE v = roundMagE v := by
  simp [roundE, not_lt.mpr hv]

theorem roundE_of_neg (hv : v < 0) : roundE v = -roundMagE (-v) := by
  simp [roundE, hv]

theorem roundE_nonneg (hv : 0 ≤ v) : 0 ≤ roundE v := by
  rw [roundE_of_nonneg hv]
  exact roundMagE_nonneg hv

theorem roundE_nonpos (hv : v ≤ 0) : roundE v ≤ 0 := by
  rcases hv.lt_or_eq with hv | rfl
  · rw [roundE_of_neg hv, EReal.neg_le, neg_zero]
    exact roundMagE_nonneg (by linarith)
  · simp

/-- Rounding is odd: a value and its negation round to opposite values. -/
theorem roundE_neg (v : ℝ) : roundE (-v) = -roundE v := by
  rcases lt_trichotomy v 0 with hv | rfl | hv
  · rw [roundE_of_nonneg (by linarith), roundE_of_neg hv, neg_neg]
  · simp
  · rw [roundE_of_neg (by linarith), roundE_of_nonneg hv.le, neg_neg]

/-- **Binary64 rounding is monotone.** Two values of one sign round as their magnitudes do; a
negative value rounds to at most `0`, a value not below zero to at least `0`. -/
theorem roundE_mono (h : v ≤ w) : roundE v ≤ roundE w := by
  rcases lt_or_ge v 0 with hv | hv
  · rcases lt_or_ge w 0 with hw | hw
    · rw [roundE_of_neg hv, roundE_of_neg hw, EReal.neg_le_neg_iff]
      exact roundMagE_mono (by linarith) (by linarith)
    · exact (roundE_nonpos hv.le).trans (roundE_nonneg hw)
  · rw [roundE_of_nonneg hv, roundE_of_nonneg (hv.trans h)]
    exact roundMagE_mono hv h

/-- The magnitude of a float's value rounds to itself. -/
theorem roundMagE_of_valid {negative : Bool} {mant : ℕ} {exp : ℤ}
    (hvalid : Valid (.finite negative mant exp)) :
    roundMagE (mant * 2 ^ exp) = ((mant * 2 ^ exp : ℝ) : EReal) := by
  have hbounds : mant < 2 ^ 53 ∧ minExp ≤ exp ∧ exp ≤ 971 := by
    unfold Valid at hvalid
    simp only [minExp] at hvalid ⊢
    omega
  -- below `2 ^ 53 * 2 ^ 971 = 2 ^ 1024`, so no overflow
  have hsmall : (mant : ℝ) * 2 ^ exp < 2 ^ 1024 := by
    have hmant : (mant : ℝ) < 2 ^ 53 := by exact_mod_cast hbounds.1
    have hexp : (2 : ℝ) ^ exp ≤ 2 ^ ((971 : ℕ) : ℤ) :=
      zpow_le_zpow_right₀ (by norm_num) (by exact_mod_cast hbounds.2.2)
    calc (mant : ℝ) * 2 ^ exp < 2 ^ 53 * 2 ^ ((971 : ℕ) : ℤ) :=
          mul_lt_mul hmant hexp (by positivity) (by positivity)
      _ = 2 ^ 1024 := by rw [zpow_natCast, ← pow_add]
  rw [roundMagE, roundMag_of_lt hbounds.1 hbounds.2.1, if_neg (not_le.mpr hsmall)]

/-- **A value that a float holds rounds to itself.** Its mantissa has at most 53 bits above its
quantum and it lies below `2 ^ 1024`. -/
theorem roundE_finiteValue {negative : Bool} {mant : ℕ} {exp : ℤ}
    (hvalid : Valid (.finite negative mant exp)) :
    roundE (finiteValue negative mant exp) = (finiteValue negative mant exp : EReal) := by
  have hmag := roundMagE_of_valid hvalid
  have hnonneg : (0 : ℝ) ≤ mant * 2 ^ exp := by positivity
  cases negative
  · simp only [finiteValue, Bool.false_eq_true, if_false]
    rw [roundE_of_nonneg hnonneg, hmag]
  · simp only [finiteValue, if_true, neg_mul]
    rw [roundE_neg, roundE_of_nonneg hnonneg, hmag, EReal.coe_neg]

end Signed

end Histograms.Binary64
