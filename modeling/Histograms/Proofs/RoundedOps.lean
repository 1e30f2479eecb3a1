import Histograms.Proofs.Rounding
/-!
# Float operations round their exact result

The float model computes a difference, product or quotient as a mantissa, an exponent and two
residual bits, the round bit and the sticky bit, which tell where the dropped part of the exact
result lies against one half. `Binary64.Describes em q` is that reading: `em` holds `⌊q⌋`, its
round bit says whether the fraction of `q` reaches one half and its sticky bit whether the
fraction is neither `0` nor one half. Shifting right keeps the reading for `q / 2`, and rounding
the mantissa by its bits is `roundHalfEven q`. So the model's `roundWithAccuracy` rounds the value
its input describes, and packing overflows to an infinity exactly where `roundE` does.

Main statements:

* `Binary64.toEReal?_roundWithAccuracy` — rounding and packing give `roundE` of the described
  value.
* `Float.toEReal?_sub`, `Float.toEReal?_mul`, `Float.toEReal?_div` — the difference, product and
  quotient of two finite floats denote the binary64 rounding of the exact result.
-/

open Float.Model UnpackedFloat

namespace Histograms.Binary64

/-! ### Residual bits -/

/-- `em` reads the real `q`: its mantissa is `⌊q⌋`, its round bit says whether the fraction
`q - ⌊q⌋` reaches one half, and its sticky bit whether the fraction is neither `0` nor one
half. -/
def Describes (em : ExtendedMantissa) (q : ℝ) : Prop :=
  (em.mantissa : ℝ) ≤ q ∧ q < em.mantissa + 1 ∧
    (em.roundBit = true ↔ 1 / 2 ≤ q - em.mantissa) ∧
    (em.stickyBit = true ↔ q - em.mantissa ≠ 0 ∧ q - em.mantissa ≠ 1 / 2)

/-- A fraction below one is not zero exactly when it reaches one half or is neither zero nor one
half: the round bit or the sticky bit is set. -/
theorem frac_ne_zero_iff {f : ℝ} :
    (1 / 2 ≤ f ∨ (f ≠ 0 ∧ f ≠ 1 / 2)) ↔ f ≠ 0 := by
  constructor
  · rintro (hf | ⟨hf, -⟩)
    · exact ne_of_gt (by linarith)
    · exact hf
  · intro hf
    by_cases hhalf : f = 1 / 2
    · exact .inl hhalf.ge
    · exact .inr ⟨hf, hhalf⟩

/-- **One shift to the right.** The bit shifted out becomes the round bit, and the sticky bit
collects everything below it. -/
theorem Describes.shiftRightOne {em : ExtendedMantissa} {q : ℝ} (h : Describes em q) :
    Describes em.shiftRightOne (q / 2) := by
  obtain ⟨hlo, hhi, hround, hsticky⟩ := h
  have hsplit : (em.mantissa : ℝ) = 2 * (em.mantissa / 2 : ℕ) + (em.mantissa % 2 : ℕ) := by
    exact_mod_cast (Nat.div_add_mod em.mantissa 2).symm
  have hdropped : (em.roundBit || em.stickyBit) = true ↔ q - em.mantissa ≠ 0 := by
    rw [Bool.or_eq_true, hround, hsticky]
    exact frac_ne_zero_iff
  simp only [Describes, ExtendedMantissa.shiftRightOne]
  rcases Nat.mod_two_eq_zero_or_one em.mantissa with hb | hb
  · -- an even mantissa: the new fraction is half the old one, below one half
    rw [hb, Nat.cast_zero, add_zero] at hsplit
    have hfrac : q / 2 - (em.mantissa / 2 : ℕ) = (q - em.mantissa) / 2 := by rw [hsplit]; ring
    rw [hfrac, hdropped, hb]
    refine ⟨by linarith, by linarith, ?_, ?_⟩
    · simp only [bne_self_eq_false, Bool.false_eq_true, false_iff, not_le]
      linarith
    · constructor
      · intro hf
        exact ⟨by simpa using hf, by intro h2; linarith⟩
      · rintro ⟨hf, -⟩ h0
        exact hf (by linarith)
  · -- an odd mantissa: the new fraction is one half plus half the old one
    rw [hb, Nat.cast_one] at hsplit
    have hfrac : q / 2 - (em.mantissa / 2 : ℕ) = 1 / 2 + (q - em.mantissa) / 2 := by
      rw [hsplit]; ring
    rw [hfrac, hdropped, hb]
    refine ⟨by linarith, by linarith, ?_, ?_⟩
    · simp only [Nat.one_ne_zero, bne_iff_ne, ne_eq, not_false_eq_true, true_iff]
      linarith
    · constructor
      · intro hf
        exact ⟨by intro h0; linarith, by intro h2; exact hf (by linarith)⟩
      · rintro ⟨-, hf⟩ h0
        exact hf (by rw [h0]; ring)

/-- Shifting right by `k` reads `q / 2 ^ k`. -/
theorem Describes.shiftRight {em : ExtendedMantissa} {q : ℝ} (h : Describes em q) (k : ℕ) :
    Describes (em >>> k) (q / 2 ^ k) := by
  induction k with
  | zero =>
    have hzero : em >>> 0 = em := rfl
    rwa [hzero, pow_zero, div_one]
  | succ k ih =>
    have hstep : em >>> (k + 1) = (em >>> k).shiftRightOne := rfl
    rw [hstep, pow_succ, ← div_div]
    exact ih.shiftRightOne

/-- **Rounding by the residual bits is rounding half to even.** -/
theorem Describes.roundedMantissa_eq {em : ExtendedMantissa} {q : ℝ} (h : Describes em q) :
    (em.roundedMantissa : ℤ) = roundHalfEven q := by
  obtain ⟨hlo, hhi, hround, hsticky⟩ := h
  have hfloor : ⌊q⌋ = em.mantissa := by
    rw [Int.floor_eq_iff]
    push_cast
    exact ⟨hlo, hhi⟩
  obtain ⟨m, r, s⟩ := em
  simp only at hfloor hround hsticky
  rw [← Int.cast_natCast m, ← hfloor] at hround hsticky
  cases r with
  | false =>
    -- below one half: the mantissa is kept
    have hlt : q - ⌊q⌋ < 1 / 2 := by simpa using hround
    rw [roundHalfEven_of_frac_lt hlt, hfloor]
    cases s <;> rfl
  | true =>
    have hge : 1 / 2 ≤ q - ⌊q⌋ := by simpa using hround
    cases s with
    | false =>
      -- exactly one half: the even neighbour
      have heq : q - ⌊q⌋ = 1 / 2 := by
        by_contra hne
        exact absurd (hsticky.mpr ⟨by intro h0; linarith, hne⟩) (by simp)
      rw [roundHalfEven_of_frac_eq heq, hfloor]
      simp [ExtendedMantissa.roundedMantissa, ExtendedMantissa.accuracy,
        Accuracy.roundToNearestEven]
    | true =>
      -- above one half: the next mantissa up
      have hgt : 1 / 2 < q - ⌊q⌋ := lt_of_le_of_ne hge (hsticky.mp rfl).2.symm
      rw [roundHalfEven_of_half_lt hgt, hfloor]
      simp [ExtendedMantissa.roundedMantissa, ExtendedMantissa.accuracy,
        Accuracy.roundToNearestEven]

@[simp] theorem mantissa_ofMantissaAndAccuracy (m : ℕ) (acc : Accuracy) :
    (ExtendedMantissa.ofMantissaAndAccuracy m acc).mantissa = m := by
  unfold ExtendedMantissa.ofMantissaAndAccuracy
  split <;> rfl

/-- A mantissa read exactly. -/
theorem describes_exact (m : ℕ) : Describes (.ofMantissaAndAccuracy m .exact) m := by
  simp [Describes, ExtendedMantissa.ofMantissaAndAccuracy]

/-- The quotient of `n` by `d` with the remainder's accuracy reads `n / d`. -/
theorem describes_div (n : ℕ) {d : ℕ} (hd : 0 < d) :
    Describes (.ofMantissaAndAccuracy (n / d) (accuracyOfFraction (n % d) d)) ((n : ℝ) / d) := by
  have hdR : (0 : ℝ) < d := by exact_mod_cast hd
  -- the fraction is the remainder over the divisor
  have hq : (n : ℝ) / d = (n / d : ℕ) + ((n % d : ℕ) : ℝ) / d := by
    have h : ((d * (n / d) + n % d : ℕ) : ℝ) = n := by exact_mod_cast Nat.div_add_mod n d
    push_cast at h
    rw [← h, add_div, mul_div_cancel_left₀ _ hdR.ne']
  have hrR : ((n % d : ℕ) : ℝ) < d := by exact_mod_cast Nat.mod_lt n hd
  have hf0 : (0 : ℝ) ≤ ((n % d : ℕ) : ℝ) / d := by positivity
  have hf1 : ((n % d : ℕ) : ℝ) / d < 1 := (div_lt_one hdR).mpr hrR
  rw [Describes, mantissa_ofMantissaAndAccuracy, hq, add_sub_cancel_left]
  refine ⟨by linarith, by linarith, ?_⟩
  unfold accuracyOfFraction
  split_ifs with hr0
  · -- no remainder: the quotient is exact
    simp [ExtendedMantissa.ofMantissaAndAccuracy, hr0]
  have hfpos : 0 < ((n % d : ℕ) : ℝ) / d := by
    have : (0 : ℝ) < (n % d : ℕ) := by exact_mod_cast Nat.pos_of_ne_zero hr0
    positivity
  -- the remainder against half the divisor places the fraction against one half
  rcases Nat.lt_trichotomy (2 * (n % d)) d with hlt | heq | hgt
  · have hf : ((n % d : ℕ) : ℝ) / d < 1 / 2 := by
      rw [div_lt_iff₀ hdR]
      have : (2 * (n % d : ℕ) : ℝ) < d := by exact_mod_cast hlt
      linarith
    rw [Nat.compare_eq_lt.mpr hlt]
    simp only [ExtendedMantissa.ofMantissaAndAccuracy, Bool.false_eq_true, false_iff, not_le,
      true_iff]
    exact ⟨hf, hfpos.ne', hf.ne⟩
  · have hf : ((n % d : ℕ) : ℝ) / d = 1 / 2 := by
      rw [div_eq_iff hdR.ne']
      have : (2 * (n % d : ℕ) : ℝ) = d := by exact_mod_cast heq
      linarith
    rw [Nat.compare_eq_eq.mpr heq]
    simp only [ExtendedMantissa.ofMantissaAndAccuracy, true_iff, Bool.false_eq_true, false_iff,
      hf, not_and, not_not]
    exact ⟨le_rfl, fun _ => trivial⟩
  · have hf : 1 / 2 < ((n % d : ℕ) : ℝ) / d := by
      rw [lt_div_iff₀ hdR]
      have : (d : ℝ) < 2 * (n % d : ℕ) := by exact_mod_cast hgt
      linarith
    rw [Nat.compare_eq_gt.mpr hgt]
    simp only [ExtendedMantissa.ofMantissaAndAccuracy, true_iff]
    exact ⟨hf.le, hfpos.ne', hf.ne'⟩

/-! ### Rounding and packing -/

theorem binary64_targetExponent (t : ℤ) : Format.binary64.targetExponent t = max (t - 53) minExp := by
  simp [Format.targetExponent, minExp]

/-- The model's binary64 target exponent is the quantum read off the leading bit. -/
theorem targetExponent_binary64 (m : ℕ) (e : ℤ) :
    Format.binary64.targetExponent (totalExponent m e) = max ((m.log2 : ℤ) + e - 52) minExp := by
  simp only [Format.targetExponent, totalExponent, binary64_mantissaBits, binary64_minExponent,
    minExp]
  omega

/-- The first shift moves the mantissa to the target exponent and reads the value scaled to it. -/
theorem shiftToTargetExponent_of_describes {m : ℕ} {e : ℤ} {acc : Accuracy} {q : ℝ}
    (hd : Describes (.ofMantissaAndAccuracy m acc) q)
    (he : e ≤ Format.binary64.targetExponent (totalExponent m e)) :
    (shiftToTargetExponent .binary64 m e acc).2 = Format.binary64.targetExponent (totalExponent m e) ∧
      Describes (shiftToTargetExponent .binary64 m e acc).1
        (q * 2 ^ e / 2 ^ Format.binary64.targetExponent (totalExponent m e)) := by
  set t := Format.binary64.targetExponent (totalExponent m e)
  have hk : ((t - e).toNat : ℤ) = t - e := Int.toNat_of_nonneg (by omega)
  have hscale : q * 2 ^ e / 2 ^ t = q / 2 ^ (t - e).toNat := by
    rw [← zpow_natCast, hk, zpow_sub₀ two_ne_zero, div_div_eq_mul_div, mul_div_assoc]
  refine ⟨by simp only [shiftToTargetExponent, shiftToExponent]; omega, ?_⟩
  rw [hscale]
  exact hd.shiftRight _

/-- The second shift: a rounded mantissa of `2 ^ 53` carries into the exponent, a smaller one
stays where it is. -/
theorem shiftToTargetExponent_rounded {R : ℕ} {t : ℤ} (hR : R ≤ 2 ^ 53) (ht : minExp ≤ t) :
    shiftToTargetExponent .binary64 R t .exact =
      if R < 2 ^ 53 then (⟨R, false, false⟩, t) else (⟨2 ^ 52, false, false⟩, t + 1) := by
  simp only [shiftToTargetExponent, shiftToExponent, targetExponent_binary64]
  split_ifs with hlt
  · have hlog : R.log2 ≤ 52 := by
      rcases Nat.eq_zero_or_pos R with rfl | hpos
      · simp
      · exact Nat.le_of_lt_succ ((Nat.log2_lt hpos.ne').mpr hlt)
    rw [show (max ((R.log2 : ℤ) + t - 52) minExp - t).toNat = 0 by omega]
    exact Prod.ext rfl (by simp)
  · obtain rfl : R = 2 ^ 53 := by omega
    rw [Nat.log2_two_pow, show (max (((53 : ℕ) : ℤ) + t - 52) minExp - t).toNat = 1 by
      simp only [minExp] at ht ⊢; omega]
    simp only [ExtendedMantissa.ofMantissaAndAccuracy]
    refine Prod.ext ?_ (by simp only [minExp] at ht ⊢; omega)
    rfl

/-- Rounding ends in the canonical form of the rounded mantissa `R` at exponent `t`. -/
theorem roundWithAccuracy_eq_toUnpacked (n : Bool) {m : ℕ} {e : ℤ} {acc : Accuracy}
    {em : ExtendedMantissa} {t : ℤ} (hfirst : shiftToTargetExponent .binary64 m e acc = (em, t))
    (hR : em.roundedMantissa ≤ 2 ^ 53) (ht : minExp ≤ t) :
    roundWithAccuracy .binary64 (sign n) m e acc =
      (if em.roundedMantissa < 2 ^ 53 then Binary64.finite n em.roundedMantissa t
        else .finite n (2 ^ 52) (t + 1)).toUnpacked := by
  unfold roundWithAccuracy
  rw [hfirst]
  dsimp only
  rw [shiftToTargetExponent_rounded hR ht]
  by_cases hlt : em.roundedMantissa < 2 ^ 53
  · rw [if_pos hlt, if_pos hlt]
    rfl
  · rw [if_neg hlt, if_neg hlt]
    rfl

/-- **Packing a canonical value.** A mantissa of at most 53 bits at an exponent from `minExp`
on, its leading bit set above `minExp`, packs into the float of `± M * 2 ^ E`, or into an
infinity once that reaches `2 ^ 1024`. -/
theorem toEReal?_pack_canonical (n : Bool) {M : ℕ} {E : ℤ} (hM : M < 2 ^ 53) (hE : minExp ≤ E)
    (hnorm : E = minExp ∨ 2 ^ 52 ≤ M) :
    (ofFloat (Float.ofModel (pack (Binary64.finite n M E).toUnpacked))).toEReal? =
      some (if n then -roundMagE (M * 2 ^ E) else roundMagE (M * 2 ^ E)) := by
  rcases le_or_gt E 971 with hlow | hhigh
  · -- in range: the float reads back as the value, which rounding keeps
    have hvalid : Valid (.finite n M E) := by
      simp only [Valid, minExp] at hE hnorm ⊢
      omega
    rw [ofFloat_ofModel_pack hvalid, toEReal?, roundMagE_of_valid hvalid]
    cases n <;> simp [finiteValue, EReal.coe_neg]
  · -- past the largest exponent: an infinity, and the value is at least `2 ^ 1024`
    have hM52 : 2 ^ 52 ≤ M := hnorm.resolve_left (by simp only [minExp]; omega)
    have hne : M ≠ 0 := by omega
    have hbig : (2 : ℝ) ^ 1024 ≤ M * 2 ^ E := by
      have hM' : (2 : ℝ) ^ 52 ≤ M := by exact_mod_cast hM52
      have hE' : (2 : ℝ) ^ ((972 : ℕ) : ℤ) ≤ 2 ^ E :=
        zpow_le_zpow_right₀ (by norm_num) (by push_cast; omega)
      calc (2 : ℝ) ^ 1024 = 2 ^ 52 * 2 ^ ((972 : ℕ) : ℤ) := by rw [zpow_natCast, ← pow_add]
        _ ≤ (M : ℝ) * 2 ^ E := mul_le_mul hM' hE' (by positivity) (by positivity)
    have htop : roundMagE (M * 2 ^ E) = ⊤ := by
      rw [roundMagE, roundMag_of_lt hM hE, if_pos hbig]
    simp only [toUnpacked, dif_neg hne]
    rw [ofFloat_ofModel_pack_overflow hM52 hhigh, toEReal?, htop]
    cases n <;> simp

/-- A zero mantissa only meets its target at the least exponent. -/
theorem targetExponent_zero {e : ℤ} (he : e ≤ Format.binary64.targetExponent (totalExponent 0 e)) :
    Format.binary64.targetExponent (totalExponent 0 e) = minExp := by
  rw [targetExponent_binary64] at he ⊢
  simp only [minExp, Nat.log2_zero, Nat.cast_zero] at he ⊢
  omega

/-- The model's target exponent for a described value is the quantum of that value. -/
theorem targetExponent_eq_quantumExp {m : ℕ} {e : ℤ} {acc : Accuracy} {q : ℝ}
    (hd : Describes (.ofMantissaAndAccuracy m acc) q)
    (he : e ≤ Format.binary64.targetExponent (totalExponent m e)) (hq : 0 < q) :
    Format.binary64.targetExponent (totalExponent m e) = quantumExp (q * 2 ^ e) := by
  obtain ⟨hlo, hhi, -⟩ := hd
  rw [mantissa_ofMantissaAndAccuracy] at hlo hhi
  rcases Nat.eq_zero_or_pos m with rfl | hm
  · -- below `2 ^ e ≤ 2 ^ minExp`, the quantum is the least one
    rw [targetExponent_zero he]
    have he' : e ≤ minExp := by
      have := targetExponent_zero he
      rw [targetExponent_binary64] at he this
      omega
    have hsmall : q * 2 ^ e < 2 ^ minExp := by
      calc q * 2 ^ e < 1 * 2 ^ e := mul_lt_mul_of_pos_right (by simpa using hhi) (by positivity)
        _ ≤ 2 ^ minExp := by rw [one_mul]; exact zpow_le_zpow_right₀ (by norm_num) he'
    have hlog : Int.log 2 (q * 2 ^ e) < minExp :=
      (Int.lt_zpow_iff_log_lt (by norm_num : 1 < 2) (by positivity)).mp (by exact_mod_cast hsmall)
    unfold quantumExp
    omega
  · rw [targetExponent_binary64, quantumExp_of_mem hm hlo hhi]

theorem roundMagE_congr {u w : ℝ} (h : roundMag u = roundMag w) : roundMagE u = roundMagE w := by
  rw [roundMagE, roundMagE, h]

/-- **The rounded mantissa at the target exponent** times `2 ^ t` is the rounding of the
magnitude. It is at most `2 ^ 53` (a carry), and below `2 ^ 52` only at the least exponent. -/
theorem roundedMantissa_at_target {m : ℕ} {e t : ℤ} {acc : Accuracy} {q : ℝ}
    {em : ExtendedMantissa} (hd : Describes (.ofMantissaAndAccuracy m acc) q)
    (he : e ≤ Format.binary64.targetExponent (totalExponent m e))
    (hfirst : shiftToTargetExponent .binary64 m e acc = (em, t)) :
    minExp ≤ t ∧ (em.roundedMantissa : ℝ) * 2 ^ t = roundMag (q * 2 ^ e) ∧
      em.roundedMantissa ≤ 2 ^ 53 ∧ (t = minExp ∨ 2 ^ 52 ≤ em.roundedMantissa) := by
  obtain ⟨ht, hd₁⟩ := shiftToTargetExponent_of_describes hd he
  rw [hfirst] at ht hd₁
  dsimp only at ht hd₁
  rw [← ht] at hd₁
  have htmin : minExp ≤ t := by
    rw [ht, targetExponent_binary64]
    exact le_max_right _ _
  have hq0 : 0 ≤ q := by
    have := hd.1
    rw [mantissa_ofMantissaAndAccuracy] at this
    exact (Nat.cast_nonneg m).trans this
  have hR := hd₁.roundedMantissa_eq
  have hpos : (0 : ℝ) < 2 ^ t := by positivity
  refine ⟨htmin, ?_⟩
  rcases hq0.lt_or_eq with hq | rfl
  · -- the target is the quantum of the value
    have htq : t = quantumExp (q * 2 ^ e) := ht.trans (targetExponent_eq_quantumExp hd he hq)
    have hqe : 0 < q * 2 ^ e := by positivity
    have hmag : (em.roundedMantissa : ℝ) * 2 ^ t = roundMag (q * 2 ^ e) := by
      rw [roundMag, ← htq, ← hR, Int.cast_natCast]
    refine ⟨hmag, ?_, ?_⟩
    · have hle := roundMag_le_two_zpow (q * 2 ^ e)
      rw [← hmag, ← htq, zpow_add₀ two_ne_zero, mul_comm ((2 : ℝ) ^ t)] at hle
      exact_mod_cast le_of_mul_le_mul_right hle hpos
    · rcases htmin.lt_or_eq with hlt | heq
      · have hge := two_zpow_le_roundMag hqe (by rw [← htq]; exact hlt)
        rw [← hmag, ← htq, zpow_add₀ two_ne_zero, mul_comm ((2 : ℝ) ^ t)] at hge
        exact .inr (by exact_mod_cast le_of_mul_le_mul_right hge hpos)
      · exact .inl heq.symm
  · -- a zero value: the mantissa rounds to zero at the least exponent
    have hzero : em.roundedMantissa = 0 := by
      have : (em.roundedMantissa : ℤ) = 0 := by rw [hR]; simp
      exact_mod_cast this
    have hm : m = 0 := by
      have hle := hd.1
      rw [mantissa_ofMantissaAndAccuracy] at hle
      have : m ≤ 0 := by exact_mod_cast hle
      omega
    subst hm
    refine ⟨by simp [hzero], by omega, .inl (ht.trans (targetExponent_zero he))⟩

/-- **Rounding and packing give the binary64 rounding of the described value.** Whatever
mantissa, exponent and accuracy describe `q * 2 ^ e`, with the exponent not above its target
as every operation arranges, the packed result denotes `± roundMagE (q * 2 ^ e)`. -/
theorem toEReal?_roundWithAccuracy (n : Bool) {m : ℕ} {e : ℤ} {acc : Accuracy} {q : ℝ}
    (hd : Describes (.ofMantissaAndAccuracy m acc) q)
    (he : e ≤ Format.binary64.targetExponent (totalExponent m e)) :
    (ofFloat (Float.ofModel (pack (roundWithAccuracy .binary64 (sign n) m e acc)))).toEReal? =
      some (if n then -roundMagE (q * 2 ^ e) else roundMagE (q * 2 ^ e)) := by
  rcases hfirst : shiftToTargetExponent .binary64 m e acc with ⟨em, t⟩
  obtain ⟨htmin, hmag, hR53, hnorm⟩ := roundedMantissa_at_target hd he hfirst
  rw [roundWithAccuracy_eq_toUnpacked n hfirst hR53 htmin]
  by_cases hlt : em.roundedMantissa < 2 ^ 53
  · have hkept : roundMagE (em.roundedMantissa * 2 ^ t) = roundMagE (q * 2 ^ e) :=
      roundMagE_congr (by rw [roundMag_of_lt hlt htmin, hmag])
    rw [if_pos hlt, toEReal?_pack_canonical n hlt htmin hnorm, hkept]
  · -- a carry: `2 ^ 53 * 2 ^ t` is written `2 ^ 52 * 2 ^ (t + 1)`
    obtain hcarry : em.roundedMantissa = 2 ^ 53 := by omega
    have hvalue : ((2 ^ 52 : ℕ) : ℝ) * 2 ^ (t + 1) = roundMag (q * 2 ^ e) := by
      rw [← hmag, hcarry, zpow_add₀ two_ne_zero]
      push_cast
      ring
    have hkept : roundMagE (((2 ^ 52 : ℕ) : ℝ) * 2 ^ (t + 1)) = roundMagE (q * 2 ^ e) :=
      roundMagE_congr (by rw [roundMag_of_lt (by norm_num) (by omega), hvalue])
    rw [if_neg hlt, toEReal?_pack_canonical n (by norm_num) (by omega) (.inr le_rfl), hkept]

/-! ### Rounding an exact mantissa -/

/-- Shifting a mantissa `k` bits left while lowering its exponent by `k` keeps its value. -/
theorem shiftLeft_value (m k : ℕ) (e : ℤ) : ((m <<< k : ℕ) : ℝ) * 2 ^ (e - k) = m * 2 ^ e := by
  rw [Nat.shiftLeft_eq, Nat.cast_mul, Nat.cast_pow, Nat.cast_ofNat, mul_assoc, ← zpow_natCast,
    ← zpow_add₀ two_ne_zero, add_sub_cancel]

/-- **The model's `round` rounds an exact value.** A mantissa above zero is shifted left to its
target exponent, where it is read exactly. -/
theorem toEReal?_round (n : Bool) {m : ℕ} (hm : 0 < m) (e : ℤ) :
    (ofFloat (Float.ofModel (pack (UnpackedFloat.round .binary64 (sign n) m e)))).toEReal? =
      some (if n then -roundMagE (m * 2 ^ e) else roundMagE (m * 2 ^ e)) := by
  set t := Format.binary64.targetExponent (totalExponent m e) with ht
  set k := (e - t).toNat
  -- the shifted mantissa has the same leading position, so the same target
  have htarget : Format.binary64.targetExponent (totalExponent (m <<< k) (e - k)) = t := by
    rw [ht, targetExponent_binary64, targetExponent_binary64, Nat.shiftLeft_eq,
      Nat.log2_mul_two_pow hm.ne']
    push_cast
    ring_nf
  have hle : e - k ≤ Format.binary64.targetExponent (totalExponent (m <<< k) (e - k)) := by
    rw [htarget]
    omega
  unfold UnpackedFloat.round
  simp only [decreaseExponent]
  rw [toEReal?_roundWithAccuracy n (describes_exact _) hle, shiftLeft_value]

/-- Normalizing a signed mantissa rounds its value; a zero mantissa gives a zero. -/
theorem toEReal?_normalize (M E : ℤ) (zs : Sign) :
    (ofFloat (Float.ofModel (pack (UnpackedFloat.normalize .binary64 M E zs)))).toEReal? =
      some (roundE (M * 2 ^ E)) := by
  unfold UnpackedFloat.normalize
  rcases lt_trichotomy M 0 with hneg | rfl | hpos
  · rw [show compare M 0 = .lt from Int.compare_eq_lt.mpr hneg]
    have hval : (((-M).toNat : ℕ) : ℝ) * 2 ^ E = -(M * 2 ^ E) := by
      rw [show (((-M).toNat : ℕ) : ℝ) = ((-M : ℤ) : ℝ) by exact_mod_cast Int.toNat_of_nonneg (by omega)]
      push_cast
      ring
    have hv : (M : ℝ) * 2 ^ E < 0 :=
      mul_neg_of_neg_of_pos (by exact_mod_cast hneg) (by positivity)
    rw [show Sign.negative = sign true from rfl, toEReal?_round true (by omega), hval,
      roundE_of_neg hv]
    rfl
  · rw [show compare (0 : ℤ) 0 = .eq from rfl]
    cases zs
    · rw [show Sign.negative = sign true from rfl, ofFloat_ofModel_pack_zero]
      simp [toEReal?, finiteValue]
    · rw [show Sign.positive = sign false from rfl, ofFloat_ofModel_pack_zero]
      simp [toEReal?, finiteValue]
  · rw [show compare M 0 = .gt from Int.compare_eq_gt.mpr hpos]
    have hval : ((M.toNat : ℕ) : ℝ) * 2 ^ E = M * 2 ^ E := by
      rw [show ((M.toNat : ℕ) : ℝ) = (M : ℝ) by exact_mod_cast Int.toNat_of_nonneg hpos.le]
    rw [show Sign.positive = sign false from rfl, toEReal?_round false (by omega), hval,
      roundE_of_nonneg (by positivity)]
    rfl

/-! ### Signs and values -/

theorem neg_sign (n : Bool) : -sign n = sign (!n) := by
  cases n <;> rfl

theorem sign_mul_sign (n n' : Bool) : sign n * sign n' = sign (n != n') := by
  cases n <;> cases n' <;> rfl

theorem sign_div_sign (n n' : Bool) : sign n / sign n' = sign (n != n') := by
  cases n <;> cases n' <;> rfl

theorem finiteValue_not (n : Bool) (m : ℕ) (e : ℤ) : finiteValue (!n) m e = -finiteValue n m e := by
  cases n <;> simp [finiteValue]

/-- Rounding a value of either sign rounds its magnitude. -/
theorem roundE_signed (n : Bool) {u : ℝ} (hu : 0 ≤ u) :
    roundE (if n then -u else u) = if n then -roundMagE u else roundMagE u := by
  cases n
  · exact roundE_of_nonneg hu
  · rw [if_pos rfl, roundE_neg, roundE_of_nonneg hu]
    rfl

/-- A mantissa shifted left to a lower exponent, with its sign applied, keeps the value. -/
theorem signed_decreaseExponent (n : Bool) (m : ℕ) {e E : ℤ} (h : E ≤ e) :
    (((sign n).apply ((decreaseExponent m e E).1 : ℤ) : ℤ) : ℝ) * 2 ^ E = finiteValue n m e := by
  have hvalue := shiftLeft_value m (e - E).toNat e
  rw [show e - ((e - E).toNat : ℤ) = E by omega] at hvalue
  simp only [decreaseExponent]
  cases n
  · simp only [sign, Bool.false_eq_true, if_false, Sign.apply, Int.cast_natCast, finiteValue]
    exact hvalue
  · simp only [sign, if_true, Sign.apply, Int.cast_neg, Int.cast_natCast, finiteValue, neg_mul]
    rw [hvalue]

theorem toEReal?_pack_zero (s : Sign) :
    (ofFloat (Float.ofModel (pack (.zero s)))).toEReal? = some 0 := by
  cases s
  · rw [show Sign.negative = sign true from rfl, ofFloat_ofModel_pack_zero]
    simp [toEReal?, finiteValue]
  · rw [show Sign.positive = sign false from rfl, ofFloat_ofModel_pack_zero]
    simp [toEReal?, finiteValue]

/-- The mantissa and exponent of a float are valid with either sign. -/
theorem valid_of_ofFloat {x : Float} {n : Bool} {m : ℕ} {e : ℤ} (hx : ofFloat x = .finite n m e)
    (n' : Bool) : Valid (.finite n' m e) := by
  have := valid_ofFloat x
  rw [hx] at this
  exact this

/-- A float packed from its own reading, or from the reading of its negation, reads back. -/
theorem toEReal?_pack_reading {x : Float} {n : Bool} {m : ℕ} {e : ℤ}
    (hx : ofFloat x = .finite n m e) (n' : Bool) :
    (ofFloat (Float.ofModel (pack (Binary64.finite n' m e).toUnpacked))).toEReal? =
      some ((finiteValue n' m e : ℝ) : EReal) := by
  rw [ofFloat_ofModel_pack (valid_of_ofFloat hx n')]
  rfl

end Histograms.Binary64

open Histograms Histograms.Binary64

namespace Float

variable {x y : Float} {n₁ n₂ : Bool} {m₁ m₂ : ℕ} {e₁ e₂ : ℤ}

theorem sub_eq_pack (x y : Float) : x - y = Float.ofModel (pack
    (UnpackedFloat.sub .binary64 (ofFloat x).toUnpacked (ofFloat y).toUnpacked)) := by
  rw [toUnpacked_ofFloat, toUnpacked_ofFloat]
  rfl

theorem mul_eq_pack (x y : Float) : x * y = Float.ofModel (pack
    (UnpackedFloat.mul .binary64 (ofFloat x).toUnpacked (ofFloat y).toUnpacked)) := by
  rw [toUnpacked_ofFloat, toUnpacked_ofFloat]
  rfl

theorem div_eq_pack (x y : Float) : x / y = Float.ofModel (pack
    (UnpackedFloat.div .binary64 (ofFloat x).toUnpacked (ofFloat y).toUnpacked)) := by
  rw [toUnpacked_ofFloat, toUnpacked_ofFloat]
  rfl

/-- **Subtraction rounds the exact difference.** Zeros are exact, a zero minus a float is its
negation, and two other floats are aligned at the smaller exponent, subtracted exactly and
normalized. -/
theorem toEReal?_sub (hx : ofFloat x = .finite n₁ m₁ e₁) (hy : ofFloat y = .finite n₂ m₂ e₂) :
    (ofFloat (x - y)).toEReal? = some (roundE (finiteValue n₁ m₁ e₁ - finiteValue n₂ m₂ e₂)) := by
  rw [sub_eq_pack, hx, hy]
  rcases Nat.eq_zero_or_pos m₁ with rfl | hm₁ <;> rcases Nat.eq_zero_or_pos m₂ with rfl | hm₂
  · -- two zeros: a zero
    simp only [toUnpacked, dite_true, UnpackedFloat.sub]
    split_ifs <;> simp [toEReal?_pack_zero, finiteValue]
  · -- a zero minus a float: the float negated, which rounding keeps
    simp only [toUnpacked, dite_true, dif_neg hm₂.ne', UnpackedFloat.sub, neg_sign]
    rw [show UnpackedFloat.finite (sign (!n₂)) m₂ e₂ _ = (Binary64.finite (!n₂) m₂ e₂).toUnpacked by
      simp [toUnpacked, hm₂.ne'], toEReal?_pack_reading hy]
    have hdiff : finiteValue n₁ 0 e₁ - finiteValue n₂ m₂ e₂ = finiteValue (!n₂) m₂ e₂ := by
      rw [finiteValue_not]
      simp [finiteValue]
    rw [hdiff, roundE_finiteValue (valid_of_ofFloat hy _)]
  · -- a float minus a zero: the float
    simp only [toUnpacked, dite_true, dif_neg hm₁.ne', UnpackedFloat.sub]
    rw [show UnpackedFloat.finite (sign n₁) m₁ e₁ _ = (Binary64.finite n₁ m₁ e₁).toUnpacked by
      simp [toUnpacked, hm₁.ne'], toEReal?_pack_reading hx]
    rw [show finiteValue n₂ 0 e₂ = 0 by simp [finiteValue], sub_zero,
      roundE_finiteValue (valid_of_ofFloat hx _)]
  · -- two floats: aligned at the smaller exponent, subtracted exactly, normalized
    simp only [toUnpacked, dif_neg hm₁.ne', dif_neg hm₂.ne', UnpackedFloat.sub]
    rw [toEReal?_normalize, Int.cast_sub, sub_mul,
      signed_decreaseExponent n₁ m₁ (min_le_left e₁ e₂),
      signed_decreaseExponent n₂ m₂ (min_le_right e₁ e₂)]

/-- Two float mantissas multiply at an exponent not above the product's target: a product below
`2 ^ 52` only comes from two subnormals, at the least exponent. -/
theorem mul_exponent_le (hx : ofFloat x = .finite n₁ m₁ e₁) (hy : ofFloat y = .finite n₂ m₂ e₂)
    (hm₁ : 0 < m₁) (hm₂ : 0 < m₂) :
    e₁ + e₂ ≤ Format.binary64.targetExponent (totalExponent (m₁ * m₂) (e₁ + e₂)) := by
  rw [targetExponent_binary64]
  by_cases hbig : 2 ^ 52 ≤ m₁ * m₂
  · have hlog : 52 ≤ (m₁ * m₂).log2 :=
      (Nat.le_log2 (Nat.mul_pos hm₁ hm₂).ne').mpr hbig
    omega
  · -- both factors are below `2 ^ 52`, so both are subnormals
    have h₁ : m₁ < 2 ^ 52 := lt_of_le_of_lt (Nat.le_mul_of_pos_right m₁ hm₂) (not_le.mp hbig)
    have h₂ : m₂ < 2 ^ 52 := lt_of_le_of_lt (Nat.le_mul_of_pos_left m₂ hm₁) (not_le.mp hbig)
    obtain ⟨-, he₁, hn₁⟩ := ofFloat_finite_bounds hx
    obtain ⟨-, he₂, hn₂⟩ := ofFloat_finite_bounds hy
    have : e₁ = -1074 := by by_contra h; exact absurd (hn₁ (by omega)) (by omega)
    have : e₂ = -1074 := by by_contra h; exact absurd (hn₂ (by omega)) (by omega)
    simp only [minExp]
    omega

/-- **Multiplication rounds the exact product.** A zero factor gives a zero; two other floats
multiply their mantissas exactly and round. -/
theorem toEReal?_mul (hx : ofFloat x = .finite n₁ m₁ e₁) (hy : ofFloat y = .finite n₂ m₂ e₂) :
    (ofFloat (x * y)).toEReal? = some (roundE (finiteValue n₁ m₁ e₁ * finiteValue n₂ m₂ e₂)) := by
  rw [mul_eq_pack, hx, hy]
  rcases Nat.eq_zero_or_pos m₁ with rfl | hm₁
  · -- a zero factor gives a zero
    rcases Nat.eq_zero_or_pos m₂ with rfl | hm₂
    · simp [toUnpacked, UnpackedFloat.mul, toEReal?_pack_zero, finiteValue]
    · simp [toUnpacked, UnpackedFloat.mul, hm₂.ne', toEReal?_pack_zero, finiteValue]
  rcases Nat.eq_zero_or_pos m₂ with rfl | hm₂
  · simp [toUnpacked, UnpackedFloat.mul, hm₁.ne', toEReal?_pack_zero, finiteValue]
  simp only [toUnpacked, dif_neg hm₁.ne', dif_neg hm₂.ne', UnpackedFloat.mul, sign_mul_sign]
  rw [toEReal?_roundWithAccuracy _ (describes_exact (m₁ * m₂)) (mul_exponent_le hx hy hm₁ hm₂)]
  -- the exact product: the two magnitudes multiplied, with the sign of `n₁ != n₂`
  have hval : finiteValue n₁ m₁ e₁ * finiteValue n₂ m₂ e₂ =
      if (n₁ != n₂) then -(((m₁ * m₂ : ℕ) : ℝ) * 2 ^ (e₁ + e₂))
      else ((m₁ * m₂ : ℕ) : ℝ) * 2 ^ (e₁ + e₂) := by
    cases n₁ <;> cases n₂ <;> simp [finiteValue, zpow_add₀] <;> ring
  rw [hval, roundE_signed _ (by positivity)]

/-- The quotient's exponent is not above its target: unless it is already the least one, the
dividend is shifted up until the quotient has at least 53 bits. -/
theorem div_exponent_le (hm₁ : 0 < m₁) (hm₂ : 0 < m₂) :
    (divCore .binary64 m₁ e₁ m₂ e₂).2.1 ≤ Format.binary64.targetExponent
      (totalExponent (divCore .binary64 m₁ e₁ m₂ e₂).1 (divCore .binary64 m₁ e₁ m₂ e₂).2.1) := by
  simp only [divCore]
  set T := min (e₁ - e₂)
    (Format.binary64.targetExponent (totalExponent m₁ e₁ - totalExponent m₂ e₂)) with hT
  set k := (e₁ - e₂ - T).toNat with hk
  rw [targetExponent_binary64]
  by_cases hmin : T ≤ minExp
  · exact le_max_of_le_right hmin
  -- above the least exponent the dividend is shifted past the divisor by 53 bits
  have hshift : m₂.log2 + 53 ≤ m₁.log2 + k := by
    simp only [binary64_targetExponent, totalExponent, minExp] at hT hmin
    omega
  have hq : 2 ^ 52 ≤ (m₁ <<< k) / m₂ := by
    rw [Nat.le_div_iff_mul_le hm₂, Nat.shiftLeft_eq]
    calc 2 ^ 52 * m₂ ≤ 2 ^ 52 * 2 ^ (m₂.log2 + 1) := Nat.mul_le_mul_left _ Nat.lt_log2_self.le
      _ = 2 ^ (m₂.log2 + 53) := by rw [← Nat.pow_add]; ring_nf
      _ ≤ 2 ^ (m₁.log2 + k) := Nat.pow_le_pow_right (by norm_num) hshift
      _ = 2 ^ m₁.log2 * 2 ^ k := Nat.pow_add _ _ _
      _ ≤ m₁ * 2 ^ k := Nat.mul_le_mul_right _ (Nat.log2_self_le hm₁.ne')
  have hlog : 52 ≤ ((m₁ <<< k) / m₂).log2 := (Nat.le_log2 (by omega)).mpr hq
  exact le_max_of_le_left (by omega)

/-- The quotient `divCore` computes, with its accuracy, reads the exact quotient scaled to the
exponent it picks. -/
theorem describes_divCore (hm₂ : 0 < m₂) :
    Describes (.ofMantissaAndAccuracy (divCore .binary64 m₁ e₁ m₂ e₂).1
      (divCore .binary64 m₁ e₁ m₂ e₂).2.2)
      ((m₁ : ℝ) * 2 ^ e₁ / (m₂ * 2 ^ e₂) / 2 ^ (divCore .binary64 m₁ e₁ m₂ e₂).2.1) := by
  simp only [divCore]
  set T := min (e₁ - e₂)
    (Format.binary64.targetExponent (totalExponent m₁ e₁ - totalExponent m₂ e₂)) with hT
  have hTle : T ≤ e₁ - e₂ := min_le_left _ _
  have hk : (((e₁ - e₂ - T).toNat : ℕ) : ℤ) = e₁ - e₂ - T := Int.toNat_of_nonneg (by omega)
  have hval : (m₁ : ℝ) * 2 ^ e₁ / (m₂ * 2 ^ e₂) / 2 ^ T =
      ((m₁ <<< (e₁ - e₂ - T).toNat : ℕ) : ℝ) / m₂ := by
    rw [Nat.shiftLeft_eq]
    push_cast
    rw [← zpow_natCast, hk, zpow_sub₀ two_ne_zero, zpow_sub₀ two_ne_zero]
    field_simp
  rw [hval]
  exact describes_div _ hm₂

theorem div_finite (s₁ s₂ : Sign) (h₁ : 0 < m₁) (h₂ : 0 < m₂) :
    UnpackedFloat.div .binary64 (.finite s₁ m₁ e₁ h₁) (.finite s₂ m₂ e₂ h₂) =
      roundWithAccuracy .binary64 (s₁ / s₂) (divCore .binary64 m₁ e₁ m₂ e₂).1
        (divCore .binary64 m₁ e₁ m₂ e₂).2.1 (divCore .binary64 m₁ e₁ m₂ e₂).2.2 := rfl

/-- **Division rounds the exact quotient.** A zero over a float is a zero; two other floats
divide their mantissas with enough bits and a remainder, and round. -/
theorem toEReal?_div (hx : ofFloat x = .finite n₁ m₁ e₁) (hy : ofFloat y = .finite n₂ m₂ e₂)
    (hm₂ : 0 < m₂) :
    (ofFloat (x / y)).toEReal? = some (roundE (finiteValue n₁ m₁ e₁ / finiteValue n₂ m₂ e₂)) := by
  rw [div_eq_pack, hx, hy]
  rcases Nat.eq_zero_or_pos m₁ with rfl | hm₁
  · -- a zero dividend gives a zero
    simp [toUnpacked, UnpackedFloat.div, hm₂.ne', toEReal?_pack_zero, finiteValue]
  simp only [toUnpacked, dif_neg hm₁.ne', dif_neg hm₂.ne', div_finite, sign_div_sign]
  rw [toEReal?_roundWithAccuracy _ (describes_divCore hm₂) (div_exponent_le hm₁ hm₂),
    div_mul_cancel₀ _ (zpow_ne_zero _ two_ne_zero)]
  -- the exact quotient: the two magnitudes divided, with the sign of `n₁ != n₂`
  have hval : finiteValue n₁ m₁ e₁ / finiteValue n₂ m₂ e₂ =
      if (n₁ != n₂) then -((m₁ : ℝ) * 2 ^ e₁ / (m₂ * 2 ^ e₂)) else (m₁ : ℝ) * 2 ^ e₁ / (m₂ * 2 ^ e₂) := by
    cases n₁ <;> cases n₂ <;> simp [finiteValue, neg_div, div_neg]
  rw [hval, roundE_signed _ (by positivity)]

end Float
