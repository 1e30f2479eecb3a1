import Histograms.Proofs.RoundedOps
/-!
# Floats are ordered by value

The float model compares two floats by sign, then exponent, then mantissa. On the canonical
readings of the bits this is the order of their values: a larger exponent means a larger
magnitude, because every exponent above `minExp` carries a leading mantissa bit. So `x < y` and
`x ≤ y` are the order of the extended reals the two floats denote, and NaN compares with
nothing.

With correct rounding this makes every operation with a fixed finite operand monotone: `x - c`,
and `x / d` and `x * k` for `d` and `k` above zero, round a monotone function of the value of
`x`, and pass its infinities through. `roundedMap f` is such an operation on extended reals.

Main statements:

* `Float.lt_iff_toEReal?`, `Float.le_iff_toEReal?` — floats are ordered by value.
* `Float.toEReal?_sub_right`, `Float.toEReal?_div_right`, `Float.toEReal?_mul_right` — an
  operation with a fixed operand is `roundedMap` of the value.
* `Binary64.roundedMap_mono` — which is monotone.
-/

open Float.Model UnpackedFloat

namespace Histograms.Binary64

/-! ### Comparing readings -/

section Compare

variable {α : Type} [LinearOrder α] {a b : α}

theorem some_lt_eq_compare (h : a < b) : some Ordering.lt = some (compare a b) := by
  rw [compare_lt_iff_lt.mpr h]

theorem some_gt_eq_compare (h : b < a) : some Ordering.gt = some (compare a b) := by
  rw [compare_gt_iff_gt.mpr h]

theorem some_eq_eq_compare (h : a = b) : some Ordering.eq = some (compare a b) := by
  rw [compare_eq_iff_eq.mpr h]

/-- A strictly monotone map keeps comparisons. -/
theorem compare_of_strictMono {β : Type} [LinearOrder β] {f : α → β} (hf : StrictMono f)
    (a b : α) : compare (f a) (f b) = compare a b := by
  rcases lt_trichotomy a b with h | rfl | h
  · rw [compare_lt_iff_lt.mpr h, compare_lt_iff_lt.mpr (hf h)]
  · rw [compare_eq_iff_eq.mpr rfl, compare_eq_iff_eq.mpr rfl]
  · rw [compare_gt_iff_gt.mpr h, compare_gt_iff_gt.mpr (hf h)]

end Compare

theorem compare_coe (x y : ℝ) : compare (x : EReal) (y : EReal) = compare x y :=
  compare_of_strictMono (fun _ _ h => EReal.coe_lt_coe_iff.mpr h) x y

theorem compare_neg (x y : ℝ) : compare (-x) (-y) = (compare x y).swap := by
  rcases lt_trichotomy x y with h | rfl | h
  · rw [compare_lt_iff_lt.mpr h, compare_gt_iff_gt.mpr (neg_lt_neg h)]
    rfl
  · rw [compare_eq_iff_eq.mpr rfl, compare_eq_iff_eq.mpr rfl]
    rfl
  · rw [compare_gt_iff_gt.mpr h, compare_lt_iff_lt.mpr (neg_lt_neg h)]
    rfl

variable {n n' : Bool} {m m' : ℕ} {e e' : ℤ}

/-- A canonical magnitude is below every magnitude of a larger exponent: it is below
`2 ^ 53 * 2 ^ e`, and a larger exponent is above `minExp`, with its leading bit set. -/
theorem magnitude_lt_of_exp_lt (hv : Valid (.finite n m e)) (hv' : Valid (.finite n' m' e'))
    (he : e < e') : (m : ℝ) * 2 ^ e < m' * 2 ^ e' := by
  have hm : m < 2 ^ 53 := by unfold Valid at hv; omega
  have hm' : 2 ^ 52 ≤ m' := by
    unfold Valid at hv hv'
    simp only [minExp] at hv hv'
    omega
  have hmR : (m : ℝ) < 2 ^ 53 := by exact_mod_cast hm
  have hmR' : (2 : ℝ) ^ 52 ≤ m' := by exact_mod_cast hm'
  calc (m : ℝ) * 2 ^ e < 2 ^ 53 * 2 ^ e := mul_lt_mul_of_pos_right hmR (by positivity)
    _ = 2 ^ 52 * 2 ^ (e + 1) := by rw [zpow_add₀ two_ne_zero]; ring
    _ ≤ 2 ^ 52 * 2 ^ e' := by gcongr; norm_num; omega
    _ ≤ m' * 2 ^ e' := by gcongr

/-- **Canonical magnitudes compare by exponent, then mantissa.** -/
theorem compare_lex (hv : Valid (.finite n m e)) (hv' : Valid (.finite n' m' e')) :
    (compare e e').then (compare m m') = compare ((m : ℝ) * 2 ^ e) (m' * 2 ^ e') := by
  rcases lt_trichotomy e e' with he | rfl | he
  · rw [compare_lt_iff_lt.mpr he, compare_lt_iff_lt.mpr (magnitude_lt_of_exp_lt hv hv' he)]
    rfl
  · rw [compare_eq_iff_eq.mpr rfl, Ordering.eq_then]
    exact (compare_of_strictMono (fun _ _ h => mul_lt_mul_of_pos_right (Nat.cast_lt.mpr h)
      (zpow_pos two_pos e)) m m').symm
  · rw [compare_gt_iff_gt.mpr he, compare_gt_iff_gt.mpr (magnitude_lt_of_exp_lt hv' hv he)]
    rfl

@[simp] theorem finiteValue_zero (n : Bool) (e : ℤ) : finiteValue n 0 e = 0 := by
  simp [finiteValue]

theorem finiteValue_false_pos (hm : 0 < m) : 0 < finiteValue false m e := by
  simp only [finiteValue, Bool.false_eq_true, if_false]
  positivity

theorem finiteValue_true_neg (hm : 0 < m) : finiteValue true m e < 0 := by
  simp only [finiteValue, if_true, neg_mul, neg_neg_iff_pos]
  positivity

/-- Two finite readings compared by the model: zeros are equal, the sign decides between values
of two signs, and magnitudes compare by exponent and mantissa. -/
theorem compare_finite (hv : Valid (.finite n m e)) (hv' : Valid (.finite n' m' e')) :
    (Binary64.finite n m e).toUnpacked.compare (Binary64.finite n' m' e').toUnpacked =
      some (compare (finiteValue n m e) (finiteValue n' m' e')) := by
  rcases Nat.eq_zero_or_pos m with rfl | hm <;> rcases Nat.eq_zero_or_pos m' with rfl | hm'
  · -- two zeros
    simp only [toUnpacked, dite_true, finiteValue_zero]
    cases n <;> cases n' <;> exact some_eq_eq_compare rfl
  · -- a zero against a value: the sign of the value decides
    simp only [toUnpacked, dite_true, dif_neg hm'.ne', finiteValue_zero]
    cases n <;> cases n'
    · exact some_lt_eq_compare (finiteValue_false_pos hm')
    · exact some_gt_eq_compare (finiteValue_true_neg hm')
    · exact some_lt_eq_compare (finiteValue_false_pos hm')
    · exact some_gt_eq_compare (finiteValue_true_neg hm')
  · simp only [toUnpacked, dite_true, dif_neg hm.ne', finiteValue_zero]
    cases n <;> cases n'
    · exact some_gt_eq_compare (finiteValue_false_pos hm)
    · exact some_gt_eq_compare (finiteValue_false_pos hm)
    · exact some_lt_eq_compare (finiteValue_true_neg hm)
    · exact some_lt_eq_compare (finiteValue_true_neg hm)
  · -- two values: by sign, then by magnitude
    simp only [toUnpacked, dif_neg hm.ne', dif_neg hm'.ne']
    cases n <;> cases n'
    · simp only [finiteValue, Bool.false_eq_true, if_false]
      exact congrArg some (compare_lex hv hv')
    · exact some_gt_eq_compare ((finiteValue_true_neg hm').trans (finiteValue_false_pos hm))
    · exact some_lt_eq_compare ((finiteValue_true_neg hm).trans (finiteValue_false_pos hm'))
    · simp only [finiteValue, if_true, neg_mul]
      rw [compare_neg, ← compare_lex hv hv']
      rfl

/-- An infinity is beyond every finite value. -/
theorem compare_infinite_finite :
    (Binary64.infinite n).toUnpacked.compare (finite n' m' e').toUnpacked =
      some (if n then .lt else .gt) := by
  by_cases hm' : m' = 0 <;> cases n <;> cases n' <;> simp [toUnpacked, hm', sign, UnpackedFloat.compare]

theorem compare_finite_infinite :
    (finite n m e).toUnpacked.compare (Binary64.infinite n').toUnpacked =
      some (if n' then .gt else .lt) := by
  by_cases hm : m = 0 <;> cases n <;> cases n' <;> simp [toUnpacked, hm, sign, UnpackedFloat.compare]

/-- **The model compares readings by value.** Two readings that are not NaN compare as the
extended reals they denote. -/
theorem compare_toUnpacked {r r' : Binary64} (hr : r.Valid) (hr' : r'.Valid) {a b : EReal}
    (ha : r.toEReal? = some a) (hb : r'.toEReal? = some b) :
    r.toUnpacked.compare r'.toUnpacked = some (compare a b) := by
  cases r with
  | nan => cases ha
  | infinite n =>
    simp only [toEReal?, Option.some.injEq] at ha
    subst ha
    cases r' with
    | nan => cases hb
    | infinite n' =>
      simp only [toEReal?, Option.some.injEq] at hb
      subst hb
      cases n <;> cases n'
      · exact some_eq_eq_compare rfl
      · exact some_gt_eq_compare bot_lt_top
      · exact some_lt_eq_compare bot_lt_top
      · exact some_eq_eq_compare rfl
    | finite n' m' e' =>
      simp only [toEReal?, Option.some.injEq] at hb
      subst hb
      rw [compare_infinite_finite]
      cases n
      · exact some_gt_eq_compare (EReal.coe_lt_top _)
      · exact some_lt_eq_compare (EReal.bot_lt_coe _)
  | finite n m e =>
    simp only [toEReal?, Option.some.injEq] at ha
    subst ha
    cases r' with
    | nan => cases hb
    | infinite n' =>
      simp only [toEReal?, Option.some.injEq] at hb
      subst hb
      rw [compare_finite_infinite]
      cases n'
      · exact some_lt_eq_compare (EReal.coe_lt_top _)
      · exact some_gt_eq_compare (EReal.bot_lt_coe _)
    | finite n' m' e' =>
      simp only [toEReal?, Option.some.injEq] at hb
      subst hb
      rw [compare_coe]
      exact compare_finite hr hr'

theorem compare_notANumber (u : UnpackedFloat) : u.compare .notANumber = none := by
  cases u with
  | infinity s => cases s <;> rfl
  | finite s m e hm => cases s <;> rfl
  | zero s => cases s <;> rfl
  | notANumber => rfl

/-- NaN compares with nothing. -/
theorem compare_toUnpacked_of_nan {r r' : Binary64} (h : r.toEReal? = none ∨ r'.toEReal? = none) :
    r.toUnpacked.compare r'.toUnpacked = none := by
  rcases h with h | h
  · cases r with
    | nan => rfl
    | infinite n => cases h
    | finite n m e => cases h
  · cases r' with
    | nan => exact compare_notANumber _
    | infinite n => cases h
    | finite n m e => cases h

theorem isLE_compare {α : Type} [LinearOrder α] (a b : α) : (compare a b).isLE = true ↔ a ≤ b := by
  rcases lt_trichotomy a b with h | rfl | h
  · simp [compare_lt_iff_lt.mpr h, h.le]
  · simp
  · simp [compare_gt_iff_gt.mpr h, not_le.mpr h]

/-! ### Operations with a fixed operand -/

/-- An operation with a fixed finite operand, seen on the value of the other operand:
infinities pass through, and a real `r` goes to the rounding of `f r`. -/
noncomputable def roundedMap (f : ℝ → ℝ) (a : EReal) : EReal :=
  if a = ⊤ then ⊤ else if a = ⊥ then ⊥ else roundE (f a.toReal)

section RoundedMap

variable {f : ℝ → ℝ}

@[simp] theorem roundedMap_top : roundedMap f ⊤ = ⊤ := by simp [roundedMap]

@[simp] theorem roundedMap_bot : roundedMap f ⊥ = ⊥ := by simp [roundedMap]

@[simp] theorem roundedMap_coe (r : ℝ) : roundedMap f r = roundE (f r) := by simp [roundedMap]

@[simp] theorem roundedMap_zero : roundedMap f 0 = roundE (f 0) := roundedMap_coe 0

/-- **A rounded monotone operation is monotone**, infinities included. -/
theorem roundedMap_mono (hf : Monotone f) : Monotone (roundedMap f) := by
  intro a b hab
  induction a using EReal.rec with
  | bot => simp
  | top =>
    rw [top_le_iff.mp hab]
  | coe r =>
    induction b using EReal.rec with
    | bot => exact absurd hab (not_le.mpr (EReal.bot_lt_coe r))
    | top => simp
    | coe s => simpa using roundE_mono (hf (EReal.coe_le_coe_iff.mp hab))

/-- An infinity read back from its packing. -/
theorem toEReal?_pack_infinity (n : Bool) :
    (ofFloat (Float.ofModel (pack (.infinity (sign n))))).toEReal? =
      some (roundedMap f (if n then ⊥ else ⊤)) := by
  rw [ofFloat_ofModel_pack_infinity]
  cases n <;> simp [toEReal?]

end RoundedMap

end Histograms.Binary64

open Histograms Histograms.Binary64

namespace Float

theorem lt_iff_compare (x y : Float) :
    x < y ↔ (ofFloat x).toUnpacked.compare (ofFloat y).toUnpacked = some .lt := by
  rw [toUnpacked_ofFloat, toUnpacked_ofFloat]
  simp only [LT.lt, Float.lt, decide_eq_true_eq]
  show (x.toModel.unpack.compare y.toModel.unpack == some .lt) = true ↔ _
  simp

theorem le_iff_compare (x y : Float) :
    x ≤ y ↔ ((ofFloat x).toUnpacked.compare (ofFloat y).toUnpacked).any (·.isLE) = true := by
  rw [toUnpacked_ofFloat, toUnpacked_ofFloat]
  simp only [LE.le, Float.le, decide_eq_true_eq]
  rfl

/-- **Floats are ordered by value**: `x < y` exactly when neither is NaN and the value of `x`
is below that of `y`. -/
theorem lt_iff_toEReal? (x y : Float) :
    x < y ↔ ∃ a b, (ofFloat x).toEReal? = some a ∧ (ofFloat y).toEReal? = some b ∧ a < b := by
  rw [lt_iff_compare]
  cases ha : (ofFloat x).toEReal? with
  | none => simp [compare_toUnpacked_of_nan (.inl ha)]
  | some a =>
    cases hb : (ofFloat y).toEReal? with
    | none => simp [compare_toUnpacked_of_nan (.inr hb)]
    | some b =>
      rw [compare_toUnpacked (valid_ofFloat x) (valid_ofFloat y) ha hb]
      simp [compare_lt_iff_lt]

/-- **Floats are ordered by value**: `x ≤ y` exactly when neither is NaN and the value of `x`
is at most that of `y`; `-0.0 ≤ +0.0` and `+0.0 ≤ -0.0` both hold. -/
theorem le_iff_toEReal? (x y : Float) :
    x ≤ y ↔ ∃ a b, (ofFloat x).toEReal? = some a ∧ (ofFloat y).toEReal? = some b ∧ a ≤ b := by
  rw [le_iff_compare]
  cases ha : (ofFloat x).toEReal? with
  | none => simp [compare_toUnpacked_of_nan (.inl ha)]
  | some a =>
    cases hb : (ofFloat y).toEReal? with
    | none => simp [compare_toUnpacked_of_nan (.inr hb)]
    | some b =>
      rw [compare_toUnpacked (valid_ofFloat x) (valid_ofFloat y) ha hb]
      simp [isLE_compare]

variable {x c : Float} {n : Bool} {m : ℕ} {e : ℤ} {a : EReal}

/-- **Subtracting a fixed finite float** rounds the difference of values; infinities stay. -/
theorem toEReal?_sub_right (hc : ofFloat c = .finite n m e) (hx : (ofFloat x).toEReal? = some a) :
    (ofFloat (x - c)).toEReal? = some (roundedMap (· - finiteValue n m e) a) := by
  cases hrx : ofFloat x with
  | nan => rw [hrx] at hx; cases hx
  | infinite nx =>
    rw [hrx, toEReal?, Option.some.injEq] at hx
    subst hx
    rw [sub_eq_pack, hrx, hc]
    by_cases hm : m = 0 <;> simp only [toUnpacked, hm, dite_true, dite_false, UnpackedFloat.sub] <;>
      exact toEReal?_pack_infinity nx
  | finite nx mx ex =>
    rw [hrx, toEReal?, Option.some.injEq] at hx
    subst hx
    rw [toEReal?_sub hrx hc, roundedMap_coe]

/-- **Dividing by a fixed float above zero** rounds the quotient of values; infinities stay. -/
theorem toEReal?_div_right (hc : ofFloat c = .finite false m e) (hm : 0 < m)
    (hx : (ofFloat x).toEReal? = some a) :
    (ofFloat (x / c)).toEReal? = some (roundedMap (· / finiteValue false m e) a) := by
  cases hrx : ofFloat x with
  | nan => rw [hrx] at hx; cases hx
  | infinite nx =>
    rw [hrx, toEReal?, Option.some.injEq] at hx
    subst hx
    rw [div_eq_pack, hrx, hc]
    simp only [toUnpacked, dif_neg hm.ne', UnpackedFloat.div, sign_div_sign, Bool.bne_false]
    exact toEReal?_pack_infinity nx
  | finite nx mx ex =>
    rw [hrx, toEReal?, Option.some.injEq] at hx
    subst hx
    rw [toEReal?_div hrx hc hm, roundedMap_coe]

/-- **Multiplying by a fixed float above zero** rounds the product of values; infinities stay. -/
theorem toEReal?_mul_right (hc : ofFloat c = .finite false m e) (hm : 0 < m)
    (hx : (ofFloat x).toEReal? = some a) :
    (ofFloat (x * c)).toEReal? = some (roundedMap (· * finiteValue false m e) a) := by
  cases hrx : ofFloat x with
  | nan => rw [hrx] at hx; cases hx
  | infinite nx =>
    rw [hrx, toEReal?, Option.some.injEq] at hx
    subst hx
    rw [mul_eq_pack, hrx, hc]
    simp only [toUnpacked, dif_neg hm.ne', UnpackedFloat.mul, sign_mul_sign, Bool.bne_false]
    exact toEReal?_pack_infinity nx
  | finite nx mx ex =>
    rw [hrx, toEReal?, Option.some.injEq] at hx
    subst hx
    rw [toEReal?_mul hrx hc, roundedMap_coe]

end Float
