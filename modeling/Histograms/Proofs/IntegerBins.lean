import Histograms.Proofs.Packing
import Histograms.Proofs.ValueEquality
/-!
# Integer bins of real coordinates

An integer axis bins a real coordinate by its floor: `Float.floorExact` gives the greatest
whole float not above it, and `Float.truncClamp` converts that float to a signed 64-bit word,
saturating at the ends. The floor of a float is computed exactly: a whole float is its own
floor, and the floor of any other is `±` its whole part, one further down below zero. So the
word is the floor `⌊x⌋` clamped to `[wordMin, wordMax]`, the infinities go to the two ends,
and the bin is that of the clamped floor.

The axis bounds are words too. Clamping keeps every floor in the axis range, and every floor
from `max` up lands at or above `max`. Below the range a floor stays below `min` unless it is
clamped up to `wordMin`: when `min` is `wordMin` itself, every real below `min` (`-∞`
included) is clamped onto `min` and lands in bin `0`, not in the underflow bin.

Main statements:

* `Binary64.floor_finiteValue` — the floor of a finite value, from its mantissa and exponent.
* `Float.truncClamp_floorExact` — the word of the floor is the clamped floor.
* `Axis.Integer.index_by_floor` — the bin of every integer and every real coordinate.
-/

open Float.Model Histograms Histograms.Binary64

namespace Histograms.Binary64

/-- A finite value as a fraction: its signed mantissa times the positive part of its exponent,
over the negative part. -/
theorem finiteValue_eq_div (negative : Bool) (mant : Nat) (exp : Int) :
    finiteValue negative mant exp =
      (if negative then -((mant * 2 ^ exp.toNat : Nat) : ℝ) else ((mant * 2 ^ exp.toNat : Nat) : ℝ)) /
        2 ^ (-exp).toNat := by
  have hpow : (2 : ℝ) ^ exp = 2 ^ exp.toNat / 2 ^ (-exp).toNat := by
    conv_lhs => rw [show exp = (exp.toNat : Int) - ((-exp).toNat : Int) by omega]
    rw [zpow_sub₀ two_ne_zero, zpow_natCast, zpow_natCast]
  rw [finiteValue, hpow]
  cases negative <;> simp <;> ring

/-- `W` is the floor of `m / 2 ^ k` when `W * 2 ^ k ≤ m < (W + 1) * 2 ^ k`. -/
theorem floor_div_two_pow {m W k : Nat} (hlo : W * 2 ^ k ≤ m) (hhi : m < (W + 1) * 2 ^ k) :
    ⌊(m : ℝ) / 2 ^ k⌋ = W := by
  have hpos : (0 : ℝ) < 2 ^ k := by positivity
  rw [Int.floor_eq_iff]
  constructor
  · rw [le_div_iff₀ hpos]
    exact_mod_cast hlo
  · rw [div_lt_iff₀ hpos]
    exact_mod_cast hhi

/-- `-(m / 2 ^ k)` has floor `-(W + 1)` when `W * 2 ^ k < m ≤ (W + 1) * 2 ^ k`. -/
theorem floor_neg_div_two_pow {m W k : Nat} (hlo : W * 2 ^ k < m) (hhi : m ≤ (W + 1) * 2 ^ k) :
    ⌊-(m : ℝ) / 2 ^ k⌋ = -((W : Int) + 1) := by
  have hpos : (0 : ℝ) < 2 ^ k := by positivity
  have h1 : (W : ℝ) < m / 2 ^ k := by
    rw [lt_div_iff₀ hpos]
    exact_mod_cast hlo
  have h2 : (m : ℝ) / 2 ^ k ≤ W + 1 := by
    rw [div_le_iff₀ hpos]
    exact_mod_cast hhi
  rw [Int.floor_eq_iff, neg_div]
  push_cast
  constructor <;> linarith

/-- A whole value is the signed whole part. -/
theorem finiteValue_of_isWhole {n : Bool} {m : ℕ} {e : ℤ} (h : IsWhole m e) :
    finiteValue n m e = ((if n then -(wholePart m e : ℤ) else wholePart m e : ℤ) : ℝ) := by
  have hval : ((m * 2 ^ e.toNat : ℕ) : ℝ) = (wholePart m e : ℝ) * 2 ^ (-e).toNat := by
    exact_mod_cast (wholePart_eq_iff (n := wholePart m e)).mp ⟨h, rfl⟩
  have hpos : (2 : ℝ) ^ (-e).toNat ≠ 0 := by positivity
  rw [finiteValue_eq_div, hval]
  cases n <;> simp [neg_div, mul_div_cancel_right₀ _ hpos]

/-- **The floor of a finite value.** A whole value is its own floor; any other is its whole
part above zero, and one below minus its whole part below zero. -/
theorem floor_finiteValue (negative : Bool) (mant : Nat) (exp : Int) :
    ⌊finiteValue negative mant exp⌋ =
      if IsWhole mant exp then (if negative then -(wholePart mant exp : Int) else wholePart mant exp)
      else (if negative then -((wholePart mant exp : Int) + 1) else wholePart mant exp) := by
  by_cases hwhole : IsWhole mant exp
  · rw [if_pos hwhole, finiteValue_of_isWhole hwhole, Int.floor_intCast]
  · -- a value that is not whole has a negative exponent and leaves a remainder
    rw [if_neg hwhole, finiteValue_eq_div]
    have hexp : exp < 0 := by
      by_contra h
      exact hwhole (.inl (by omega))
    have hrem : mant % 2 ^ (-exp).toNat ≠ 0 := fun h => hwhole (.inr h)
    have hW : wholePart mant exp = mant / 2 ^ (-exp).toNat := by
      simp [wholePart, show ¬ 0 ≤ exp by omega]
    have hdiv := Nat.div_add_mod mant (2 ^ (-exp).toNat)
    have hmod := Nat.mod_lt mant (Nat.two_pow_pos (-exp).toNat)
    have hlo : mant / 2 ^ (-exp).toNat * 2 ^ (-exp).toNat < mant := by
      rw [Nat.mul_comm]
      omega
    have hhi : mant < (mant / 2 ^ (-exp).toNat + 1) * 2 ^ (-exp).toNat := by
      rw [Nat.add_mul, Nat.one_mul, Nat.mul_comm]
      omega
    rw [show exp.toNat = 0 by omega, Nat.pow_zero, Nat.mul_one, hW]
    cases negative
    · exact floor_div_two_pow hlo.le hhi
    · exact floor_neg_div_two_pow hlo hhi.le

end Histograms.Binary64

namespace Float

variable {lo hi : Int}

/-- The word of a whole float not below zero is its worth, clamped. -/
theorem truncClamp_of_toNat? {y : Float} {k : Nat} (hy : y.toNat? = some k) :
    y.truncClamp lo hi = max lo (min hi k) := by
  obtain ⟨negative, mant, exp, hread, hsign, hval⟩ := Float.toNat?_eq_some_iff.mp hy
  obtain ⟨-, hW⟩ := wholePart_eq_iff.mpr hval
  unfold truncClamp
  rw [hread]
  cases negative
  · simp [hW]
  · -- a negative zero is worth `0`
    obtain rfl : mant = 0 := hsign.resolve_left (by simp)
    obtain rfl : k = 0 := by rw [← hW]; simp [wholePart]
    simp [wholePart]

/-- The word of the negation of a whole float not below zero is minus its worth, clamped. -/
theorem truncClamp_neg_of_toNat? {y : Float} {k : Nat} (hy : y.toNat? = some k) :
    (-y).truncClamp lo hi = max lo (min hi (-(k : Int))) := by
  obtain ⟨negative, mant, exp, hread, hsign, hval⟩ := Float.toNat?_eq_some_iff.mp hy
  obtain ⟨-, hW⟩ := wholePart_eq_iff.mpr hval
  unfold truncClamp
  rw [ofFloat_neg, hread]
  cases negative
  · simp [Binary64.neg, hW]
  · obtain rfl : mant = 0 := hsign.resolve_left (by simp)
    obtain rfl : k = 0 := by rw [← hW]; simp [wholePart]
    simp [Binary64.neg, wholePart]

/-- The whole part of a finite value that is not whole is below `2 ^ 52`: its exponent is
negative, and the mantissa has at most 53 bits. -/
theorem wholePart_lt_of_not_isWhole {x : Float} {negative : Bool} {mant : Nat} {exp : Int}
    (hx : ofFloat x = .finite negative mant exp) (hwhole : ¬ IsWhole mant exp) :
    wholePart mant exp < 2 ^ 52 := by
  have hexp : exp < 0 := by
    by_contra h
    exact hwhole (.inl (by omega))
  have hmant : mant < 2 ^ 53 := (ofFloat_finite_bounds hx).1
  have h2 : 2 ≤ 2 ^ (-exp).toNat := by
    calc 2 = 2 ^ 1 := rfl
      _ ≤ 2 ^ (-exp).toNat := Nat.pow_le_pow_right (by decide) (by omega)
  simp only [wholePart, show ¬ 0 ≤ exp by omega, if_false]
  exact Nat.lt_of_le_of_lt (Nat.div_le_div_left h2 (by decide)) (by omega)

/-- **The word of the floor is the clamped floor.** For a finite float, converting its
`floorExact` to a word gives `⌊x⌋` clamped to `[lo, hi]`. -/
theorem truncClamp_floorExact {x : Float} {negative : Bool} {mant : Nat} {exp : Int}
    (hx : ofFloat x = .finite negative mant exp) :
    x.floorExact.truncClamp lo hi = max lo (min hi ⌊finiteValue negative mant exp⌋) := by
  rw [floor_finiteValue]
  unfold floorExact
  rw [hx]
  dsimp only
  split
  · next hwhole =>
    unfold truncClamp
    rw [hx]
  · next hwhole =>
    have hW : wholePart mant exp < 2 ^ 52 := wholePart_lt_of_not_isWhole hx hwhole
    cases negative
    · simpa using truncClamp_of_toNat? (Float.toNat?_ofNat (k := wholePart mant exp) (by omega))
    · simpa using truncClamp_neg_of_toNat? (Float.toNat?_ofNat (k := wholePart mant exp + 1) (by omega))

theorem truncClamp_infinite {x : Float} {negative : Bool} (hx : ofFloat x = .infinite negative) :
    x.floorExact.truncClamp lo hi = if negative then lo else hi := by
  unfold floorExact truncClamp
  rw [hx]
  dsimp only
  rw [hx]

end Float

namespace Histograms.Axis.Integer

theorem wordMin_lt_wordMax : wordMin < wordMax := by decide

variable (a : Integer)

/-- A real coordinate: NaN goes to the overflow bin, any other real to the bin of its clamped
floor. -/
theorem index_real (x : Float) :
    a.index [.real x] =
      .ok (if x.isNaN then a.size else a.bin (x.floorExact.truncClamp wordMin wordMax)) := by
  have h : a.index [.real x] =
      if x.isNaN then .ok a.size else .ok (a.bin (x.floorExact.truncClamp wordMin wordMax)) := rfl
  rw [h]
  split <;> rfl

theorem index_int (i : Int) : a.index [.int i] = .ok (a.bin i) := rfl

variable {a}

/-- A word from `max` up is in the overflow bin. -/
theorem bin_of_max_le {w : Int} (hw : a.max ≤ w) : a.bin w = a.size := by
  have := a.min_lt
  simp only [bin]
  rw [if_neg (by omega), if_pos hw]

/-- A word in `[min, max)` is in bin `w - min`. -/
theorem bin_of_mem {w : Int} (hmin : a.min ≤ w) (hmax : w < a.max) : a.bin w = w - a.min := by
  simp only [bin]
  rw [if_neg (by omega), if_neg (by omega)]

section Bounds

/- The axis bounds are signed 64-bit words. -/
variable (hlo : wordMin ≤ a.min)
include hlo

/-- The least word is in the underflow bin, unless it is `min` itself. -/
theorem bin_wordMin : a.bin wordMin = if a.min = wordMin then 0 else -1 := by
  have := a.min_lt
  by_cases hmin : a.min = wordMin
  · rw [if_pos hmin, ← hmin, bin_of_mem (le_refl _) this, Int.sub_self]
  · rw [if_neg hmin]
    simp only [bin]
    rw [if_pos (by omega)]

variable (hhi : a.max ≤ wordMax)
include hhi

/-- A word below `min`, clamped to the word range, is in the underflow bin, unless `min` is
the least word, onto which the clamp lifts it. -/
theorem bin_clamp_of_lt_min {w : Int} (hw : w < a.min) :
    a.bin (Max.max wordMin (Min.min wordMax w)) = if a.min = wordMin then 0 else -1 := by
  have hrange := wordMin_lt_wordMax
  by_cases hsmall : w < wordMin
  · -- the clamp lifts `w` to the least word
    rw [min_eq_right (by omega), max_eq_left (by omega)]
    exact bin_wordMin hlo
  · have := a.min_lt
    rw [min_eq_right (by omega), max_eq_right (by omega), if_neg (by omega)]
    simp only [bin]
    rw [if_pos hw]

/-- **The bin of every coordinate.** An integer `i` is in the underflow bin below `min`, the
overflow bin from `max` up, and bin `i - min` in between. A real is in the overflow bin when it
is NaN or at least `max`, and in bin `⌊x⌋ - min` in `[min, max)`. Below `min` it is in the
underflow bin, except when `min` is the least 64-bit word: then the saturating conversion
puts every real below `min`, `-∞` included, in bin `0`. -/
theorem index_by_floor :
    (∀ i : Int, a.index [.int i] =
      .ok (if i < a.min then -1 else if a.max ≤ i then (a.size : Int) else i - a.min)) ∧
    (∀ x : Float, x.isNaN = true → a.index [.real x] = .ok a.size) ∧
    (∀ (x : Float) (v : EReal), (ofFloat x).toEReal? = some v →
      ((((a.max : ℝ) : EReal) ≤ v → a.index [.real x] = .ok a.size) ∧
      (∀ r : ℝ, v = r → (a.min : ℝ) ≤ r → r < a.max → a.index [.real x] = .ok (⌊r⌋ - a.min)) ∧
      (v < ((a.min : ℝ) : EReal) → a.index [.real x] = .ok (if a.min = wordMin then 0 else -1)))) := by
  have hlt := a.min_lt
  have hrange := wordMin_lt_wordMax
  refine ⟨fun i => index_int a i, fun x hnan => by rw [index_real, if_pos hnan], ?_⟩
  intro x v hv
  have hnan : x.isNaN = false := (Float.isNaN_eq_false_iff x).mpr (by rw [hv]; rfl)
  rw [index_real, hnan, if_neg Bool.false_ne_true]
  cases hread : ofFloat x with
  | nan => rw [hread] at hv; cases hv
  | infinite negative =>
    rw [Float.truncClamp_infinite hread]
    rw [hread] at hv
    simp only [toEReal?, Option.some.injEq] at hv
    subst hv
    cases negative
    · -- `+∞` is above every bound and saturates at the largest word
      refine ⟨fun _ => congrArg Except.ok (bin_of_max_le hhi), ?_, ?_⟩
      · rintro r hr - -
        exact absurd hr.symm (EReal.coe_ne_top r)
      · intro htop
        exact absurd htop (not_lt.mpr le_top)
    · -- `-∞` is below every bound and saturates at the least word
      refine ⟨fun hle => ?_, ?_, fun _ => congrArg Except.ok (bin_wordMin hlo)⟩
      · exact absurd hle (not_le.mpr (EReal.bot_lt_coe _))
      · rintro r hr - -
        exact absurd hr.symm (EReal.coe_ne_bot r)
  | finite negative mant exp =>
    rw [Float.truncClamp_floorExact hread]
    rw [hread] at hv
    have hv' : v = (finiteValue negative mant exp : EReal) := (Option.some.inj hv).symm
    subst hv'
    refine ⟨fun hle => ?_, fun r hr hmin hmax => ?_, fun hlt' => ?_⟩
    · -- from `max` up, the floor is at least `max`
      have hfloor : a.max ≤ ⌊finiteValue negative mant exp⌋ :=
        Int.le_floor.mpr (by exact_mod_cast EReal.coe_le_coe_iff.mp hle)
      exact congrArg Except.ok (bin_of_max_le (by omega))
    · -- in range, the floor is in range and the clamp keeps it
      have hr' : finiteValue negative mant exp = r := EReal.coe_eq_coe_iff.mp hr
      rw [hr']
      have h1 : a.min ≤ ⌊r⌋ := Int.le_floor.mpr (by exact_mod_cast hmin)
      have h2 : ⌊r⌋ < a.max := Int.floor_lt.mpr (by exact_mod_cast hmax)
      rw [min_eq_right (by omega), max_eq_right (by omega)]
      exact congrArg Except.ok (bin_of_mem h1 h2)
    · -- below `min`, the floor is below `min`
      have hfloor : ⌊finiteValue negative mant exp⌋ < a.min :=
        Int.floor_lt.mpr (by exact_mod_cast EReal.coe_lt_coe_iff.mp hlt')
      exact congrArg Except.ok (bin_clamp_of_lt_min hlo hhi hfloor)

end Bounds

/-- On the axis `[wordMin, wordMin + 2)` the real `-1e19`, below `min`, lands in bin `0`. -/
theorem index_by_floor_below_least_word :
    (⟨wordMin, wordMin + 2, .flows, by decide, by decide⟩ : Integer).index [.real (-1e19)] = .ok 0 := by
  have hread : ofFloat (-1e19) = .finite true 4882812500000000 11 := by decide +kernel
  have h := ((index_by_floor (a := ⟨wordMin, wordMin + 2, .flows, by decide, by decide⟩)
    (by decide) (by decide)).2.2 _ _ (by rw [hread]; rfl)).2.2
  rw [if_pos rfl] at h
  apply h
  rw [EReal.coe_lt_coe_iff, finiteValue]
  norm_num [wordMin]

/-- `-∞` is below every bound, yet on the axis `[wordMin, wordMin + 2)` it is not in the
underflow bin. -/
theorem index_negative_infinity_at_least_word :
    (⟨wordMin, wordMin + 2, .flows, by decide, by decide⟩ : Integer).index [.real (-(1.0 / 0.0))] ≠
      .ok (-1) := by
  have h : (⟨wordMin, wordMin + 2, .flows, by decide, by decide⟩ : Integer).index
      [.real (-(1.0 / 0.0))] = .ok 0 := by rfl
  rw [h]
  intro h'
  cases h'

end Histograms.Axis.Integer
