import Histograms.Proofs.Rebuild
/-!
# Counts compare by value

A count denotes an extended real: an integer count its number, a float count the value of its
bits, `± mant * 2 ^ exp` for a finite float (both zeros denote `0`), `⊤` or `⊥` for an
infinity, and nothing for NaN (`Count.value?`). Equality of counts is equality of what they
denote: floats compare as floats, and every other pair compares the whole numbers the two
sides denote, a float counting only when it is whole and not below zero.

For two floats this rests on the float model's comparison, which reads the exponent first and
the mantissa second. That is equality of values because a float's bits give one mantissa and
exponent per value (`Binary64.finite_eq_of_finiteValue_eq`): a normal mantissa has its top bit
set, and only the least exponent has subnormals.

Main statements:

* `Float.beq_iff_toEReal?` — two floats are equal exactly when they denote the same value.
* `Binary64.toEReal?_eq_natCast_iff` — a float denotes a natural number exactly when it is the
  whole float of it.
* `Count.beq_iff_value?` — two counts are equal exactly when they denote the same value.
* `Counts.beq_iff_value?` — two stores are equal exactly when they have the same length and
  their cells denote the same values, whatever widths hold them.
* `Count.beq_iff_same_value` — equality is an equivalence on counts that are not NaN.
-/

open Float.Model UnpackedFloat

namespace Histograms.Binary64

/-- A finite reading of a zero, of either sign. -/
def IsZero : Binary64 → Prop
  | .finite _ mant _ => mant = 0
  | _ => False

/-- The value `± mant * 2 ^ exp` of a finite reading. -/
noncomputable def finiteValue (negative : Bool) (mant : Nat) (exp : Int) : ℝ :=
  (if negative then -(mant : ℝ) else mant) * 2 ^ exp

/-- The extended real a reading denotes; NaN denotes none. -/
noncomputable def toEReal? : Binary64 → Option EReal
  | .nan => none
  | .infinite negative => some (if negative then ⊥ else ⊤)
  | .finite negative mant exp => some (finiteValue negative mant exp)

theorem finiteValue_eq_zero_iff (negative : Bool) (mant : Nat) (exp : Int) :
    finiteValue negative mant exp = 0 ↔ mant = 0 := by
  cases negative <;> simp [finiteValue, zpow_ne_zero]

theorem toEReal?_of_isZero {r : Binary64} (h : r.IsZero) : r.toEReal? = some 0 := by
  cases r with
  | finite n m e =>
    rw [toEReal?, (finiteValue_eq_zero_iff n m e).mpr h]
    rfl
  | _ => exact h.elim

/-! ### One mantissa and exponent per value -/

/-- The bounds of a finite reading: a mantissa below `2 ^ 53`, an exponent from `-1074` on, and
the top bit set above the least exponent. -/
theorem ofFloat_finite_bounds {x : Float} {negative : Bool} {mant : Nat} {exp : Int}
    (h : ofFloat x = .finite negative mant exp) :
    mant < 2 ^ 53 ∧ -1074 ≤ exp ∧ (-1074 < exp → 2 ^ 52 ≤ mant) := by
  rcases ofFloat_finite_cases h with ⟨rfl, hsmall⟩ | ⟨hlo, hhi, hexp, -⟩
  · refine ⟨by omega, le_refl _, fun hlt => absurd hlt (lt_irrefl _)⟩
  · exact ⟨hhi, hexp, fun _ => hlo⟩

/-- Equal values, the left exponent not above the right: the left mantissa is the right one
shifted by the difference. -/
theorem mant_eq_of_value_eq {m m' : Nat} {e e' : Int} (hle : e ≤ e')
    (h : (m : ℝ) * 2 ^ e = m' * 2 ^ e') : m = m' * 2 ^ (e' - e).toNat := by
  have hpow : (2 : ℝ) ^ e' = 2 ^ e * 2 ^ (e' - e).toNat := by
    rw [← zpow_natCast, ← zpow_add₀ two_ne_zero, Int.toNat_of_nonneg (by omega)]
    congr 1
    ring
  have hshift : (m : ℝ) * 2 ^ e = (m' * 2 ^ (e' - e).toNat) * 2 ^ e := by
    rw [h, hpow]
    ring
  exact_mod_cast mul_right_cancel₀ (zpow_ne_zero e two_ne_zero) hshift

section Canonical

variable {x y : Float} {m m' : Nat} {e e' : Int} {n n' : Bool}

/-- Two float readings of one positive value, the left exponent not above the right, have the
same exponent: a larger right exponent would leave the left mantissa with more than 53 bits. -/
theorem exp_eq_of_value_eq (hx : ofFloat x = .finite n m e) (hy : ofFloat y = .finite n' m' e')
    (hle : e ≤ e') (h : (m : ℝ) * 2 ^ e = m' * 2 ^ e') : e = e' := by
  have hmant := mant_eq_of_value_eq hle h
  obtain ⟨hx53, hx1074, -⟩ := ofFloat_finite_bounds hx
  obtain ⟨-, -, hy52⟩ := ofFloat_finite_bounds hy
  by_contra hne
  have htop : 2 ^ 52 ≤ m' := hy52 (by omega)
  have hshift : 2 ^ 1 ≤ 2 ^ (e' - e).toNat := Nat.pow_le_pow_right (by decide) (by omega)
  have hbig : 2 ^ 52 * 2 ^ 1 ≤ m' * 2 ^ (e' - e).toNat := Nat.mul_le_mul htop hshift
  omega

/-- **Float readings are canonical.** Two finite readings of one non-zero value have the same
sign, mantissa and exponent. -/
theorem finite_eq_of_finiteValue_eq (hx : ofFloat x = .finite n m e)
    (hy : ofFloat y = .finite n' m' e') (hm : m ≠ 0)
    (h : finiteValue n m e = finiteValue n' m' e') : n = n' ∧ m = m' ∧ e = e' := by
  have hm' : m' ≠ 0 := by
    intro hm'
    apply hm
    rw [← finiteValue_eq_zero_iff n m e, h, finiteValue_eq_zero_iff]
    exact hm'
  have hpos : (0 : ℝ) < m * 2 ^ e := by positivity
  have hpos' : (0 : ℝ) < m' * 2 ^ e' := by positivity
  -- a value and its sign fix the sign bit; then both sides are positive values
  have hsame : n = n' ∧ (m : ℝ) * 2 ^ e = m' * 2 ^ e' := by
    cases n <;> cases n' <;> simp only [finiteValue, Bool.false_eq_true, ↓reduceIte, neg_mul, neg_inj] at h <;>
      first
      | exact ⟨rfl, h⟩
      | linarith
  obtain ⟨rfl, hval⟩ := hsame
  have hexp : e = e' := by
    rcases le_total e e' with hle | hle
    · exact exp_eq_of_value_eq hx hy hle hval
    · exact (exp_eq_of_value_eq hy hx hle hval.symm).symm
  subst hexp
  refine ⟨rfl, ?_, rfl⟩
  simpa using mant_eq_of_value_eq (le_refl e) hval

end Canonical

/-! ### Equality of floats -/

/-- The float model's equality on two readings: both are zeros, or they are the same reading of
a value that is neither NaN nor zero. -/
theorem beq_toUnpacked_iff (r r' : Binary64) :
    r.toUnpacked.beq r'.toUnpacked = true ↔
      (r.IsZero ∧ r'.IsZero) ∨ (r = r' ∧ r ≠ .nan ∧ ¬ r.IsZero) := by
  cases r with
  | nan => cases r' <;> simp [toUnpacked, UnpackedFloat.beq, UnpackedFloat.compare, IsZero]
  | infinite n =>
    cases r' with
    | nan => simp [toUnpacked, UnpackedFloat.beq, UnpackedFloat.compare, IsZero]
    | infinite n' =>
      cases n <;> cases n' <;>
        simp [toUnpacked, UnpackedFloat.beq, UnpackedFloat.compare, IsZero, sign, compare]
    | finite n' m' e' =>
      by_cases hm' : m' = 0 <;> cases n <;> cases n' <;>
        simp [toUnpacked, UnpackedFloat.beq, UnpackedFloat.compare, IsZero, sign, hm']
  | finite n m e =>
    cases r' with
    | nan =>
      by_cases hm : m = 0 <;> simp [toUnpacked, UnpackedFloat.beq, UnpackedFloat.compare, IsZero, hm]
    | infinite n' =>
      by_cases hm : m = 0 <;> cases n <;> cases n' <;>
        simp [toUnpacked, UnpackedFloat.beq, UnpackedFloat.compare, IsZero, sign, hm]
    | finite n' m' e' =>
      -- two finite values: zeros compare equal, other values by sign, exponent and mantissa
      by_cases hm : m = 0 <;> by_cases hm' : m' = 0 <;> cases n <;> cases n' <;>
        simp [toUnpacked, UnpackedFloat.beq, UnpackedFloat.compare, IsZero, sign, hm, hm', and_comm]

/-- Two float readings denote one value exactly when both are zeros or they are the same
reading of a value that is neither NaN nor zero. -/
theorem exists_toEReal?_iff {x y : Float} :
    (∃ v, (ofFloat x).toEReal? = some v ∧ (ofFloat y).toEReal? = some v) ↔
      ((ofFloat x).IsZero ∧ (ofFloat y).IsZero) ∨
        (ofFloat x = ofFloat y ∧ ofFloat x ≠ .nan ∧ ¬ (ofFloat x).IsZero) := by
  constructor
  · rintro ⟨v, hx, hy⟩
    cases hrx : ofFloat x with
    | nan => rw [hrx] at hx; cases hx
    | infinite n =>
      rw [hrx, toEReal?] at hx
      cases hry : ofFloat y with
      | nan => rw [hry] at hy; cases hy
      | infinite n' =>
        rw [hry, toEReal?, ← hx] at hy
        -- two infinities are equal when their signs are
        cases n <;> cases n' <;> simp at hy <;> exact .inr ⟨rfl, by simp, by simp [IsZero]⟩
      | finite n' m' e' =>
        rw [hry, toEReal?, ← hx] at hy
        cases n <;> simp at hy
    | finite n m e =>
      rw [hrx, toEReal?] at hx
      cases hry : ofFloat y with
      | nan => rw [hry] at hy; cases hy
      | infinite n' =>
        rw [hry, toEReal?, ← hx] at hy
        cases n' <;> simp at hy
      | finite n' m' e' =>
        rw [hry, toEReal?, ← hx] at hy
        have hval : finiteValue n m e = finiteValue n' m' e' := by
          exact_mod_cast (Option.some.inj hy).symm
        by_cases hm : m = 0
        · -- a zero is only equal to a zero
          have hm' : m' = 0 := by
            rw [← finiteValue_eq_zero_iff n' m' e', ← hval, finiteValue_eq_zero_iff]
            exact hm
          exact .inl ⟨hm, hm'⟩
        · obtain ⟨rfl, rfl, rfl⟩ := finite_eq_of_finiteValue_eq hrx hry hm hval
          exact .inr ⟨rfl, by simp, hm⟩
  · rintro (⟨hzx, hzy⟩ | ⟨hxy, hnan, -⟩)
    · exact ⟨0, toEReal?_of_isZero hzx, toEReal?_of_isZero hzy⟩
    · rw [← hxy]
      cases hrx : ofFloat x with
      | nan => exact absurd hrx hnan
      | infinite n => exact ⟨_, rfl, rfl⟩
      | finite n m e => exact ⟨_, rfl, rfl⟩

end Histograms.Binary64

open Histograms Histograms.Binary64

/-- **Floats compare by value.** Two floats are equal exactly when neither is NaN and they
denote the same extended real; `+0.0` and `-0.0` both denote `0`. -/
theorem Float.beq_iff_toEReal? (x y : Float) :
    (x == y) = true ↔ ∃ v, (ofFloat x).toEReal? = some v ∧ (ofFloat y).toEReal? = some v := by
  change x.toModel.unpack.beq y.toModel.unpack = true ↔ _
  rw [← toUnpacked_ofFloat, ← toUnpacked_ofFloat, beq_toUnpacked_iff, exists_toEReal?_iff]

theorem Float.isNaN_eq_false_iff (x : Float) : x.isNaN = false ↔ (ofFloat x).toEReal?.isSome := by
  change x.toModel.unpack.isNaN = false ↔ _
  rw [← toUnpacked_ofFloat]
  cases ofFloat x with
  | nan => simp [toUnpacked, UnpackedFloat.isNaN, toEReal?]
  | infinite n => simp [toUnpacked, UnpackedFloat.isNaN, toEReal?]
  | finite n m e => by_cases hm : m = 0 <;> simp [toUnpacked, UnpackedFloat.isNaN, toEReal?, hm]

namespace Histograms.Binary64

/-- A finite value is the natural number `n` exactly when it is not below zero and its
mantissa and exponent give `n`, cross-multiplied as `Float.DenotesNat` states it. -/
theorem finiteValue_eq_natCast_iff {negative : Bool} {mant n : Nat} {exp : Int} :
    finiteValue negative mant exp = n ↔
      (negative = false ∨ mant = 0) ∧ mant * 2 ^ exp.toNat = n * 2 ^ (-exp).toNat := by
  have hexp : (2 : ℝ) ^ exp = 2 ^ exp.toNat / 2 ^ (-exp).toNat := by
    rw [← zpow_natCast, ← zpow_natCast, ← zpow_sub₀ two_ne_zero]
    congr 1
    omega
  have hvalue : (mant : ℝ) * 2 ^ exp = n ↔ mant * 2 ^ exp.toNat = n * 2 ^ (-exp).toNat := by
    rw [hexp, ← mul_div_assoc, div_eq_iff (by positivity)]
    exact_mod_cast Iff.rfl
  cases negative with
  | false => simpa [finiteValue] using hvalue
  | true =>
    by_cases hm : mant = 0
    · simp [finiteValue, hm, eq_comm]
    · -- a negative value is no natural number
      have hpos : (0 : ℝ) < mant * 2 ^ exp := by positivity
      have hn : (0 : ℝ) ≤ n := Nat.cast_nonneg n
      simp only [finiteValue, if_true, neg_mul, Bool.true_eq_false, false_or, hm, false_and,
        iff_false]
      linarith

/-- A float denotes the natural number `n` exactly when it is a whole float worth `n`. -/
theorem toEReal?_eq_natCast_iff {x : Float} {n : Nat} :
    (ofFloat x).toEReal? = some ((n : ℝ) : EReal) ↔ x.DenotesNat n := by
  unfold Float.DenotesNat
  cases ofFloat x with
  | nan => simp [toEReal?]
  | infinite negative =>
    -- an infinity is no natural number, and no finite reading
    refine iff_of_false (fun h => ?_) fun ⟨_, _, _, hr, _⟩ => Binary64.noConfusion hr
    cases negative
    · exact EReal.coe_ne_top _ (Option.some.inj h).symm
    · exact EReal.coe_ne_bot _ (Option.some.inj h).symm
  | finite negative mant exp =>
    simp only [toEReal?, Option.some.injEq, EReal.coe_eq_coe_iff, finiteValue_eq_natCast_iff,
      Binary64.finite.injEq]
    constructor
    · exact fun h => ⟨negative, mant, exp, ⟨rfl, rfl, rfl⟩, h⟩
    · rintro ⟨_, _, _, ⟨rfl, rfl, rfl⟩, h⟩
      exact h

end Histograms.Binary64

/-! ### Counts -/

namespace Histograms

namespace Count

/-- The extended real a count denotes: an integer count its number, a float count the value of
its float; NaN denotes none. -/
noncomputable def value? : Count → Option EReal
  | .int n => some (n : ℝ)
  | .big n => some (n : ℝ)
  | .real x => (Binary64.ofFloat x).toEReal?

theorem value?_eq_natCast_iff (c : Count) (n : Nat) :
    c.value? = some ((n : ℝ) : EReal) ↔ c.toNat? = some n := by
  cases c with
  | int m | big m => simp [value?, toNat?]
  | real x => rw [value?, toEReal?_eq_natCast_iff, toNat?, Float.toNat?_eq_some_iff]

theorem value?_isSome_iff (c : Count) : c.value?.isSome ↔ c.isNaN = false := by
  cases c with
  | int m | big m => simp [value?, isNaN]
  | real x => rw [value?, isNaN, Float.isNaN_eq_false_iff]

/-- When one side denotes the whole number `k`, sharing a value with it is denoting `k`. -/
theorem exists_value?_iff {a : Count} {k : Nat} (ha : a.value? = some ((k : ℝ) : EReal))
    (b : Count) : (∃ v, a.value? = some v ∧ b.value? = some v) ↔ b.toNat? = some k := by
  rw [← value?_eq_natCast_iff, ha]
  constructor
  · rintro ⟨v, hv, hb⟩
    rw [hb, ← hv]
  · exact fun hb => ⟨_, rfl, hb⟩

theorem exists_value?_comm (a b : Count) :
    (∃ v, a.value? = some v ∧ b.value? = some v) ↔ ∃ v, b.value? = some v ∧ a.value? = some v :=
  exists_congr fun _ => and_comm

/-- A whole-number count against a float compares the float's whole number, if it has one. -/
theorem beq_real_iff {a : Count} {k : Nat} (ha : a.toNat? = some k) (hreal : ∀ y, a ≠ .real y)
    (x : Float) : (a == .real x) = true ↔ x.toNat? = some k := by
  cases a with
  | real y => exact absurd rfl (hreal y)
  | int m | big m =>
    simp only [toNat?, Option.some.injEq] at ha
    subst ha
    cases hx : x.toNat? <;> simp [BEq.beq, Count.beq, toNat?, hx, eq_comm]

theorem real_beq_iff {a : Count} {k : Nat} (ha : a.toNat? = some k) (hreal : ∀ y, a ≠ .real y)
    (x : Float) : (Count.real x == a) = true ↔ x.toNat? = some k := by
  cases a with
  | real y => exact absurd rfl (hreal y)
  | int m | big m =>
    simp only [toNat?, Option.some.injEq] at ha
    subst ha
    cases hx : x.toNat? <;> simp [BEq.beq, Count.beq, toNat?, hx]

/-- **Counts compare by value.** Two counts are equal exactly when neither is NaN and both
denote the same extended real. -/
theorem beq_iff_value? (a b : Count) :
    (a == b) = true ↔ ∃ v, a.value? = some v ∧ b.value? = some v := by
  cases a with
  | int m | big m =>
    -- a whole-number count: compare with the other side's whole number
    rw [exists_value?_iff (k := m) rfl]
    cases b with
    | int n | big n => simp [BEq.beq, Count.beq, toNat?, eq_comm]
    | real y => exact beq_real_iff rfl (fun _ h => Count.noConfusion h) y
  | real x =>
    cases b with
    | int n | big n =>
      rw [exists_value?_comm, exists_value?_iff (k := n) rfl]
      exact real_beq_iff rfl (fun _ h => Count.noConfusion h) x
    | real y => exact Float.beq_iff_toEReal? x y

theorem beq_self_iff (a : Count) : (a == a) = true ↔ a.isNaN = false := by
  rw [beq_iff_value?, ← value?_isSome_iff, Option.isSome_iff_exists]
  exact exists_congr fun _ => and_self_iff

theorem beq_symm {a b : Count} (h : (a == b) = true) : (b == a) = true := by
  rw [beq_iff_value?] at h ⊢
  exact (exists_value?_comm a b).mp h

theorem beq_trans {a b c : Count} (hab : (a == b) = true) (hbc : (b == c) = true) :
    (a == c) = true := by
  rw [beq_iff_value?] at hab hbc ⊢
  obtain ⟨v, ha, hb⟩ := hab
  obtain ⟨v', hb', hc⟩ := hbc
  rw [hb] at hb'
  exact ⟨v, ha, Option.some.inj hb' ▸ hc⟩

end Count

/-- **Stores compare by value.** Two counting stores are equal exactly when they have the same
length and each cell of one denotes the value of the same cell of the other, whatever widths or
floats hold them. -/
theorem Counts.beq_iff_value? (s t : Counts) :
    (s == t) = true ↔
      s.size = t.size ∧ ∀ i < s.size, ∃ v, (s.get i).value? = some v ∧ (t.get i).value? = some v := by
  change Counts.beq s t = true ↔ _
  simp only [Counts.beq, Bool.and_eq_true, beq_iff_eq, List.all_eq_true, List.mem_range,
    Count.beq_iff_value?]

/-- **Equality compares values, not representations.** Two counts are equal exactly when
neither is NaN and both denote the same extended real: an integer count its number, a float
count its value, `+0.0` and `-0.0` both `0`. So equality is reflexive exactly on counts that
are not NaN, and symmetric and transitive on all; comparing with an integer is denoting that
integer, and comparing with a float is denoting the float's value; and two counting stores are
equal exactly when they have the same length and cellwise equal values. -/
theorem Count.beq_iff_same_value :
    (∀ a b : Count, (a == b) = true ↔ ∃ v, a.value? = some v ∧ b.value? = some v) ∧
      (∀ a : Count, (a == a) = true ↔ a.isNaN = false) ∧
      (∀ a b : Count, (a == b) = true → (b == a) = true) ∧
      (∀ a b c : Count, (a == b) = true → (b == c) = true → (a == c) = true) ∧
      (∀ (a : Count) (n : Nat), (a == .int n) = true ↔ a.value? = some ((n : ℝ) : EReal)) ∧
      (∀ (a : Count) (x : Float), (a == .real x) = true ↔
        ∃ v, a.value? = some v ∧ (Binary64.ofFloat x).toEReal? = some v) ∧
      (∀ s t : Counts, (s == t) = true ↔ s.size = t.size ∧
        ∀ i < s.size, ∃ v, (s.get i).value? = some v ∧ (t.get i).value? = some v) := by
  refine ⟨Count.beq_iff_value?, Count.beq_self_iff, fun _ _ => Count.beq_symm,
    fun _ _ _ => Count.beq_trans, fun a n => ?_, fun a x => Count.beq_iff_value? a (.real x),
    Counts.beq_iff_value?⟩
  rw [Count.beq_iff_value?, Count.exists_value?_comm, Count.exists_value?_iff (k := n) rfl,
    Count.value?_eq_natCast_iff]

/-- The float `-0.0` is not NaN, so it equals itself; it denotes `0`, so it equals the integer
count `0`. -/
theorem Count.beq_iff_same_value_negative_zero :
    (Count.real (-0.0)).isNaN = false ∧ (Count.real (-0.0) == Count.real (-0.0)) = true ∧
      (Count.real (-0.0) == Count.int 0) = true := by
  have hnan : (Count.real (-0.0)).isNaN = false := by decide +kernel
  have hread : Binary64.ofFloat (-0.0) = .finite true 0 Binary64.minExp := by decide +kernel
  obtain ⟨-, hself, -, -, hint, -⟩ := Count.beq_iff_same_value
  refine ⟨hnan, (hself _).mpr hnan, (hint _ 0).mpr ?_⟩
  rw [Count.value?, hread, Binary64.toEReal?_of_isZero (r := .finite true 0 Binary64.minExp) rfl]
  simp

end Histograms
