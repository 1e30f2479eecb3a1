import Histograms.Proofs.FloatOrder
import Histograms.Proofs.IntegerBins
import Histograms.Session.Decode
/-!
# Regular bins follow the order of the reals

A regular axis bins a real by computing `z = (x - min) / delta` in binary64, wrapping it into
`[0, 1)` on a circular axis, and then truncating `z * bins`. Each of these operations rounds a
monotone function of its operand's value, so the bin is a monotone function of `x` as long as
`delta` is finite. The range is respected where rounding cannot cross it: from `max` up the
position reaches `1` and the bin is `bins`, from `min` up the position is not below `0`, and
NaN goes to `bins`.

What rounding can do is move a value just below `min` onto the position `-0.0`, which is not
below `0` and so lands in bin `0`; a value just below `max` can likewise reach bin `bins`. On a
circular axis the wrapped position is never below `0`, so no bin is `-1`.

Main statements:

* `Axis.Regular.bin_mono_of_position` — the bin is monotone in the value of the position.
* `Axis.Regular.bin_respects_range` — the order and range facts of the binning rule.
* `Axis.Regular.nanFree_of_make`, `Session.Json.toAxes_nanFree` — an accepted axis has no NaN
  bound or width, so every axis a request describes equals itself.
-/

open Float.Model UnpackedFloat

namespace Histograms.Binary64

/-! ### Readings by value -/

/-- A reading worth more than `0` is a float above zero or `+∞`. -/
theorem eq_of_toEReal?_pos {r : Binary64} {v : EReal} (h : r.toEReal? = some v) (hv : 0 < v) :
    (∃ m e, 0 < m ∧ r = .finite false m e) ∨ r = .infinite false := by
  cases r with
  | nan => cases h
  | infinite n =>
    cases n with
    | false => exact .inr rfl
    | true =>
      simp only [toEReal?, if_true, Option.some.injEq] at h
      subst h
      exact absurd hv (not_lt.mpr bot_le)
  | finite n m e =>
    simp only [toEReal?, Option.some.injEq] at h
    subst h
    have hm : 0 < m := Nat.pos_of_ne_zero fun hm => by simp [hm] at hv
    cases n with
    | false => exact .inl ⟨m, e, hm, rfl⟩
    | true => exact absurd (EReal.coe_pos.mp hv) (not_lt.mpr (finiteValue_true_neg hm).le)

/-- Only `+∞` is worth `⊤`. -/
theorem eq_infinite_of_toEReal?_top {r : Binary64} (h : r.toEReal? = some ⊤) :
    r = .infinite false := by
  cases r with
  | nan => cases h
  | infinite n => cases n <;> simp_all [toEReal?]
  | finite n m e => simp [toEReal?] at h

/-- Every finite value is a whole multiple of `2 ^ minExp`, the least subnormal. -/
theorem exists_finiteValue_eq_mul {n : Bool} {m : ℕ} {e : ℤ} (he : minExp ≤ e) :
    ∃ k : ℤ, finiteValue n m e = k * 2 ^ minExp := by
  have hpow : (2 : ℝ) ^ e = 2 ^ (e - minExp).toNat * 2 ^ minExp := by
    rw [← zpow_natCast, Int.toNat_of_nonneg (by omega), ← zpow_add₀ two_ne_zero, sub_add_cancel]
  refine ⟨(if n then -1 else 1) * (m * 2 ^ (e - minExp).toNat : ℕ), ?_⟩
  cases n <;> simp [finiteValue, hpow] <;> ring

/-- Two distinct values of floats lie at least `2 ^ minExp` apart. -/
theorem two_zpow_le_sub_of_lt {x y : Float} {n n' : Bool} {m m' : ℕ} {e e' : ℤ}
    (hx : ofFloat x = .finite n m e) (hy : ofFloat y = .finite n' m' e')
    (h : finiteValue n m e < finiteValue n' m' e') :
    2 ^ minExp ≤ finiteValue n' m' e' - finiteValue n m e := by
  obtain ⟨k, hk⟩ := exists_finiteValue_eq_mul (n := n) (m := m) (ofFloat_finite_bounds hx).2.1
  obtain ⟨k', hk'⟩ := exists_finiteValue_eq_mul (n := n') (m := m') (ofFloat_finite_bounds hy).2.1
  have hpos : (0 : ℝ) < 2 ^ minExp := by positivity
  rw [hk, hk'] at h ⊢
  have hlt : k < k' := by exact_mod_cast lt_of_mul_lt_mul_right h hpos.le
  have hone : (1 : ℝ) ≤ k' - k := by exact_mod_cast (by omega : (1 : ℤ) ≤ k' - k)
  calc (2 : ℝ) ^ minExp = 1 * 2 ^ minExp := (one_mul _).symm
    _ ≤ (k' - k) * 2 ^ minExp := mul_le_mul_of_nonneg_right hone hpos.le
    _ = k' * 2 ^ minExp - k * 2 ^ minExp := sub_mul _ _ _

/-- The least subnormal rounds to itself. -/
theorem roundE_two_zpow_minExp : roundE (2 ^ minExp) = ((2 ^ minExp : ℝ) : EReal) := by
  have hvalid : Valid (.finite false 1 minExp) := .inl ⟨rfl, by norm_num⟩
  have h := roundE_finiteValue hvalid
  simpa [finiteValue] using h

/-- **The difference of two distinct floats rounds above zero**: it is at least the least
subnormal, which rounds to itself. -/
theorem roundE_sub_pos {x y : Float} {n n' : Bool} {m m' : ℕ} {e e' : ℤ}
    (hx : ofFloat x = .finite n m e) (hy : ofFloat y = .finite n' m' e')
    (h : finiteValue n m e < finiteValue n' m' e') :
    0 < roundE (finiteValue n' m' e' - finiteValue n m e) :=
  calc (0 : EReal) < ((2 ^ minExp : ℝ) : EReal) := EReal.coe_pos.mpr (by positivity)
    _ = roundE (2 ^ minExp) := roundE_two_zpow_minExp.symm
    _ ≤ roundE (finiteValue n' m' e' - finiteValue n m e) := roundE_mono (two_zpow_le_sub_of_lt hx hy h)

@[simp] theorem roundE_one : roundE 1 = 1 := by
  have hvalid : Valid (.finite false (2 ^ 52) (-52)) := .inr ⟨le_rfl, by norm_num, by norm_num, by norm_num⟩
  have h := roundE_finiteValue hvalid
  norm_num [finiteValue] at h
  exact_mod_cast h

/-- A value between `0` and `2 ^ 1023` rounds without overflow. -/
theorem roundE_of_le_two_pow {v : ℝ} (hv0 : 0 ≤ v) (hv : v ≤ 2 ^ 1023) :
    roundE v = (roundMag v : EReal) := by
  have htop : roundMag (2 ^ 1023) = 2 ^ 1023 := by
    simpa using roundMag_of_lt (M := 1) (E := 1023) (by norm_num) (by simp [minExp])
  have hle : roundMag v ≤ 2 ^ 1023 := htop ▸ roundMag_mono hv0 hv
  have hlt : ¬ (2 : ℝ) ^ 1024 ≤ roundMag v :=
    not_le.mpr (hle.trans_lt (pow_lt_pow_right₀ (by norm_num) (by norm_num)))
  rw [roundE_of_nonneg hv0, roundMagE, if_neg hlt]

end Histograms.Binary64

open Histograms Histograms.Binary64

namespace Float

/-! ### Readings of the floats the binning rule builds -/

theorem isFinite_iff_exists {x : Float} :
    x.isFinite = true ↔ ∃ n m e, ofFloat x = .finite n m e := by
  change x.toModel.unpack.isFinite = true ↔ _
  rw [← toUnpacked_ofFloat]
  cases ofFloat x with
  | nan => simp [toUnpacked, UnpackedFloat.isFinite]
  | infinite n => simp [toUnpacked, UnpackedFloat.isFinite]
  | finite n m e => by_cases hm : m = 0 <;> simp [toUnpacked, UnpackedFloat.isFinite, hm]

theorem isNaN_iff {x : Float} : x.isNaN = true ↔ ofFloat x = .nan := by
  change x.toModel.unpack.isNaN = true ↔ _
  rw [← toUnpacked_ofFloat]
  cases ofFloat x with
  | nan => simp [toUnpacked, UnpackedFloat.isNaN]
  | infinite n => simp [toUnpacked, UnpackedFloat.isNaN]
  | finite n m e => by_cases hm : m = 0 <;> simp [toUnpacked, UnpackedFloat.isNaN, hm]

variable {x y : Float} {a b : EReal}

theorem le_iff_of_toEReal? (hx : (ofFloat x).toEReal? = some a) (hy : (ofFloat y).toEReal? = some b) :
    x ≤ y ↔ a ≤ b := by
  simp [le_iff_toEReal?, hx, hy]

theorem lt_iff_of_toEReal? (hx : (ofFloat x).toEReal? = some a) (hy : (ofFloat y).toEReal? = some b) :
    x < y ↔ a < b := by
  simp [lt_iff_toEReal?, hx, hy]

/-- Floats that are not NaN are totally ordered. -/
theorem lt_of_not_le (hx : x.isNaN = false) (hy : y.isNaN = false) (h : ¬ y ≤ x) : x < y := by
  obtain ⟨a, ha⟩ := Option.isSome_iff_exists.mp ((isNaN_eq_false_iff x).mp hx)
  obtain ⟨b, hb⟩ := Option.isSome_iff_exists.mp ((isNaN_eq_false_iff y).mp hy)
  rw [lt_iff_of_toEReal? ha hb]
  rw [le_iff_of_toEReal? hb ha] at h
  exact not_le.mp h

theorem isNaN_eq_false_of_isFinite (h : x.isFinite = true) : x.isNaN = false := by
  obtain ⟨n, m, e, hx⟩ := isFinite_iff_exists.mp h
  exact (isNaN_eq_false_iff x).mpr (by simp [hx, toEReal?])

theorem toEReal?_one : (ofFloat 1.0).toEReal? = some 1 := by
  have h : ofFloat 1.0 = .finite false (2 ^ 52) (-52) := by decide +kernel
  rw [h]
  norm_num [toEReal?, finiteValue]

theorem toEReal?_zero : (ofFloat 0.0).toEReal? = some 0 := by
  simp [ofFloat_zero, toEReal?]

/-- A natural number below `2 ^ 53` converts to a float worth it. -/
theorem exists_ofFloat_ofNat {k : ℕ} (hk : k < 2 ^ 53) :
    ∃ n m e, ofFloat (Float.ofNat k) = .finite n m e ∧ finiteValue n m e = k := by
  obtain ⟨n, m, e, hread, hsign, hval⟩ := Float.toNat?_eq_some_iff.mp (Float.toNat?_ofNat hk)
  exact ⟨n, m, e, hread, finiteValue_eq_natCast_iff.mpr ⟨hsign, hval⟩⟩

/-- A natural number above zero converts to a float above zero. -/
theorem ofFloat_ofNat_of_pos {k : ℕ} (hk0 : 0 < k) (hk : k < 2 ^ 53) :
    ∃ m e, 0 < m ∧ ofFloat (Float.ofNat k) = .finite false m e ∧ finiteValue false m e = k := by
  obtain ⟨n, m, e, hread, hval⟩ := exists_ofFloat_ofNat hk
  have hpos : (0 : EReal) < ((finiteValue n m e : ℝ) : EReal) := by
    rw [hval]
    exact_mod_cast hk0
  rcases eq_of_toEReal?_pos (r := .finite n m e) rfl hpos with ⟨m', e', hm', heq⟩ | heq
  · cases heq
    exact ⟨m, e, hm', hread, hval⟩
  · cases heq

/-- **The floor of a finite float** is a finite float worth the floor of its value. -/
theorem exists_ofFloat_floorExact {x : Float} {n : Bool} {m : ℕ} {e : ℤ}
    (hx : ofFloat x = .finite n m e) :
    ∃ n' m' e', ofFloat x.floorExact = .finite n' m' e' ∧
      finiteValue n' m' e' = ⌊finiteValue n m e⌋ := by
  unfold floorExact
  rw [hx]
  dsimp only
  split
  · next hwhole =>
    refine ⟨n, m, e, hx, ?_⟩
    rw [finiteValue_of_isWhole hwhole, Int.floor_intCast]
  · next hwhole =>
    have hW : wholePart m e < 2 ^ 52 := wholePart_lt_of_not_isWhole hx hwhole
    rw [floor_finiteValue, if_neg hwhole]
    cases n with
    | false =>
      obtain ⟨n', m', e', hread, hval⟩ := exists_ofFloat_ofNat (k := wholePart m e) (by omega)
      exact ⟨n', m', e', hread, by simpa using hval⟩
    | true =>
      obtain ⟨n', m', e', hread, hval⟩ := exists_ofFloat_ofNat (k := wholePart m e + 1) (by omega)
      refine ⟨!n', m', e', by rw [if_pos rfl, ofFloat_neg, hread]; rfl, ?_⟩
      rw [finiteValue_not, hval]
      push_cast
      simp

/-- An infinity or NaN is its own floor. -/
theorem floorExact_of_not_finite {x : Float} (hx : ∀ n m e, ofFloat x ≠ .finite n m e) :
    x.floorExact = x := by
  unfold floorExact
  cases h : ofFloat x with
  | nan => rfl
  | infinite n => rfl
  | finite n m e => exact absurd h (hx n m e)

/-- An infinity less itself, and NaN less itself, is NaN. -/
theorem ofFloat_sub_self_of_not_finite {x : Float} (hx : ∀ n m e, ofFloat x ≠ .finite n m e) :
    ofFloat (x - x) = .nan := by
  rw [sub_eq_pack]
  cases h : ofFloat x with
  | nan => exact ofFloat_ofModel_pack_nan
  | infinite n =>
    cases n <;> exact ofFloat_ofModel_pack_nan
  | finite n m e => exact absurd h (hx n m e)

theorem ofFloat_sub_of_nan {x : Float} (hx : ofFloat x = .nan) (y : Float) :
    ofFloat (x - y) = .nan := by
  rw [sub_eq_pack, hx]
  exact ofFloat_ofModel_pack_nan

theorem ofFloat_div_of_nan {x : Float} (hx : ofFloat x = .nan) (y : Float) :
    ofFloat (x / y) = .nan := by
  rw [div_eq_pack, hx]
  exact ofFloat_ofModel_pack_nan

/-- An infinity over an infinity is NaN. -/
theorem ofFloat_div_infinite {x y : Float} {nx ny : Bool} (hx : ofFloat x = .infinite nx)
    (hy : ofFloat y = .infinite ny) : ofFloat (x / y) = .nan := by
  rw [div_eq_pack, hx, hy]
  exact ofFloat_ofModel_pack_nan

/-- A finite float over an infinity is a zero. -/
theorem toEReal?_div_infinite {x y : Float} {n : Bool} {m : ℕ} {e : ℤ} {ny : Bool}
    (hx : ofFloat x = .finite n m e) (hy : ofFloat y = .infinite ny) :
    (ofFloat (x / y)).toEReal? = some 0 := by
  rw [div_eq_pack, hx, hy]
  by_cases hm : m = 0 <;> simp only [toUnpacked, hm, dite_true, dite_false, UnpackedFloat.div] <;>
    exact toEReal?_pack_zero _

variable {lo hi : Int}

/-- Truncating a float not below zero is taking the floor of its value, clamped. -/
theorem truncClamp_of_nonneg {y : Float} {p : ℝ} (hy : (ofFloat y).toEReal? = some (p : EReal))
    (hp : 0 ≤ p) : y.truncClamp lo hi = max lo (min hi ⌊p⌋) := by
  unfold truncClamp
  cases hr : ofFloat y with
  | nan => rw [hr] at hy; cases hy
  | infinite n => rw [hr] at hy; cases n <;> simp [toEReal?] at hy
  | finite n m e =>
    rw [hr, toEReal?, Option.some.injEq, EReal.coe_eq_coe_iff] at hy
    subst hy
    rw [floor_finiteValue]
    cases n with
    | false => simp
    | true =>
      -- a negative float not below zero is `-0.0`
      obtain rfl : m = 0 := by
        by_contra hm
        exact absurd hp (not_le.mpr (finiteValue_true_neg (Nat.pos_of_ne_zero hm)))
      simp [wholePart, IsWhole]

end Float

namespace Histograms.Axis.Regular

/-! ### The bin of a position

The binning rule looks at the position only through its value: NaN and values from `1` up go to
`bins`, values below `0` to `-1`, and a value `r` in `[0, 1)` to the floor of `r * bins` after
rounding. -/

section Binning

variable {a : Regular} {x y : Float} {v w : EReal}

theorem bins_lt_two_pow (a : Regular) : a.bins < 2 ^ 31 := by
  have h := a.bins_lt
  simp only [Axis.maxBins] at h
  omega

/-- The bin count converts to a float above zero worth it. -/
theorem ofFloat_ofNat_bins (a : Regular) :
    ∃ m e, 0 < m ∧ ofFloat (Float.ofNat a.bins) = .finite false m e ∧
      finiteValue false m e = a.bins :=
  Float.ofFloat_ofNat_of_pos a.bins_pos (by have h := a.bins_lt_two_pow; omega)

/-- A value in `[0, 1)` is a real one. -/
theorem exists_real_of_mem (h0 : 0 ≤ v) (h1 : v < 1) : ∃ r : ℝ, v = r ∧ 0 ≤ r ∧ r < 1 := by
  induction v using EReal.rec with
  | bot => exact absurd h0 (not_le.mpr EReal.bot_lt_zero)
  | top => exact absurd h1 (not_lt.mpr le_top)
  | coe r => exact ⟨r, rfl, by exact_mod_cast h0, by exact_mod_cast h1⟩

theorem bin_of_isNaN (h : ofFloat (a.position x) = .nan) : a.bin x = a.bins := by
  simp only [bin, Float.isNaN_iff.mpr h, Bool.true_or, ↓reduceIte]

theorem bin_of_one_le (h : (ofFloat (a.position x)).toEReal? = some v) (hv : 1 ≤ v) :
    a.bin x = a.bins := by
  have hle : 1.0 ≤ a.position x := (Float.le_iff_of_toEReal? Float.toEReal?_one h).mpr hv
  simp only [bin, decide_eq_true hle, Bool.or_true, ↓reduceIte]

/-- A position worth less than `1` is neither NaN nor past the range. -/
theorem not_past_of_lt_one (h : (ofFloat (a.position x)).toEReal? = some v) (hv : v < 1) :
    ((a.position x).isNaN || decide (1.0 ≤ a.position x)) = false := by
  have hnan : (a.position x).isNaN = false := (Float.isNaN_eq_false_iff _).mpr (by simp [h])
  have hle : ¬ 1.0 ≤ a.position x := by
    rw [Float.le_iff_of_toEReal? Float.toEReal?_one h]
    exact not_le.mpr hv
  rw [hnan, decide_eq_false hle, Bool.or_false]

theorem bin_of_neg (h : (ofFloat (a.position x)).toEReal? = some v) (hv : v < 0) :
    a.bin x = -1 := by
  have hlt : a.position x < 0.0 := (Float.lt_iff_of_toEReal? h Float.toEReal?_zero).mpr hv
  simp only [bin, not_past_of_lt_one h (hv.trans zero_lt_one), Bool.false_eq_true, ↓reduceIte,
    if_pos hlt]

/-- On a position worth `r` in `[0, 1)` the bin is the floor of `r * bins` rounded, clamped to a
word and capped at the last bin. The product stays below `2 ^ 31`, so it does not overflow. -/
theorem bin_of_mem {r : ℝ} (h : (ofFloat (a.position x)).toEReal? = some (r : EReal))
    (h0 : 0 ≤ r) (h1 : r < 1) :
    a.bin x =
      Min.min (Max.max (-2147483648) (Min.min 2147483647 ⌊roundMag (r * a.bins)⌋)) (a.bins - 1) := by
  have hpast := not_past_of_lt_one h (by exact_mod_cast h1)
  have hlt : ¬ a.position x < 0.0 := by
    rw [Float.lt_iff_of_toEReal? h Float.toEReal?_zero]
    exact not_lt.mpr (by exact_mod_cast h0)
  have hsmall : r * a.bins ≤ 2 ^ 1023 :=
    calc r * a.bins ≤ 1 * 2 ^ 31 :=
          mul_le_mul h1.le (by exact_mod_cast a.bins_lt_two_pow.le) (by positivity) zero_le_one
      _ ≤ 2 ^ 1023 := by
          rw [one_mul]
          exact pow_le_pow_right₀ (by norm_num) (by norm_num)
  obtain ⟨m, e, hm, hread, hval⟩ := ofFloat_ofNat_bins a
  have hprod := Float.toEReal?_mul_right hread hm h
  rw [roundedMap_coe, hval, roundE_of_le_two_pow (by positivity) hsmall] at hprod
  simp only [bin, hpast, Bool.false_eq_true, ↓reduceIte, if_neg hlt]
  rw [Float.truncClamp_of_nonneg hprod (roundMag_nonneg (by positivity))]

/-- **The three outcomes of the binning rule**, by the value of the position. -/
theorem bin_cases (h : (ofFloat (a.position x)).toEReal? = some v) :
    (1 ≤ v ∧ a.bin x = a.bins) ∨ (v < 0 ∧ a.bin x = -1) ∨
      (0 ≤ v ∧ v < 1 ∧ 0 ≤ a.bin x ∧ a.bin x < a.bins) := by
  rcases le_or_gt 1 v with h1 | h1
  · exact .inl ⟨h1, bin_of_one_le h h1⟩
  rcases lt_or_ge v 0 with h0 | h0
  · exact .inr (.inl ⟨h0, bin_of_neg h h0⟩)
  obtain ⟨r, rfl, hr0, hr1⟩ := exists_real_of_mem h0 h1
  have hfl : 0 ≤ ⌊roundMag (r * a.bins)⌋ := Int.floor_nonneg.mpr (roundMag_nonneg (by positivity))
  have hb := a.bins_pos
  rw [bin_of_mem h hr0 hr1]
  refine .inr (.inr ⟨h0, h1, ?_, ?_⟩) <;> omega

/-- **The bin is monotone in the value of the position.** -/
theorem bin_mono_of_position (hx : (ofFloat (a.position x)).toEReal? = some v)
    (hy : (ofFloat (a.position y)).toEReal? = some w) (hvw : v ≤ w) : a.bin x ≤ a.bin y := by
  rcases bin_cases hy with ⟨-, hby⟩ | ⟨hw, hby⟩ | ⟨hw0, hw1, hby, -⟩
  · -- `y` is past the range, and no bin is above `bins`
    rcases bin_cases hx with ⟨-, hbx⟩ | ⟨-, hbx⟩ | ⟨-, -, -, hbx⟩ <;> omega
  · -- `y` is below the range, so `x` is too
    rcases bin_cases hx with ⟨hv, -⟩ | ⟨-, hbx⟩ | ⟨hv, -⟩
    · exact absurd (hv.trans (hvw.trans hw.le)) (by norm_num)
    · omega
    · exact absurd (hv.trans_lt (hvw.trans_lt hw)) (lt_irrefl 0)
  · rcases bin_cases hx with ⟨hv, -⟩ | ⟨-, hbx⟩ | ⟨hv0, hv1, -⟩
    · exact absurd (hv.trans hvw) (not_le.mpr hw1)
    · omega
    · -- both in `[0, 1)`: rounding and the floor are monotone
      obtain ⟨r, rfl, hr0, hr1⟩ := exists_real_of_mem hv0 hv1
      obtain ⟨s, rfl, hs0, hs1⟩ := exists_real_of_mem hw0 hw1
      have hrs : r ≤ s := by exact_mod_cast hvw
      have hfl : ⌊roundMag (r * a.bins)⌋ ≤ ⌊roundMag (s * a.bins)⌋ :=
        Int.floor_mono (roundMag_mono (by positivity) (mul_le_mul_of_nonneg_right hrs (by positivity)))
      rw [bin_of_mem hx hr0 hr1, bin_of_mem hy hs0 hs1]
      omega

/-- A position not below `0` gives a bin not below `0`. -/
theorem bin_nonneg_of_position (h : (ofFloat (a.position x)).toEReal? = some v) (hv : 0 ≤ v) :
    0 ≤ a.bin x := by
  rcases bin_cases h with ⟨-, hb⟩ | ⟨hneg, -⟩ | ⟨-, -, hb, -⟩
  · omega
  · exact absurd hneg (not_lt.mpr hv)
  · exact hb

end Binning

/-! ### The position -/

section Position

variable {a : Regular} {x : Float}

theorem position_of_not_circular (hc : a.options.circular = false) :
    a.position x = (x - a.min) / a.delta := by
  simp only [position, hc, Bool.false_eq_true, ↓reduceIte]

/-- On a circular axis a finite position is wrapped into `[0, 1)`: the position less its floor
rounds into `[0, 1]`, and `1` is taken back to `0`. -/
theorem exists_position_of_circular {n : Bool} {m : ℕ} {e : ℤ} (hc : a.options.circular = true)
    (hz : ofFloat ((x - a.min) / a.delta) = .finite n m e) :
    ∃ v, (ofFloat (a.position x)).toEReal? = some v ∧ 0 ≤ v ∧ v < 1 := by
  obtain ⟨n', m', e', hf, hfv⟩ := Float.exists_ofFloat_floorExact hz
  have hw := Float.toEReal?_sub hz hf
  rw [hfv] at hw
  set t := finiteValue n m e
  have hw0 : 0 ≤ roundE (t - ⌊t⌋) := roundE_nonneg (sub_nonneg.mpr (Int.floor_le t))
  have hw1 : roundE (t - ⌊t⌋) ≤ 1 := by
    rw [← roundE_one]
    exact roundE_mono (by linarith [Int.lt_floor_add_one t])
  simp only [position, hc, ↓reduceIte]
  by_cases h1 : 1.0 ≤ (x - a.min) / a.delta - ((x - a.min) / a.delta).floorExact
  · rw [if_pos h1]
    exact ⟨0, Float.toEReal?_zero, le_rfl, zero_lt_one⟩
  · rw [if_neg h1]
    refine ⟨_, hw, hw0, lt_of_le_of_ne hw1 fun heq => h1 ?_⟩
    exact (Float.le_iff_of_toEReal? Float.toEReal?_one hw).mpr heq.ge

/-- On a circular axis an infinite or NaN position stays NaN: it is its own floor, and it less
itself is NaN. -/
theorem position_of_circular_of_not_finite (hc : a.options.circular = true)
    (hz : ∀ n m e, ofFloat ((x - a.min) / a.delta) ≠ .finite n m e) :
    ofFloat (a.position x) = .nan := by
  have hnan := Float.ofFloat_sub_self_of_not_finite hz
  have h1 : ¬ 1.0 ≤ (x - a.min) / a.delta - (x - a.min) / a.delta := by
    rw [Float.le_iff_toEReal?]
    rintro ⟨_, _, -, h, -⟩
    rw [hnan] at h
    cases h
  simp only [position, hc, ↓reduceIte, Float.floorExact_of_not_finite hz]
  rw [if_neg h1, hnan]

/-- NaN has position NaN on every axis. -/
theorem position_of_nan (hx : ofFloat x = .nan) : ofFloat (a.position x) = .nan := by
  have hz : ofFloat ((x - a.min) / a.delta) = .nan :=
    Float.ofFloat_div_of_nan (Float.ofFloat_sub_of_nan hx _) _
  cases hc : a.options.circular
  · rw [position_of_not_circular hc]
    exact hz
  · exact position_of_circular_of_not_finite hc fun n m e h => by rw [hz] at h; cases h

/-! ### Without wrapping

The position is `(x - min) / delta`. Subtracting `min` and dividing by a finite `delta` above
zero are monotone, so everything is read off the value `Y` of `x - min`. -/

variable {nl : Bool} {ml : ℕ} {el : ℤ} {md : ℕ} {ed : ℤ} {X Y D : EReal}

theorem toEReal?_position (hc : a.options.circular = false) (hlo : ofFloat a.min = .finite nl ml el)
    (hd : ofFloat a.delta = .finite false md ed) (hmd : 0 < md) (hx : (ofFloat x).toEReal? = some X) :
    (ofFloat (a.position x)).toEReal? = some (roundedMap (· / finiteValue false md ed)
      (roundedMap (· - finiteValue nl ml el) X)) := by
  rw [position_of_not_circular hc]
  exact Float.toEReal?_div_right hd hmd (Float.toEReal?_sub_right hlo hx)

theorem monotone_div_finiteValue (hmd : 0 < md) : Monotone (· / finiteValue false md ed) :=
  fun _ _ h => div_le_div_of_nonneg_right h (finiteValue_false_pos hmd).le

theorem monotone_sub_finiteValue : Monotone (· - finiteValue nl ml el) :=
  fun _ _ h => sub_le_sub_right h _

/-- Once `x - min` reaches `delta` the bin is `bins`: the position is at least `delta / delta`,
which is `1`, or with an infinite `delta` it is `∞ / ∞`, which is NaN. -/
theorem bin_of_delta_le (hc : a.options.circular = false)
    (hD : (ofFloat a.delta).toEReal? = some D) (hDpos : 0 < D)
    (hY : (ofFloat (x - a.min)).toEReal? = some Y) (hDY : D ≤ Y) : a.bin x = a.bins := by
  rcases eq_of_toEReal?_pos hD hDpos with ⟨md, ed, hmd, hd⟩ | hd
  · rw [hd, toEReal?, Option.some.injEq] at hD
    subst hD
    have hz := Float.toEReal?_div_right hd hmd hY
    rw [← position_of_not_circular hc] at hz
    refine bin_of_one_le hz ?_
    calc (1 : EReal) = roundedMap (· / finiteValue false md ed) (finiteValue false md ed) := by
          rw [roundedMap_coe, div_self (finiteValue_false_pos hmd).ne', roundE_one]
      _ ≤ _ := roundedMap_mono (monotone_div_finiteValue hmd) hDY
  · rw [hd, toEReal?, Option.some.injEq] at hD
    simp only [Bool.false_eq_true, if_false] at hD
    subst hD
    obtain rfl : Y = ⊤ := top_le_iff.mp hDY
    apply bin_of_isNaN
    rw [position_of_not_circular hc]
    exact Float.ofFloat_div_infinite (eq_infinite_of_toEReal?_top hY) hd

/-- While `x - min` is not below `0` the bin is not below `0`. With an infinite `delta` the
position is `0` or NaN. -/
theorem bin_nonneg_of_nonneg (hc : a.options.circular = false)
    (hD : (ofFloat a.delta).toEReal? = some D) (hDpos : 0 < D)
    (hY : (ofFloat (x - a.min)).toEReal? = some Y) (hY0 : 0 ≤ Y) : 0 ≤ a.bin x := by
  rcases eq_of_toEReal?_pos hD hDpos with ⟨md, ed, hmd, hd⟩ | hd
  · have hz := Float.toEReal?_div_right hd hmd hY
    rw [← position_of_not_circular hc] at hz
    refine bin_nonneg_of_position hz ?_
    calc (0 : EReal) = roundedMap (· / finiteValue false md ed) 0 := by simp
      _ ≤ _ := roundedMap_mono (monotone_div_finiteValue hmd) hY0
  · cases hr : ofFloat (x - a.min) with
    | nan => rw [hr] at hY; cases hY
    | infinite n =>
      rw [bin_of_isNaN (by rw [position_of_not_circular hc]; exact Float.ofFloat_div_infinite hr hd)]
      omega
    | finite n m e =>
      have hz : (ofFloat (a.position x)).toEReal? = some 0 := by
        rw [position_of_not_circular hc]
        exact Float.toEReal?_div_infinite hr hd
      exact bin_nonneg_of_position hz le_rfl

/-- While `x - min` is at most `0` and `delta` finite, the bin is `-1`, or `0` when the position
rounds to a zero. -/
theorem bin_of_nonpos (hc : a.options.circular = false) (hd : ofFloat a.delta = .finite false md ed)
    (hmd : 0 < md) (hY : (ofFloat (x - a.min)).toEReal? = some Y) (hY0 : Y ≤ 0) :
    a.bin x = -1 ∨ (a.bin x = 0 ∧ (a.position x == 0.0) = true) := by
  have hz := Float.toEReal?_div_right hd hmd hY
  rw [← position_of_not_circular hc] at hz
  have hv : roundedMap (· / finiteValue false md ed) Y ≤ 0 :=
    calc _ ≤ roundedMap (· / finiteValue false md ed) 0 := roundedMap_mono (monotone_div_finiteValue hmd) hY0
      _ = 0 := by simp
  rcases bin_cases hz with ⟨h1, -⟩ | ⟨-, hb⟩ | ⟨h0, -, -, -⟩
  · exact absurd (h1.trans hv) (by norm_num)
  · exact .inl hb
  · -- the position is worth exactly `0`
    rw [le_antisymm hv h0] at hz
    refine .inr ⟨?_, (Float.beq_iff_toEReal? _ _).mpr ⟨0, hz, Float.toEReal?_zero⟩⟩
    rw [bin_of_mem (r := 0) (by simpa using hz) le_rfl zero_lt_one]
    have hb := a.bins_pos
    simp only [zero_mul, roundMag_zero, Int.floor_zero]
    omega

/-- With a finite `delta` the bin is monotone. -/
theorem bin_mono_of_finite (hc : a.options.circular = false) (hlo : ofFloat a.min = .finite nl ml el)
    (hd : ofFloat a.delta = .finite false md ed) (hmd : 0 < md) {y : Float} (hxy : x ≤ y) :
    a.bin x ≤ a.bin y := by
  obtain ⟨X, X', hX, hX', hXX'⟩ := (Float.le_iff_toEReal? x y).mp hxy
  exact bin_mono_of_position (toEReal?_position hc hlo hd hmd hX) (toEReal?_position hc hlo hd hmd hX')
    (roundedMap_mono (monotone_div_finiteValue hmd) (roundedMap_mono monotone_sub_finiteValue hXX'))

end Position

/-! ### An accepted axis -/

section Accepted

variable {bins : ℕ} {lo hi : Float} {options : AxisOptions} {a : Regular}

/-- **What an accepted axis holds**: the arguments, with `delta = max - min`, and bounds that are
finite and increasing. -/
theorem make_ok (h : make bins lo hi options = .ok a) :
    a.bins = bins ∧ a.min = lo ∧ a.delta = hi - lo ∧ a.options = options ∧
      lo.isFinite = true ∧ hi.isFinite = true ∧ lo < hi := by
  unfold make at h
  split_ifs at h with hb hc hu
  cases h
  simp only [Bool.not_eq_true', Bool.not_eq_false, Bool.and_eq_true, decide_eq_true_eq] at hc
  exact ⟨rfl, rfl, rfl, rfl, hc.1.1, hc.1.2, hc.2⟩

/-- The readings an accepted axis starts from: bounds worth `l < u`, and a width worth the
rounding of `u - l`. -/
theorem make_ok_readings (h : make bins lo hi options = .ok a) :
    ∃ nl ml el nh mh eh, ofFloat lo = .finite nl ml el ∧ ofFloat hi = .finite nh mh eh ∧
      finiteValue nl ml el < finiteValue nh mh eh ∧
      (ofFloat a.delta).toEReal? = some (roundE (finiteValue nh mh eh - finiteValue nl ml el)) := by
  obtain ⟨-, -, hdelta, -, hlofin, hhifin, hlt⟩ := make_ok h
  obtain ⟨nl, ml, el, hlo⟩ := Float.isFinite_iff_exists.mp hlofin
  obtain ⟨nh, mh, eh, hhi⟩ := Float.isFinite_iff_exists.mp hhifin
  have hl : (ofFloat lo).toEReal? = some ((finiteValue nl ml el : ℝ) : EReal) := by rw [hlo]; rfl
  have hu : (ofFloat hi).toEReal? = some ((finiteValue nh mh eh : ℝ) : EReal) := by rw [hhi]; rfl
  refine ⟨nl, ml, el, nh, mh, eh, hlo, hhi, ?_, by rw [hdelta]; exact Float.toEReal?_sub hhi hlo⟩
  exact_mod_cast (Float.lt_iff_of_toEReal? hl hu).mp hlt

/-- **An accepted axis has no NaN bound or width**: its lower bound is finite, and its width is
the rounding of a difference of finite bounds, an infinity at worst. -/
theorem nanFree_of_make (h : make bins lo hi options = .ok a) : (Axis.regular a).NaNFree := by
  obtain ⟨-, hmin, -, -, hlofin, -⟩ := make_ok h
  obtain ⟨_, _, _, _, _, _, -, -, -, hdelta⟩ := make_ok_readings h
  refine ⟨hmin ▸ Float.isNaN_eq_false_of_isFinite hlofin, (Float.isNaN_eq_false_iff _).mpr ?_⟩
  rw [hdelta]
  rfl

variable (hmake : make bins lo hi options = .ok a)
include hmake

/-- A finite width of an accepted axis is a float above zero. -/
theorem delta_finite (hfin : (hi - lo).isFinite = true) :
    ∃ md ed, 0 < md ∧ ofFloat a.delta = .finite false md ed := by
  obtain ⟨-, -, hdelta, -⟩ := make_ok hmake
  obtain ⟨nl, ml, el, nh, mh, eh, hlo, hhi, hlt, hD⟩ := make_ok_readings hmake
  rcases eq_of_toEReal?_pos hD (roundE_sub_pos hlo hhi hlt) with hd | hd
  · exact hd
  · obtain ⟨n, m, e, hr⟩ := Float.isFinite_iff_exists.mp (hdelta ▸ hfin)
    rw [hr] at hd
    cases hd

/-- NaN goes to `bins`. -/
theorem bin_eq_bins_of_isNaN {x : Float} (hx : x.isNaN = true) : a.bin x = bins := by
  obtain ⟨hbins, -⟩ := make_ok hmake
  rw [← hbins]
  exact bin_of_isNaN (position_of_nan (Float.isNaN_iff.mp hx))

/-- A bin other than `bins` is of a float that is not NaN. -/
theorem isNaN_eq_false_of_bin_ne {x : Float} (h : a.bin x ≠ bins) : x.isNaN = false := by
  cases hn : x.isNaN
  · rfl
  · exact absurd (bin_eq_bins_of_isNaN hmake hn) h

/-- **A circular axis never gives `-1`**, and gives a bin below `bins` whenever the position
before wrapping is finite; an infinite one, like NaN, goes to `bins`. -/
theorem bin_of_circular (hcirc : options.circular = true) (x : Float) :
    0 ≤ a.bin x ∧ (((x - lo) / (hi - lo)).isFinite = true → a.bin x < bins) := by
  obtain ⟨hbins, hmin, hdelta, hopts, -⟩ := make_ok hmake
  subst hbins hopts hmin
  rw [← hdelta]
  by_cases hfin : ((x - a.min) / a.delta).isFinite = true
  · obtain ⟨n, m, e, hz⟩ := Float.isFinite_iff_exists.mp hfin
    obtain ⟨v, hv, hv0, hv1⟩ := exists_position_of_circular hcirc hz
    rcases bin_cases hv with ⟨h1, -⟩ | ⟨hneg, -⟩ | ⟨-, -, hb0, hb1⟩
    · exact absurd h1 (not_le.mpr hv1)
    · exact absurd hneg (not_lt.mpr hv0)
    · exact ⟨hb0, fun _ => hb1⟩
  · have hnan := position_of_circular_of_not_finite hcirc fun n m e h =>
      hfin (Float.isFinite_iff_exists.mpr ⟨n, m, e, h⟩)
    rw [bin_of_isNaN hnan]
    exact ⟨by omega, fun h => absurd h hfin⟩

variable (hc : options.circular = false)
include hc

/-- **From `max` up** a flowing axis gives `bins`: `x - min` reaches the rounding of
`max - min`, which is `delta`. -/
theorem bin_of_max_le {x : Float} (hx : hi ≤ x) : a.bin x = bins := by
  obtain ⟨hbins, hmin, -, hopts, -⟩ := make_ok hmake
  obtain ⟨nl, ml, el, nh, mh, eh, hlo, hhi, hlt, hD⟩ := make_ok_readings hmake
  have hDpos := roundE_sub_pos hlo hhi hlt
  obtain ⟨H, X, hH, hX, hHX⟩ := (Float.le_iff_toEReal? hi x).mp hx
  rw [hhi, toEReal?, Option.some.injEq] at hH
  subst hH hbins hopts hmin
  refine bin_of_delta_le hc hD hDpos (Float.toEReal?_sub_right hlo hX) ?_
  calc roundE (finiteValue nh mh eh - finiteValue nl ml el)
      = roundedMap (· - finiteValue nl ml el) (finiteValue nh mh eh) := by simp
    _ ≤ roundedMap (· - finiteValue nl ml el) X := roundedMap_mono monotone_sub_finiteValue hHX

/-- **From `min` up** a flowing axis gives a bin not below `0`: `x - min` is not below `0`. -/
theorem bin_nonneg_of_min_le {x : Float} (hx : lo ≤ x) : 0 ≤ a.bin x := by
  obtain ⟨-, hmin, -, hopts, -⟩ := make_ok hmake
  obtain ⟨nl, ml, el, nh, mh, eh, hlo, hhi, hlt, hD⟩ := make_ok_readings hmake
  have hDpos := roundE_sub_pos hlo hhi hlt
  obtain ⟨L, X, hL, hX, hLX⟩ := (Float.le_iff_toEReal? lo x).mp hx
  rw [hlo, toEReal?, Option.some.injEq] at hL
  subst hL hopts hmin
  refine bin_nonneg_of_nonneg hc hD hDpos (Float.toEReal?_sub_right hlo hX) ?_
  calc (0 : EReal) = roundedMap (· - finiteValue nl ml el) (finiteValue nl ml el) := by simp
    _ ≤ roundedMap (· - finiteValue nl ml el) X := roundedMap_mono monotone_sub_finiteValue hLX

/-- A bin below `bins` is of a value below `max`. -/
theorem lt_max_of_bin_lt {x : Float} (h : a.bin x < bins) : x < hi := by
  obtain ⟨-, -, -, -, -, hhifin, -⟩ := make_ok hmake
  refine Float.lt_of_not_le (isNaN_eq_false_of_bin_ne hmake h.ne)
    (Float.isNaN_eq_false_of_isFinite hhifin) fun hle => ?_
  exact absurd (bin_of_max_le hmake hc hle) h.ne

/-- The bin `-1` is of a value below `min`. -/
theorem lt_min_of_bin_eq {x : Float} (h : a.bin x = -1) : x < lo := by
  obtain ⟨-, -, -, -, hlofin, -⟩ := make_ok hmake
  refine Float.lt_of_not_le (isNaN_eq_false_of_bin_ne hmake (by omega))
    (Float.isNaN_eq_false_of_isFinite hlofin) fun hle => ?_
  have hb := bin_nonneg_of_min_le hmake hc hle
  omega

/-- **While `max - min` is finite the bin is monotone.** -/
theorem bin_mono_of_delta_finite (hfin : (hi - lo).isFinite = true) {x y : Float} (hxy : x ≤ y) :
    a.bin x ≤ a.bin y := by
  obtain ⟨-, hmin, -, hopts, -⟩ := make_ok hmake
  obtain ⟨nl, ml, el, -, -, -, hlo, -⟩ := make_ok_readings hmake
  obtain ⟨md, ed, hmd, hd⟩ := delta_finite hmake hfin
  subst hopts hmin
  exact bin_mono_of_finite hc hlo hd hmd hxy

/-- **Below `min`** the bin is `-1`, or `0` where the position rounds to a zero; this needs
`max - min` finite. -/
theorem bin_of_lt_min (hfin : (hi - lo).isFinite = true) {x : Float} (hx : x < lo) :
    a.bin x = -1 ∨ (a.bin x = 0 ∧ (a.position x == 0.0) = true) := by
  obtain ⟨-, hmin, -, hopts, -⟩ := make_ok hmake
  obtain ⟨nl, ml, el, -, -, -, hlo, -⟩ := make_ok_readings hmake
  obtain ⟨md, ed, hmd, hd⟩ := delta_finite hmake hfin
  obtain ⟨X, L, hX, hL, hXL⟩ := (Float.lt_iff_toEReal? x lo).mp hx
  rw [hlo, toEReal?, Option.some.injEq] at hL
  subst hL hopts hmin
  refine bin_of_nonpos hc hd hmd (Float.toEReal?_sub_right hlo hX) ?_
  calc roundedMap (· - finiteValue nl ml el) X
      ≤ roundedMap (· - finiteValue nl ml el) (finiteValue nl ml el) :=
        roundedMap_mono monotone_sub_finiteValue hXL.le
    _ = 0 := by simp

end Accepted

/-- **Regular bins respect the order and the range of the reals**, as far as binary64 rounding
lets them. A real coordinate is binned by `bin`, and NaN goes to `bins`. Without wrapping, from
`max` up the bin is `bins` and from `min` up it is not below `0`, so `-1` is only ever the bin of
a value below `min` and a bin below `bins` that of a value below `max`. While `max - min` is
finite the bin is monotone, and a value below `min` goes to `-1` unless its position rounds to a
zero, which lands in bin `0`. A circular axis never gives `-1`, and gives a bin below `bins`
whenever the position before wrapping is finite. -/
theorem bin_respects_range {bins : ℕ} {lo hi : Float} {options : AxisOptions} {a : Regular}
    (hmake : make bins lo hi options = .ok a) :
    (∀ x, a.index [.real x] = .ok (a.bin x)) ∧
    (∀ x : Float, x.isNaN = true → a.bin x = bins) ∧
    (options.circular = false →
      (∀ x, hi ≤ x → a.bin x = bins) ∧ (∀ x, a.bin x < bins → x < hi) ∧
      (∀ x, lo ≤ x → 0 ≤ a.bin x) ∧ (∀ x, a.bin x = -1 → x < lo) ∧
      ((hi - lo).isFinite = true →
        (∀ x y, x ≤ y → a.bin x ≤ a.bin y) ∧
        (∀ x, x < lo → a.bin x = -1 ∨ (a.bin x = 0 ∧ (a.position x == 0.0) = true)))) ∧
    (options.circular = true →
      ∀ x, 0 ≤ a.bin x ∧ (((x - lo) / (hi - lo)).isFinite = true → a.bin x < bins)) :=
  ⟨fun _ => rfl, fun _ => bin_eq_bins_of_isNaN hmake,
    fun hc => ⟨fun _ => bin_of_max_le hmake hc, fun _ => lt_max_of_bin_lt hmake hc,
      fun _ => bin_nonneg_of_min_le hmake hc, fun _ => lt_min_of_bin_eq hmake hc,
      fun hfin => ⟨fun _ _ => bin_mono_of_delta_finite hmake hc hfin,
        fun _ => bin_of_lt_min hmake hc hfin⟩⟩,
    fun hcirc => bin_of_circular hmake hcirc⟩

/-- On the axis of four bins over `[1, 2)`, the real `2.5` is past the range. -/
theorem bin_respects_range_past_max :
    make 4 1.0 2.0 .flows = .ok ⟨4, 1.0, 2.0 - 1.0, .flows, by decide, by decide⟩ ∧
      (⟨4, 1.0, 2.0 - 1.0, .flows, by decide, by decide⟩ : Regular).index [.real 2.5] = .ok 4 := by
  have hmake : make 4 1.0 2.0 .flows = .ok ⟨4, 1.0, 2.0 - 1.0, .flows, by decide, by decide⟩ := rfl
  have h := bin_respects_range hmake
  refine ⟨hmake, ?_⟩
  rw [h.1, (h.2.2.1 rfl).1 2.5 (by decide +kernel)]
  rfl

/-- On the axis of four bins over `[0, 4)`, minus the least subnormal (`Float.ofBits 1`, that is
`5e-324`) is below `min`, yet its position rounds to `-0.0` and it lands in bin `0`, not in the
underflow bin. -/
theorem bin_below_min_rounds_into_range :
    make 4 0.0 4.0 .flows = .ok ⟨4, 0.0, 4.0 - 0.0, .flows, by decide, by decide⟩ ∧
      -Float.ofBits 1 < 0.0 ∧
      (⟨4, 0.0, 4.0 - 0.0, .flows, by decide, by decide⟩ : Regular).index [.real (-Float.ofBits 1)] =
        .ok 0 :=
  ⟨rfl, by decide +kernel, congrArg Except.ok (by decide +kernel)⟩

end Histograms.Axis.Regular

/-! ### Axes a request describes -/

namespace Histograms.Session

theorem library_eq_ok {α : Type} {x : Except HistError α} {a : α} (h : library x = .ok a) :
    x = .ok a := by
  cases x with
  | ok b => cases h; rfl
  | error e => cases h

namespace Json

/-- **Every axis a request describes is free of NaN**: a regular or circular axis passed the
checks of `Axis.Regular.make`, and integer and label axes hold no floats. -/
theorem toAxis_nanFree {spec : Json} {a : Axis} (h : toAxis spec = .ok a) : a.NaNFree := by
  unfold toAxis at h
  -- the kind and the options are read first, then the fields the kind needs
  repeat obtain ⟨_, -, h⟩ := Except.bind_eq_ok h
  split at h
  -- a regular or circular axis: the last step read is the library's answer from `make`
  case h_1 | h_2 =>
    repeat obtain ⟨_, hstep, h⟩ := Except.bind_eq_ok h
    cases h
    exact Axis.Regular.nanFree_of_make (library_eq_ok hstep)
  case h_3 | h_4 =>
    repeat obtain ⟨_, -, h⟩ := Except.bind_eq_ok h
    cases h
    trivial
  case h_5 => cases h

theorem mapM_toAxis_nanFree {specs : List Json} {axes : Axes} (h : specs.mapM toAxis = .ok axes) :
    ∀ a ∈ axes, a.NaNFree := by
  induction specs generalizing axes with
  | nil =>
    cases h
    simp
  | cons spec specs ih =>
    rw [List.mapM_cons] at h
    obtain ⟨a, ha, h⟩ := Except.bind_eq_ok h
    obtain ⟨rest, hrest, h⟩ := Except.bind_eq_ok h
    cases h
    intro b hb
    rcases List.mem_cons.mp hb with rfl | hb
    · exact toAxis_nanFree ha
    · exact ih hrest b hb

/-- **Every list of axes a request describes is free of NaN**, so the axes of every histogram a
session builds equal themselves. -/
theorem toAxes_nanFree {j : Json} {axes : Axes} (h : toAxes j = .ok axes) :
    ∀ a ∈ axes, a.NaNFree := by
  unfold toAxes at h
  obtain ⟨specs, -, h⟩ := Except.bind_eq_ok h
  exact mapM_toAxis_nanFree h

end Json

end Histograms.Session
