import Histograms.Proofs.RoundedOps
import Histograms.Proofs.Scaling
/-!
# Widening a counting store

A counting store changes its layout only by widening (`Counts.promote`): to a wider integer
width it relabels its cells, to floats it converts each count with `Float.ofNat`, and to a
layout that is not wider it does nothing. An integer addition widens through the same step:
an attempt in place that does not fit names the least width that holds the new count, the
store is widened to it, and the attempt is made again.

Main statements:

* `Float.toEReal?_ofNat` — the float of a natural number is its binary64 rounding: nearest,
  a tie to the even mantissa, an infinity past the range.
* `Counts.promote_widens_losslessly` — widening takes exactly a wider target and keeps the
  number of cells; a width keeps every count, floats get every count's rounding, the same
  whichever width held it; a target that is not wider changes nothing.
* `Counts.addCount_promotes_at_most_once` — an addition makes at most one promotion, to the
  least width that holds the sum, after which the attempt in place succeeds.
-/

open Float.Model UnpackedFloat Histograms Histograms.Binary64

/-! ### Floats of natural numbers -/

namespace Histograms.Binary64

/-- A natural number below `2 ^ 53` rounds to itself. -/
theorem roundE_natCast_of_lt {n : ℕ} (hn : n < 2 ^ 53) : roundE n = ((n : ℝ) : EReal) := by
  have hkept : roundMag n = n := by
    simpa using roundMag_of_lt (E := 0) hn (by simp [minExp])
  have hsmall : (n : ℝ) < 2 ^ 1024 :=
    calc (n : ℝ) < 2 ^ 53 := by exact_mod_cast hn
      _ ≤ 2 ^ 1024 := pow_le_pow_right₀ (by norm_num) (by norm_num)
  rw [roundE_of_nonneg n.cast_nonneg, roundMagE, hkept, if_neg (not_le.mpr hsmall)]

end Histograms.Binary64

/-- **`Float.ofNat` rounds.** The float of a natural number is its binary64 rounding. Below
`2 ^ 53` the fast path converts exactly; from there on the model multiplies `n * 2 ^ 53` at
exponent `-53` by `10 ^ 0` and rounds the exact product, an infinity included. -/
theorem Float.toEReal?_ofNat (n : ℕ) : (ofFloat (Float.ofNat n)).toEReal? = some (roundE n) := by
  by_cases hsmall : n < 2 ^ 53
  · have hx := toEReal?_eq_natCast_iff.mpr
      (Float.toNat?_eq_some_iff.mp (Float.toNat?_ofNat hsmall))
    rw [hx, roundE_natCast_of_lt hsmall]
  have hn : n ≠ 0 := by omega
  have h11 : (2 : Int) ^ Format.binary64.exponentBits = 2048 := rfl
  show (ofFloat (Float.ofScientific n false 0)).toEReal? = _
  unfold Float.ofScientific
  rw [dif_neg (fun h => hsmall h.1)]
  show (ofFloat (Float.ofModel (Float.Model.ofScientific n 0))).toEReal? = _
  unfold Float.Model.ofScientific UnpackedFloat.ofScientific
  rw [dif_neg hn, if_neg (by omega), if_neg (by omega), if_pos (by omega)]
  simp only [UnpackedFloat.mul]
  have hmant : n <<< Format.binary64.mantissaBits * 10 ^ Int.toNat 0 = n * 2 ^ 53 := by
    simp [Nat.shiftLeft_eq]
  have hexp : -(Format.binary64.mantissaBits : ℤ) + 0 = -53 := by simp
  rw [hmant, hexp]
  -- `n` has at least 54 bits, so the exponent `-53` lies below the product's quantum
  have hle : (-53 : ℤ) ≤ Format.binary64.targetExponent (totalExponent (n * 2 ^ 53) (-53)) := by
    rw [targetExponent_binary64, Nat.log2_mul_two_pow hn]
    omega
  have hvalue : ((n * 2 ^ 53 : ℕ) : ℝ) * 2 ^ (-53 : ℤ) = n := by
    rw [Nat.cast_mul, Nat.cast_pow, Nat.cast_ofNat, mul_assoc, ← zpow_natCast,
      ← zpow_add₀ two_ne_zero]
    norm_num
  rw [show Sign.positive * Sign.positive = sign false from rfl,
    toEReal?_roundWithAccuracy false (describes_exact _) hle, if_neg Bool.false_ne_true, hvalue,
    roundE_of_nonneg n.cast_nonneg]

/-! ### Widening -/

namespace Histograms.Counts

variable {s : Counts} {t : Layout}

/-- A layout wider than the store's own is the layout it takes. -/
theorem kind_promote_of_lt (h : s.kind.rank < t.rank) : (s.promote t).kind = t := by
  rw [kind_promote]
  exact max_eq_right (Layout.le_iff_rank_le.mpr h.le)

theorem promote_of_le (h : t.rank ≤ s.kind.rank) : s.promote t = s := by
  simp [promote, h]

/-- An integer cell denotes its count, at whatever width it is held. -/
theorem value?_get_exact (w : Width) (cells : Array Nat) (fits : w.HoldsAll cells) (i : Nat) :
    ((exact w cells fits).get i).value? = some ((cells.getD i 0 : ℕ) : ℝ) := by
  simp only [get]
  split <;> rfl

/-- Widening integer cells to a width keeps every count. -/
theorem value?_get_promote_exact (w v : Width) (cells : Array Nat) (fits : w.HoldsAll cells)
    (i : Nat) :
    (((exact w cells fits).promote (.exact v)).get i).value? =
      ((exact w cells fits).get i).value? := by
  rw [promote_exact_exact, value?_get_exact, value?_get_exact]

/-- Widening integer cells to floats turns each count into its binary64 rounding. -/
theorem value?_get_promote_real (w : Width) (cells : Array Nat) (fits : w.HoldsAll cells)
    (i : Nat) :
    (((exact w cells fits).promote .real).get i).value? = some (roundE (cells.getD i 0)) := by
  rw [promote_exact_real]
  simp only [get, Count.value?]
  by_cases hi : i < cells.size
  · have hi' : i < (cells.map Float.ofNat).size := by simpa using hi
    rw [Array.getD_eq_getD_getElem?, Array.getElem?_eq_getElem hi', Option.getD_some,
      Array.getElem_map, Array.getD_eq_getD_getElem?, Array.getElem?_eq_getElem hi,
      Option.getD_some, Float.toEReal?_ofNat]
  · -- outside the store both sides read zero
    have hi' : ¬ i < (cells.map Float.ofNat).size := by simpa using hi
    rw [Array.getD_eq_getD_getElem?, Array.getElem?_eq_none (Nat.le_of_not_lt hi'),
      Array.getD_eq_getD_getElem?, Array.getElem?_eq_none (Nat.le_of_not_lt hi), Option.getD_none,
      Option.getD_none, ofFloat_zero]
    simp [toEReal?, finiteValue]

/-- **Widening loses nothing.** A target wider than the store's layout is exactly the layout
the store takes, with as many cells as before. Widening to a width keeps every count; widening
to floats gives every count its binary64 rounding, and the same floats whichever width held
the counts. A target that is not wider leaves the store as it is. -/
theorem promote_widens_losslessly :
    (∀ (s : Counts) (t : Layout), s.kind.rank < t.rank →
      (s.promote t).kind = t ∧ (s.promote t).size = s.size) ∧
    (∀ (w v : Width) (cells : Array Nat) (fits : w.HoldsAll cells) (i : Nat),
      (((exact w cells fits).promote (.exact v)).get i).value? =
        ((exact w cells fits).get i).value?) ∧
    (∀ (w : Width) (cells : Array Nat) (fits : w.HoldsAll cells) (i : Nat),
      (((exact w cells fits).promote .real).get i).value? = some (roundE (cells.getD i 0))) ∧
    (∀ (w v : Width) (cells : Array Nat) (fw : w.HoldsAll cells) (fv : v.HoldsAll cells),
      (exact w cells fw).promote .real = (exact v cells fv).promote .real) ∧
    (∀ (s : Counts) (t : Layout), t.rank ≤ s.kind.rank → s.promote t = s) :=
  ⟨fun _ _ h => ⟨kind_promote_of_lt h, size_promote _ _⟩, value?_get_promote_exact,
    value?_get_promote_real, fun w v cells fw fv => by rw [promote_exact_real, promote_exact_real],
    fun _ _ h => promote_of_le h⟩

/-! ### One promotion per addition -/

variable {i a : Nat}

/-- An attempt in place fails only at an integer cell whose width does not hold the sum, and
then names the least width that does. -/
theorem addInPlace_eq_error_iff {need : Layout} :
    s.addInPlace i a = .error need ↔
      ∃ w cells, ∃ fits : w.HoldsAll cells, ∃ hi : i < cells.size, s = exact w cells fits ∧
        ¬ w.Holds (cells[i] + a) ∧ need = .exact (Width.forCount (cells[i] + a)) := by
  constructor
  · intro h
    cases s with
    | real cells =>
      simp only [addInPlace] at h
      split at h <;> cases h
    | exact w cells fits =>
      simp only [addInPlace] at h
      split at h
      · next hi =>
        split at h
        · cases h
        · next hw => exact ⟨w, cells, fits, hi, rfl, hw, (Except.error.inj h).symm⟩
      · cases h
  · rintro ⟨w, cells, fits, hi, rfl, hw, rfl⟩
    exact addInPlace_exact_of_not_holds hi hw

/-- One promotion is as good as the whole ladder: the rungs above a store whose attempt fails
are never needed past the first. -/
theorem addCount_eq_addCountWithin_one (s : Counts) (i a : Nat) :
    s.addCount i a = s.addCountWithin i a 1 := by
  cases hattempt : s.addInPlace i a with
  | ok t => rw [addCount, addCountWithin_of_ok hattempt, addCountWithin_of_ok hattempt]
  | error need =>
    obtain ⟨w, cells, fits, hi, rfl, hw, -⟩ := addInPlace_eq_error_iff.mp hattempt
    rw [addCount_of_not_holds hi hw, addCountWithin_of_not_holds hi hw]

/-- **An addition promotes at most once.** An attempt in place that succeeds is the result. One
that fails happens only at integer cells too narrow for the sum; it names the least width that
holds the sum, which is strictly wider than the store's, and after the promotion to it the
second attempt succeeds and is the result. So one promotion is as good as the whole ladder;
and `forCount` gives the least width that holds a count. -/
theorem addCount_promotes_at_most_once (s : Counts) (i a : Nat) :
    s.addCount i a = s.addCountWithin i a 1 ∧
    (∀ t, s.addInPlace i a = .ok t → s.addCount i a = t) ∧
    (∀ need, s.addInPlace i a = .error need →
      ∃ w cells, ∃ fits : w.HoldsAll cells, ∃ hi : i < cells.size, s = exact w cells fits ∧
        need = .exact (Width.forCount (cells[i] + a)) ∧ s.kind.rank < need.rank ∧
        (Width.forCount (cells[i] + a)).Holds (cells[i] + a) ∧
        ∃ t, (s.promote need).addInPlace i a = .ok t ∧ s.addCount i a = t) ∧
    (∀ m, (Width.forCount m).Holds m ∧
      ∀ w : Width, w.Holds m → (Width.forCount m).rank ≤ w.rank) := by
  refine ⟨addCount_eq_addCountWithin_one s i a, fun t h => addCountWithin_of_ok h _,
    fun need h => ?_, fun m => ⟨Width.holds_forCount m, Width.forCount_le m⟩⟩
  obtain ⟨w, cells, fits, hi, rfl, hw, rfl⟩ := addInPlace_eq_error_iff.mp h
  have hlt := Width.rank_lt_forCount hw
  have hholds := Width.holds_forCount (cells[i] + a)
  exact ⟨w, cells, fits, hi, rfl, rfl, Nat.succ_lt_succ hlt, hholds, _,
    by rw [promote_exact_of_rank_lt hlt, addInPlace_exact_of_holds hi hholds],
    addCount_of_not_holds hi hw⟩

/-- A full 8-bit cell: adding one fails in place, naming 16 bits, and the second attempt takes
the sum. -/
example : (exact .u8 #[255] (by decide)).addInPlace 0 1 = .error (.exact .u16) ∧
    (exact .u8 #[255] (by decide)).addCount 0 1 = exact .u16 #[256] (by decide) := ⟨rfl, rfl⟩

end Histograms.Counts
