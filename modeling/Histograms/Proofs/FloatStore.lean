import Histograms.Proofs.MergeOrder
/-!
# A store of floats is a vector of floats

Once a counting store holds floats, each update is one float operation per cell, the same
operation that plain binary64 arithmetic on a vector of floats performs, bit for bit. Whole
amounts keep going through the integer paths: a whole amount `n` is added as
`Float.ofNat n`, which is the float it came from, and a whole factor `k` multiplies as
`Float.ofNat k`. The two differ only on a zero: `-0.0` is whole and worth `0`, so it is added
and multiplied as `+0.0`. A merge adds the float of each count of the other store, and skips
the counts that are zero.

Main statements:

* `Counts.add_real`, `Counts.addCount_real`, `Counts.scale_real`, `Counts.merge_real` — one
  equation per operation on a store of floats.
* `Counts.float_store_ops` — the four together.
* `Counts.scale_real_by_negative_zero` — scaling by `-0.0` gives `+0.0` where IEEE
  multiplication gives `-0.0`.
-/

open Float.Model Histograms.Binary64

/-- A float equal to zero, of either sign, is whole and worth `0`. -/
theorem Float.toNat?_of_beq_zero {x : Float} (hx : (x == 0.0) = true) : x.toNat? = some 0 := by
  obtain ⟨s, hs⟩ := Float.unpack_of_beq_zero hx
  rw [← toUnpacked_ofFloat] at hs
  unfold Float.toNat?
  cases hread : ofFloat x with
  | nan => rw [hread] at hs; cases hs
  | infinite n => rw [hread] at hs; cases hs
  | finite n m e =>
    -- only a zero mantissa unpacks to a zero
    obtain rfl : m = 0 := by
      rw [hread] at hs
      by_contra hm
      simp [toUnpacked, hm] at hs
    simp [IsWhole, wholePart]

/-- Being equal to zero is being whole and worth `0`. -/
theorem Float.beq_zero_iff_toNat? (x : Float) : (x == 0.0) = true ↔ x.toNat? = some 0 :=
  ⟨Float.toNat?_of_beq_zero, Float.beq_zero_of_toNat?⟩

namespace Histograms.Counts

variable {v : Array Float}

/-- **Adding to a store of floats.** The amount is added to its cell as a float; a zero of
either sign is added as `+0.0`. -/
theorem add_real {i : Nat} (hi : i < v.size) (x : Float) :
    (real v).add i x = real (v.set i (v[i] + if x == 0.0 then 0 else x)) := by
  cases hx : x.toNat? with
  | none =>
    have hne : (x == 0.0) = false := by
      rw [← Bool.not_eq_true, Float.beq_zero_iff_toNat?, hx]
      simp
    rw [add_real_of_toNat?_eq_none hi hx, hne]
    rfl
  | some m =>
    rw [add_real_of_toNat? hi hx]
    rcases Nat.eq_zero_or_pos m with rfl | hm
    · rw [if_pos (Float.beq_zero_of_toNat? hx)]
      rfl
    · -- a whole amount above zero is the float of its worth
      have hne : (x == 0.0) = false := by
        rw [← Bool.not_eq_true, Float.beq_zero_iff_toNat?, hx]
        simp only [Option.some.injEq]
        omega
      rw [hne, Float.ofNat_eq_of_toNat? hx hm]
      rfl

/-- A natural amount is added to its cell as its nearest float. -/
theorem addCount_real {i : Nat} (hi : i < v.size) (n : Nat) :
    (real v).addCount i n = real (v.set i (v[i] + Float.ofNat n)) := by
  simp [addCount_eq, hi]

theorem scaleCount_real (k : Nat) : (real v).scaleCount k = real (v.map (· * Float.ofNat k)) := by
  simp [scaleCount, promote_real]

theorem scaleReal_real (f : Float) : (real v).scaleReal f = real (v.map (· * f)) := by
  simp [scaleReal, promote_real]

/-- **Scaling a store of floats.** Every cell is multiplied by the factor as a float; a zero
of either sign multiplies as `+0.0`. -/
theorem scale_real (f : Float) : (real v).scale f = real (v.map (· * if f == 0.0 then 0 else f)) := by
  unfold scale
  cases hf : f.toNat? with
  | none =>
    have hne : (f == 0.0) = false := by
      rw [← Bool.not_eq_true, Float.beq_zero_iff_toNat?, hf]
      simp
    rw [scaleReal_real, hne]
    rfl
  | some k =>
    rcases Nat.eq_zero_or_pos k with rfl | hk
    · rw [if_pos (Float.beq_zero_of_toNat? hf)]
      exact scaleCount_real 0
    · -- a whole factor above zero is the float of its worth, below `2 ^ 64` or not
      have hne : (f == 0.0) = false := by
        rw [← Bool.not_eq_true, Float.beq_zero_iff_toNat?, hf]
        simp only [Option.some.injEq]
        omega
      rw [hne]
      dsimp only
      split
      · rw [scaleCount_real, Float.ofNat_eq_of_toNat? hf hk]
        rfl
      · exact scaleReal_real f

/-- **Merging into a store of floats.** Each count of the other store that is not zero is
added to its cell as its float; a cell whose count is zero is kept as it is. -/
theorem merge_real {t : Counts} (hsize : t.size = v.size) :
    (real v).merge t = .ok (real (v.mapIdx fun j x =>
      if (t.get j).isZero then x else x + (t.get j).toFloat)) := by
  have hmerged : mergedUpTo v t t.size = v.mapIdx fun j x => (t.get j).mergeInto x := by
    refine Array.ext (by simp [size_mergedUpTo]) fun j hj _ => ?_
    have hjt : j < t.size := by rw [hsize]; simpa [size_mergedUpTo] using hj
    simp [mergedUpTo, hjt]
  unfold merge
  rw [if_neg (not_not.mpr (show (real v).size = t.size from hsize.symm)), promote_real,
    mergeLoop_real _ (by rw [hsize]), hmerged]
  rfl

/-- **A store of floats is a vector of floats.** Adding `x` to cell `i` adds `x`, adding a
natural amount adds its nearest float, scaling by `f` multiplies every cell by `f`, and merging
adds to each cell the float of the other store's count: all of it bit for bit as binary64
arithmetic, except that an amount or factor of `-0.0` acts as `+0.0` and a zero count is not
added at all. -/
theorem float_store_ops (v : Array Float) :
    (∀ i (hi : i < v.size) x, (real v).add i x = real (v.set i (v[i] + if x == 0.0 then 0 else x))) ∧
    (∀ i (hi : i < v.size) n, (real v).addCount i n = real (v.set i (v[i] + Float.ofNat n))) ∧
    (∀ f, (real v).scale f = real (v.map (· * if f == 0.0 then 0 else f))) ∧
    (∀ t : Counts, t.size = v.size → (real v).merge t = .ok (real (v.mapIdx fun j x =>
      if (t.get j).isZero then x else x + (t.get j).toFloat))) :=
  ⟨fun _ hi x => add_real hi x, fun _ hi n => addCount_real hi n, scale_real, fun _ ht => merge_real ht⟩

/-- The cells `0.5` and `-1.0` merged with the counts `3` and `0`: the first cell gains `3.0`,
the second keeps its value. -/
theorem float_store_ops_merge_skips_zero :
    (real #[0.5, -1.0]).merge (exact .u8 #[3, 0] (by decide)) =
      .ok (real (#[0.5, -1.0].mapIdx fun j x =>
        if ((exact .u8 #[3, 0] (by decide)).get j).isZero then x
        else x + ((exact .u8 #[3, 0] (by decide)).get j).toFloat)) :=
  (float_store_ops #[0.5, -1.0]).2.2.2 (exact .u8 #[3, 0] (by decide)) rfl

/-- Scaling the cell `0.5` by `-0.0` gives `+0.0`; IEEE multiplication gives `-0.0`. -/
theorem scale_real_by_negative_zero :
    (real #[0.5]).scale (-0.0) ≠ real (#[0.5].map (· * -0.0)) := by
  rw [scale_real]
  intro h
  have hcells : (#[0.5].map (· * if (-0.0 : Float) == 0.0 then 0 else -0.0) : Array Float) ≠
      #[0.5].map (· * -0.0) := by
    decide +kernel
  exact hcells (real.inj h)

end Histograms.Counts
