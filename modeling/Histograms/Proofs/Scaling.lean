import Histograms.Proofs.Rebuild
/-!
# Whole factors keep integer counts exact

`Counts.scale` reads a float factor that is a whole number `k` below `2 ^ 64` as the natural
number `k`. An integer store then widens to the least width that holds its largest count
times `k`, and multiplies each cell by `k` where the product fits that width. Every count is
at most the largest one, so every product fits: no cell is left as it was, no product of a
fixed width reaches `2 ^ 64`, and the store reports the wider of its old layout and the least
width of the largest product.

From `2 ^ 64` up a whole factor is not read as an integer: the store moves to floats, where a
count times the factor is rounded.

Main statements:

* `Counts.scaleCount_exact` — scaling integer cells by a natural number.
* `Counts.scale_whole_exact` — a whole factor below `2 ^ 64` multiplies every count exactly.
* `Counts.scale_by_two_pow_64_moves_to_floats` — the whole factor `2 ^ 64` moves a store
  to floats.
-/

namespace Histograms

namespace Width

/-- A width that holds a count holds every smaller one. -/
theorem Holds.of_le {w : Width} {m n : Nat} (h : w.Holds m) (hnm : n ≤ m) : w.Holds n :=
  forCount_le_iff.mp ((forCount_mono hnm).trans (forCount_le_iff.mpr h))

/-- A count that a fixed width holds is below `2 ^ 64`. -/
theorem Holds.lt_of_ne_big {w : Width} {n : Nat} (h : w.Holds n) (hw : w ≠ .big) :
    n < 2 ^ 64 := by
  cases w <;> simp only [Holds, limit] at h <;> first | omega | exact absurd rfl hw

end Width

namespace Layout

/-- The widest image of a nonempty list under a monotone map is the image of its largest
element. -/
theorem widest_map_of_monotone {F : Nat → Layout} (hF : Monotone F) {l : List Nat}
    (hl : l ≠ []) : widest (l.map F) = F (l.foldr max 0) := by
  induction l with
  | nil => exact absurd rfl hl
  | cons x l ih =>
    rw [List.map_cons, widest_cons, List.foldr_cons]
    by_cases hnil : l = []
    · subst hnil
      rw [List.map_nil, widest_nil, List.foldr_nil, Nat.max_zero, max_eq_left (empty_le _)]
    · rw [ih hnil, hF.map_max]

end Layout

namespace Counts

/-- The largest count, as the scaling loop folds it over the cells. -/
theorem foldl_max_eq_foldr (cells : Array Nat) :
    cells.foldl max 0 = cells.toList.foldr max 0 := by
  rw [← Array.foldl_toList, List.foldl_eq_foldr]

/-- Widening an integer store to an integer width gives the wider of the two widths. -/
theorem promote_exact_exact (w v : Width) (cells : Array Nat) (fits : w.HoldsAll cells) :
    (exact w cells fits).promote (.exact v) =
      .exact (max w v) cells (fits.mono (le_max_left w v)) := by
  unfold promote
  split
  · next hle =>
    simp only [kind, Layout.rank] at hle
    exact exact_congr (max_eq_left (Width.le_iff_rank_le.mpr (by omega))).symm rfl
  · next hlt =>
    simp only [kind, Layout.rank] at hlt
    exact exact_congr (max_eq_right (Width.le_iff_rank_le.mpr (by omega))).symm rfl

/-- The wider of any width and the least width of the largest count times `k` holds every
count times `k`. -/
theorem holds_mul_of_mem {w : Width} {cells : Array Nat} {n : Nat} (k : Nat)
    (hn : n ∈ cells.toList) :
    (max w (Width.forCount (cells.toList.foldr max 0 * k))).Holds (n * k) :=
  (Width.forCount_le_iff.mp (le_max_right w _)).of_le
    (Nat.mul_le_mul_right k (List.le_max_of_le' 0 hn le_rfl))

/-- The wider of any width and the least width of the largest count times `k` holds the cells
times `k`. -/
theorem holdsAll_map_mul (w : Width) (cells : Array Nat) (k : Nat) :
    (max w (Width.forCount (cells.toList.foldr max 0 * k))).HoldsAll (cells.map (· * k)) :=
  Width.holdsAll_map fun _ hn => holds_mul_of_mem k hn

/-- Scaling an integer store by a natural number `k`: the width becomes the wider of the old
one and the least width of the largest count times `k`, and every count is multiplied. -/
theorem scaleCount_exact (w : Width) (cells : Array Nat) (fits : w.HoldsAll cells) (k : Nat) :
    (exact w cells fits).scaleCount k =
      .exact (max w (Width.forCount (cells.toList.foldr max 0 * k))) (cells.map (· * k))
        (holdsAll_map_mul w cells k) := by
  -- unbounded cells skip the search for the largest count: they stay unbounded either way
  have hwidth : max w (Width.forCount ((if w = .big then 0 else cells.foldl max 0) * k)) =
      max w (Width.forCount (cells.toList.foldr max 0 * k)) := by
    by_cases hw : w = .big
    · subst hw
      rw [max_eq_left (Width.le_big _), max_eq_left (Width.le_big _)]
    · rw [if_neg hw, foldl_max_eq_foldr]
  simp only [scaleCount]
  rw [promote_exact_exact]
  dsimp only
  -- every product fits the new width, so the loop scales every cell
  refine exact_congr hwidth ?_
  rw [hwidth]
  exact Array.map_congr_left fun n hn => if_pos (holds_mul_of_mem k (Array.mem_def.mp hn))

/-- The layout of an integer store scaled by `k`: the wider of the old one and the least
width of each product. -/
theorem layout_scaleCount (w : Width) (cells : Array Nat) (fits : w.HoldsAll cells) (k : Nat) :
    ((exact w cells fits).scaleCount k).layout = max (exact w cells fits).layout
      (Layout.widest (cells.toList.map fun n => .exact (Width.forCount (n * k)))) := by
  have hsize : ((exact w cells fits).scaleCount k).size = cells.size := by
    rw [scaleCount_exact]
    exact Array.size_map ..
  rcases Nat.eq_zero_or_pos cells.size with h0 | hpos
  · -- without cells every layout is `empty`
    have hnil : cells.toList = [] := by simpa using h0
    rw [layout_of_size_eq_zero (hsize.trans h0),
      layout_of_size_eq_zero (show (exact w cells fits).size = 0 from h0), hnil]
    rfl
  · have hmono : Monotone fun n => Layout.exact (Width.forCount (n * k)) :=
      fun a b hab => Layout.exact_le_exact.mpr (Width.forCount_mono (Nat.mul_le_mul_right k hab))
    have hne : cells.toList ≠ [] := List.ne_nil_of_length_pos (by simpa using hpos)
    rw [layout_of_pos (hsize ▸ hpos), layout_of_pos (show 0 < (exact w cells fits).size from hpos),
      scaleCount_exact, Layout.widest_map_of_monotone hmono hne]
    exact (Layout.max_exact _ _).symm

/-- **Whole factors scale exactly.** A float factor that is a whole number `k` below `2 ^ 64`
scales an integer store as the natural number `k`: the store widens to the wider of its width
and the least width of its largest count times `k`. That width holds every product, so every
count is multiplied, and at a fixed width no product reaches `2 ^ 64`. The store reports the
wider of its old layout and the least widths of the products. -/
theorem scale_whole_exact (w : Width) (cells : Array Nat) (fits : w.HoldsAll cells) {f : Float}
    {k : Nat} (hf : f.DenotesNat k) (hk : k < 2 ^ 64) :
    (exact w cells fits).scale f =
        .exact (max w (Width.forCount (cells.toList.foldr max 0 * k))) (cells.map (· * k))
          (holdsAll_map_mul w cells k) ∧
      (∀ n ∈ cells.toList,
        (max w (Width.forCount (cells.toList.foldr max 0 * k))).Holds (n * k) ∧
        (max w (Width.forCount (cells.toList.foldr max 0 * k)) ≠ .big → n * k < 2 ^ 64)) ∧
      ((exact w cells fits).scale f).Exact (cells.toList.map (· * k)) ∧
      ((exact w cells fits).scale f).layout = max (exact w cells fits).layout
        (Layout.widest (cells.toList.map fun n => .exact (Width.forCount (n * k)))) := by
  have hscale : (exact w cells fits).scale f = (exact w cells fits).scaleCount k := by
    rw [scale, Float.toNat?_eq_some_iff.mpr hf]
    exact if_pos hk
  refine ⟨hscale.trans (scaleCount_exact w cells fits k),
    fun n hn => ⟨holds_mul_of_mem k hn, (holds_mul_of_mem k hn).lt_of_ne_big⟩, ?_,
    hscale ▸ layout_scaleCount w cells fits k⟩
  -- the products are the cells of the scaled store
  rw [hscale, scaleCount_exact]
  exact ⟨_, _, _, rfl, by simp⟩

/-- Counts `3` and `2` at eight bits scaled by `100.0`: the store widens to sixteen bits and
holds `300` and `200`. -/
theorem scale_whole_exact_by_hundred :
    (100.0 : Float).DenotesNat 100 ∧
      ((exact .u8 #[3, 2] (by decide)).scale 100.0).Exact [300, 200] ∧
      ((exact .u8 #[3, 2] (by decide)).scale 100.0).layout = .exact .u16 := by
  have hf : (100.0 : Float).DenotesNat 100 := Float.toNat?_eq_some_iff.mp (by decide +kernel)
  obtain ⟨-, -, hexact, hlayout⟩ := scale_whole_exact .u8 #[3, 2] (by decide) hf (by decide)
  refine ⟨hf, hexact, ?_⟩
  rw [hlayout]
  decide

/-- The whole factor `2 ^ 64` is not read as an integer: a count of `1` at eight bits scaled
by it moves the store to floats. -/
theorem scale_by_two_pow_64_moves_to_floats :
    (18446744073709551616.0 : Float).DenotesNat (2 ^ 64) ∧
      (exact .u8 #[1] (by decide)).Exact [1] ∧
      ((exact .u8 #[1] (by decide)).scale 18446744073709551616.0).layout = .real := by
  have hnat : (18446744073709551616.0 : Float).toNat? = some (2 ^ 64) := by decide +kernel
  refine ⟨Float.toNat?_eq_some_iff.mp hnat, ⟨.u8, #[1], _, rfl, rfl⟩, ?_⟩
  rw [layout_of_pos (by rw [size_scale]; decide), scale, hnat]
  dsimp only
  rw [if_neg (lt_irrefl _)]
  exact kind_scaleReal _ _

end Counts

end Histograms
