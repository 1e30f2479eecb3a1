import Histograms.Proofs.Rebuild
/-!
# Merging in either order

`Counts.merge` widens a store to the layout of the other one, then adds each non-zero count
of the other store to its cell. Two stores of the same length merge to equal stores in
either order, cell by cell:

* two integer stores give the sums of their counts both ways, each exact;
* once either store is in floats, both results are in floats, and cell `k` of either is the
  sum of the two cells' floats, where a zero cell is skipped and not added. Float addition
  does not depend on the order of its operands, and adding a zero of either sign gives the
  other operand back; a skipped cell and an added zero differ at most in the sign of a zero,
  and zeros of either sign are equal.

NaN is equal to nothing, so the cells of the results must not be NaN.

Main statements:

* `Float.add_comm` — float addition commutes.
* `Counts.get_merge_of_real` — cell by cell, a merge in which either store is in floats.
* `Counts.merge_comm` — the two merges of stores of one length are equal.
-/

open Float.Model

namespace Float.Model.UnpackedFloat

/-- Rounded addition does not depend on the order of its operands: both align the two
mantissas to the smaller exponent and add them as integers before rounding. -/
theorem add_comm (spec : Format) (x y : UnpackedFloat) : add spec x y = add spec y x := by
  cases x with
  | notANumber => cases y <;> rfl
  | infinity s =>
    cases y with
    | infinity s' => cases s <;> cases s' <;> rfl
    | _ => rfl
  | zero s =>
    cases y with
    | zero s' => cases s <;> cases s' <;> rfl
    | _ => rfl
  | finite s m e hm =>
    cases y with
    | finite s' m' e' hm' =>
      simp only [add]
      rw [min_comm e e', Int.add_comm]
    | _ => rfl

end Float.Model.UnpackedFloat

theorem Float.add_comm (x y : Float) : x + y = y + x := by
  show Float.ofModel (pack (UnpackedFloat.add Format.binary64 x.toModel.unpack y.toModel.unpack)) =
    Float.ofModel (pack (UnpackedFloat.add Format.binary64 y.toModel.unpack x.toModel.unpack))
  rw [UnpackedFloat.add_comm]

/-- Two zeros are equal, whatever their signs. -/
theorem Float.beq_of_beq_zero {x y : Float} (hx : (x == 0.0) = true) (hy : (y == 0.0) = true) :
    (x == y) = true :=
  BEq.trans hx (BEq.symm hy)

/-- A whole float worth zero is a zero. -/
theorem Float.beq_zero_of_toNat? {x : Float} (hx : x.toNat? = some 0) : (x == 0.0) = true := by
  obtain ⟨s, hs⟩ := Histograms.Binary64.unpack_of_toNat?_zero hx
  show x.toModel.unpack.beq (0.0 : Float).toModel.unpack = true
  rw [hs]
  cases s <;> rfl

namespace Histograms

namespace Count

/-- The float of a count that is zero is a zero. -/
theorem toFloat_beq_zero {c : Count} (h : c.isZero = true) : (c.toFloat == 0.0) = true := by
  cases c with
  | int n =>
    obtain rfl : n = 0 := by simpa [isZero] using h
    decide
  | big n =>
    obtain rfl : n = 0 := by simpa [isZero] using h
    decide
  | real x => exact h

/-- The float that a cell of floats holds after the count `c` of another store is merged
into it: a zero count is skipped, any other is added as its float. -/
def mergeInto (c : Count) (x : Float) : Float := if c.isZero then x else x + c.toFloat

/-- Merging two counts into each other's floats gives equal floats: both are the sum of the
two floats, or one of them where the other is skipped as zero. -/
theorem mergeInto_toFloat_beq (a b : Count) (hnan : (b.mergeInto a.toFloat).isNaN = false)
    (hnan' : (a.mergeInto b.toFloat).isNaN = false) :
    (b.mergeInto a.toFloat == a.mergeInto b.toFloat) = true := by
  unfold mergeInto at hnan hnan' ⊢
  cases ha : a.isZero <;> cases hb : b.isZero <;> simp only [ha, hb, if_true, Bool.false_eq_true, if_false] at hnan hnan' ⊢
  · -- neither is skipped: the two sums in either order
    rw [Float.add_comm b.toFloat, Float.beq_self_eq_not_isNaN, hnan]
    rfl
  · -- `b` is skipped on one side and added as a zero on the other
    refine BEq.symm ?_
    rw [Float.add_beq_of_beq_zero (toFloat_beq_zero hb), hnan]
    rfl
  · rw [Float.add_beq_of_beq_zero (toFloat_beq_zero ha), hnan']
    rfl
  · exact Float.beq_of_beq_zero (toFloat_beq_zero ha) (toFloat_beq_zero hb)

end Count

namespace Counts

/-- The floats of a store's cells as widening to floats makes them: each count as its float. -/
def floats : Counts → Array Float
  | .exact _ cells _ => cells.map Float.ofNat
  | .real cells => cells

/-- The floats `xs` with the first `k` counts of `t` merged into them. -/
def mergedUpTo (xs : Array Float) (t : Counts) (k : Nat) : Array Float :=
  xs.mapIdx fun j x => if j < k then (t.get j).mergeInto x else x

theorem size_floats (s : Counts) : s.floats.size = s.size := by
  cases s <;> simp [floats, size]

theorem size_mergedUpTo (xs : Array Float) (t : Counts) (k : Nat) :
    (mergedUpTo xs t k).size = xs.size :=
  Array.size_mapIdx

/-- Widening where either side is floats gives the floats of the store. -/
theorem promote_of_max_kind_eq_real {s : Counts} {l : Layout} (h : max s.kind l = .real) :
    s.promote l = .real s.floats := by
  cases s with
  | real cells => exact promote_real cells l
  | exact w cells fits =>
    -- an integer store is widened to floats only by the layout of floats
    have hl : l = .real := by
      change max (Layout.exact w) l = .real at h
      rcases le_total (Layout.exact w) l with hle | hle
      · rwa [max_eq_right hle] at h
      · rw [max_eq_left hle] at h
        cases h
    subst hl
    exact promote_exact_real w cells fits

/-- Cell `k` of a store widened to floats is the float of its count. -/
theorem getElem_floats {s : Counts} {k : Nat} (hk : k < s.floats.size) :
    s.floats[k] = (s.get k).toFloat := by
  rw [size_floats] at hk
  cases s with
  | exact w cells =>
    have hk' : k < cells.size := hk
    simp only [floats, Array.getElem_map, get, Array.getD_eq_getD_getElem?,
      Array.getElem?_eq_getElem hk', Option.getD_some]
    split <;> rfl
  | real cells =>
    have hk' : k < cells.size := hk
    simp [floats, get, hk', Count.toFloat]

/-- A count that is not zero lands in a store of floats as its float. -/
theorem addValue_real {cells : Array Float} {i : Nat} (hi : i < cells.size) {c : Count}
    (hc : c.isZero = false) :
    (real cells).addValue i c = .real (cells.set i (cells[i] + c.toFloat)) := by
  cases c with
  | int n => simp [addValue, addCount_eq, hi, Count.toFloat]
  | big n => simp [addValue, addBig, addCount_eq, promote_real, hi, Count.toFloat]
  | real x =>
    cases hx : x.toNat? with
    | none => exact add_real_of_toNat?_eq_none hi hx
    | some m =>
      -- a whole float that is not a zero is worth more than zero, and is the float of its worth
      have hm : 0 < m := Nat.pos_of_ne_zero fun h0 => by
        subst h0
        have hzero : (Count.real x).isZero = true := Float.beq_zero_of_toNat? hx
        rw [hzero] at hc
        cases hc
      show (real cells).add i x = _
      rw [add_real_of_toNat? hi hx, Float.ofNat_eq_of_toNat? hx hm]
      rfl

theorem mergedUpTo_zero (xs : Array Float) (t : Counts) : mergedUpTo xs t 0 = xs := by
  refine Array.ext (size_mergedUpTo xs t 0) fun j _ _ => ?_
  simp [mergedUpTo]

/-- Merging one more count sets its cell and keeps the others. -/
theorem mergedUpTo_succ_eq_set {xs : Array Float} {t : Counts} {k : Nat}
    (hk : k < (mergedUpTo xs t k).size) :
    mergedUpTo xs t (k + 1) =
      (mergedUpTo xs t k).set k ((t.get k).mergeInto (mergedUpTo xs t k)[k]) := by
  refine Array.ext (by simp [size_mergedUpTo]) fun j hj _ => ?_
  simp only [Array.getElem_set, mergedUpTo, Array.getElem_mapIdx]
  by_cases hjk : k = j
  · subst hjk
    simp
  · have : (j < k + 1) = (j < k) := propext (by omega)
    simp [hjk, this]

/-- One step of the merge loop into floats merges one more count of `t`. -/
theorem mergedUpTo_succ {xs : Array Float} {t : Counts} {k : Nat} (hk : k < xs.size) :
    (let c := t.get k; if c.isZero then real (mergedUpTo xs t k)
      else (real (mergedUpTo xs t k)).addValue k c) = real (mergedUpTo xs t (k + 1)) := by
  have hk' : k < (mergedUpTo xs t k).size := by rwa [size_mergedUpTo]
  rw [mergedUpTo_succ_eq_set hk']
  dsimp only
  cases hz : (t.get k).isZero with
  | true =>
    -- a zero count is skipped, and merging it changes nothing
    simp only [if_true, Count.mergeInto, hz, Array.set_getElem_self]
  | false =>
    simp only [Bool.false_eq_true, if_false, Count.mergeInto, hz]
    exact addValue_real hk' hz

/-- The merge loop into floats after its first `k` cells. -/
theorem mergeLoop_real {xs : Array Float} {t : Counts} (k : Nat) (hk : k ≤ xs.size) :
    (List.range k).foldl
        (fun acc i => let c := t.get i; if c.isZero then acc else acc.addValue i c) (real xs) =
      real (mergedUpTo xs t k) := by
  induction k with
  | zero =>
    rw [mergedUpTo_zero]
    rfl
  | succ k ih =>
    rw [List.range_succ, List.foldl_append, ih (by omega), List.foldl_cons, List.foldl_nil]
    exact mergedUpTo_succ (by omega)

theorem get_mem_toList {s : Counts} {k : Nat} (hk : k < s.size) : s.get k ∈ s.toList :=
  List.mem_map.mpr ⟨k, List.mem_range.mpr hk, rfl⟩

/-- A merge in which either store is in floats: cell `k` of the result is the float of cell
`k` with the count of `t` merged into it. -/
theorem get_merge_of_real {s t : Counts} (hsize : s.size = t.size)
    (hreal : max s.kind t.kind = .real) :
    ∃ r, s.merge t = .ok r ∧ r.size = s.size ∧
      ∀ k < s.size, r.get k = .real ((t.get k).mergeInto (s.get k).toFloat) := by
  have hloop : s.merge t = .ok (real (mergedUpTo s.floats t t.size)) := by
    unfold merge
    rw [if_neg (not_not.mpr hsize), promote_of_max_kind_eq_real hreal,
      mergeLoop_real _ (by rw [size_floats, hsize])]
  refine ⟨_, hloop, by simp [size, size_mergedUpTo, size_floats], fun k hk => ?_⟩
  have hk' : k < (mergedUpTo s.floats t t.size).size := by rwa [size_mergedUpTo, size_floats]
  rw [get_real hk']
  simp only [mergedUpTo, Array.getElem_mapIdx, if_pos (hsize ▸ hk), getElem_floats]

/-- **Merging in either order.** Two stores of the same length merge in either
order, and the two results are equal cell by cell unless a cell of either is NaN: integer
stores hold the sums of their counts both ways, and once either store is in floats each cell
of both results is the sum of the two floats, or one of them where the other is a skipped
zero. -/
theorem merge_comm {a b : Counts} (hsize : a.size = b.size) :
    ∃ r r', a.merge b = .ok r ∧ b.merge a = .ok r' ∧
      ((∀ c ∈ r.toList, c.isNaN = false) → (∀ c ∈ r'.toList, c.isNaN = false) →
        (r == r') = true) := by
  by_cases hreal : max a.kind b.kind = .real
  · -- either store is in floats: both results are floats, summed in either order
    obtain ⟨r, hr, hrsize, hrget⟩ := get_merge_of_real hsize hreal
    obtain ⟨r', hr', hr'size, hr'get⟩ := get_merge_of_real hsize.symm (by rwa [max_comm])
    refine ⟨r, r', hr, hr', fun hnan hnan' =>
      beq_of_get (by rw [hrsize, hr'size, hsize]) fun k hk => ?_⟩
    have hka : k < a.size := hrsize ▸ hk
    have hkb : k < b.size := hsize ▸ hka
    have hx := hnan _ (get_mem_toList hk)
    have hy := hnan' _ (get_mem_toList (hr'size ▸ hkb))
    rw [hrget k hka] at hx ⊢
    rw [hr'get k hkb] at hy ⊢
    exact Count.mergeInto_toFloat_beq _ _ hx hy
  · -- two integer stores: both merges hold the sums of the counts
    cases a with
    | real _ => exact absurd (max_eq_left (Layout.le_real _)) hreal
    | exact wa ca fa =>
      cases b with
      | real _ => exact absurd (max_eq_right (Layout.le_real _)) hreal
      | exact wb cb fb =>
        have hlen : cb.toList.length = ca.toList.length := by simpa [size] using hsize.symm
        have ha := exact_toList wa ca fa
        have hb := exact_toList wb cb fb
        obtain ⟨r, hr, hrex⟩ := ha.merge hb hlen
        obtain ⟨r', hr', hr'ex⟩ := hb.merge ha hlen.symm
        rw [List.zipWith_comm_of_comm Nat.add_comm] at hr'ex
        exact ⟨r, r', hr, hr', fun _ _ => hrex.beq_of_exact hr'ex⟩

/-- `250` and `0` at eight bits merged both ways with the floats `0.5` and `-0.0`. -/
theorem merge_comm_integers_with_floats :
    (exact .u8 #[250, 0] (by decide)).size = (real #[0.5, -0.0]).size ∧
      ∃ r r', (exact .u8 #[250, 0] (by decide)).merge (real #[0.5, -0.0]) = .ok r ∧
        (real #[0.5, -0.0]).merge (exact .u8 #[250, 0] (by decide)) = .ok r' ∧
        ((∀ c ∈ r.toList, c.isNaN = false) → (∀ c ∈ r'.toList, c.isNaN = false) →
          (r == r') = true) :=
  ⟨rfl, merge_comm rfl⟩

end Counts

end Histograms
