import Histograms.Proofs.Rebuild
import Histograms.Proofs.RoleChecks
/-!
# Totals are exact

`Counts.sum` adds the cells of a store one by one into a fresh one-cell store. That store runs
the same widening ladder as every other: it holds the running total at the least width that
holds it (`Counts.addValue_single`). So the total of an integer store is the exact sum of its
cells, reported as a machine integer below `2 ^ 64` and as an unbounded integer from there on,
whatever widths the cells themselves are held in.

A fresh counting histogram filled point by point then totals one count per point that lands in
a cell: a point that binning refuses leaves the histogram as it was, a point that an axis drops
changes nothing, and a point that lands is counted once, in its one cell.

Main statements:

* `Counts.addValue_single` — one step of the total.
* `Counts.sum_exact` — the total of an integer store.
* `Fill.sum_tally` — summed over the cells, a list of whole fills adds what each fill that
  lands adds.
* `Counts.sum_counts_landed_fills` — totals are exact, and a fresh histogram totals its points
  that land.
-/

namespace Histograms

/-- The count a store reports for the natural number `n`: a machine integer below `2 ^ 64`, an
unbounded integer from there on. -/
def Count.ofNat (n : Nat) : Count := if n < 2 ^ 64 then .int n else .big n

/-- The least width is unbounded exactly from `2 ^ 64` on. -/
theorem Width.forCount_eq_big_iff {n : Nat} : Width.forCount n = .big ↔ 2 ^ 64 ≤ n := by
  refine ⟨fun h => Nat.not_lt.mp fun hlt => ?_, Width.forCount_of_le⟩
  -- below `2 ^ 64` the sixty-four bits hold the count
  have hu64 := Width.forCount_le n .u64 (by simp [Width.Holds, Width.limit]; omega)
  rw [h] at hu64
  exact absurd hu64 (by decide)

/-- The least width that holds a count holds the one cell of that count. -/
theorem Width.holdsAll_singleton_forCount (t : Nat) : (Width.forCount t).HoldsAll #[t] := by
  intro n hn
  rw [List.mem_singleton.mp hn]
  exact Width.holds_forCount t

namespace Counts

/-! ### The total of a store -/

theorem toNat?_get_exact (w : Width) (cells : Array Nat) (fits : w.HoldsAll cells) (i : Nat) :
    ((exact w cells fits).get i).toNat? = some (cells.getD i 0) := by
  simp only [get]
  split <;> rfl

/-- The one cell of a store at width `w` reads as a machine integer unless `w` is unbounded. -/
theorem get_single (w : Width) (t : Nat) (fits : w.HoldsAll #[t]) :
    (exact w #[t] fits).get 0 = if w = .big then .big t else .int t := rfl

/-- **One step of the total.** A one-cell store holding `t` at the least width that holds it
takes a count worth `n` to `t + n`, again at the least width that holds it. -/
theorem addValue_single (t : Nat) {c : Count} {n : Nat} (hc : c.toNat? = some n) :
    (exact (Width.forCount t) #[t] (Width.holdsAll_singleton_forCount t)).addValue 0 c =
      exact (Width.forCount (t + n)) #[t + n] (Width.holdsAll_singleton_forCount _) := by
  have hex : (exact (Width.forCount t) #[t] (Width.holdsAll_singleton_forCount t)).Exact [t] :=
    ⟨_, _, _, rfl, rfl⟩
  have hc' := Count.toNat?_eq_some_iff.mp hc
  have hkind := hex.kind_addValue (i := 0) (by simp) hc'
  obtain ⟨w, cells, fits, hs, hcells⟩ := hex.addValue (i := 0) (by simp) hc'
  rw [hs] at hkind ⊢
  -- the wider of the old least width and the new one is the new one
  have hw : w = Width.forCount (t + n) := by
    have hmono := Width.forCount_mono (Nat.le_add_right t n)
    simpa [kind, Layout.max_exact, max_eq_right hmono] using hkind
  exact exact_congr hw (Array.ext' (by simpa using hcells))

/-- **The run lemma of the total.** Adding cells `is` of an integer store to a running total
`t` gives the total of those cells on top of `t`, at the least width that holds it. -/
theorem foldl_addValue_single (w : Width) (cells : Array Nat) (fits : w.HoldsAll cells)
    (is : List Nat) (t : Nat) :
    is.foldl (fun acc i => acc.addValue 0 ((exact w cells fits).get i))
        (exact (Width.forCount t) #[t] (Width.holdsAll_singleton_forCount t)) =
      exact (Width.forCount (t + (is.map fun i => cells.getD i 0).sum))
        #[t + (is.map fun i => cells.getD i 0).sum] (Width.holdsAll_singleton_forCount _) := by
  induction is generalizing t with
  | nil => simp
  | cons i is ih =>
    rw [List.foldl_cons, addValue_single t (toNat?_get_exact w cells fits i), ih]
    exact exact_congr (by simp [Nat.add_assoc]) (by simp [Nat.add_assoc])

theorem map_range_getD (cells : Array Nat) :
    (List.range cells.size).map (fun i => cells.getD i 0) = cells.toList := by
  apply List.ext_getElem
  · simp
  · intro i h₁ h₂
    have hi : i < cells.size := by simpa using h₂
    simp [Array.getD_eq_getD_getElem?, Array.getElem?_eq_getElem hi]

/-- **Totals of integer stores are exact**: the sum of the cells, as a machine integer below
`2 ^ 64` and unbounded from there on, whatever width holds the cells. -/
theorem sum_exact (w : Width) (cells : Array Nat) (fits : w.HoldsAll cells) :
    (exact w cells fits).sum = Count.ofNat cells.toList.sum := by
  have hnew : new 1 = exact (Width.forCount 0) #[0] (Width.holdsAll_singleton_forCount 0) := rfl
  rw [sum, size, hnew, foldl_addValue_single, map_range_getD, Nat.zero_add, get_single,
    Count.ofNat]
  by_cases hbig : 2 ^ 64 ≤ cells.toList.sum
  · rw [if_pos (Width.forCount_eq_big_iff.mpr hbig), if_neg (Nat.not_lt.mpr hbig)]
  · rw [if_neg (mt Width.forCount_eq_big_iff.mp hbig), if_pos (Nat.lt_of_not_le hbig)]

theorem Exact.sum_eq {s : Counts} {v : List Nat} (h : s.Exact v) : s.sum = Count.ofNat v.sum := by
  obtain ⟨w, cells, fits, rfl, rfl⟩ := h
  exact sum_exact w cells fits

end Counts

/-! ### What a run of fills adds in total -/

namespace Fill

theorem sum_range_ite_eq {i N : Nat} (hi : i < N) (a : Nat) :
    ((List.range N).map fun k => if i = k then a else 0).sum = a := by
  induction N with
  | zero => omega
  | succ N ih =>
    rw [List.sum_range_succ]
    by_cases hiN : i = N
    · subst hiN
      have hzero : ((List.range i).map fun k => if i = k then a else 0).sum = 0 := by
        simp only [List.sum_eq_zero_iff, List.mem_map, List.mem_range]
        rintro _ ⟨k, hk, rfl⟩
        rw [if_neg (by omega)]
      rw [hzero, if_pos rfl, Nat.zero_add]
    · rw [ih (by omega), if_neg hiN, Nat.add_zero]

/-- Summed over the cells below `N`, a fill adds its amount if its point lands in one of them,
and nothing if it lands nowhere. -/
theorem sum_range_addedAt {axes : Axes} {N : Nat} {f : Fill}
    (hlt : ∀ i, axes.cellOfPoint? f.coords = some i → i < N) :
    ((List.range N).map fun k => f.addedAt axes k).sum =
      if (axes.cellOfPoint? f.coords).isSome then f.wholeAmount?.getD 0 else 0 := by
  cases hc : axes.cellOfPoint? f.coords with
  | none => simp [addedAt, hc]
  | some i => simpa [addedAt, hc] using sum_range_ite_eq (hlt i hc) (f.wholeAmount?.getD 0)

/-- **Summed over the cells, a list of fills adds what each fill that lands adds**, every cell
its points land in lying below `N`. -/
theorem sum_tally {axes : Axes} {N : Nat} {fs : List Fill}
    (hlt : ∀ f ∈ fs, ∀ i, axes.cellOfPoint? f.coords = some i → i < N) :
    ((List.range N).map (tally axes fs)).sum =
      (fs.map fun f => if (axes.cellOfPoint? f.coords).isSome then f.wholeAmount?.getD 0 else 0).sum := by
  induction fs with
  | nil =>
    have hnil : tally axes [] = fun _ => 0 := funext (tally_nil axes)
    simp [hnil]
  | cons f fs ih =>
    have hcons : tally axes (f :: fs) = fun k => f.addedAt axes k + tally axes fs k :=
      funext (tally_cons axes f fs)
    rw [hcons, List.sum_map_add, sum_range_addedAt (hlt f (List.mem_cons_self ..)),
      ih fun f' hf' => hlt f' (List.mem_cons_of_mem _ hf'), List.map_cons, List.sum_cons]

/-- Plain fills add one for each point that lands. -/
theorem sum_landed_ofCoords (axes : Axes) (cs : List (List Coord)) :
    ((cs.map ofCoords).map fun f =>
        if (axes.cellOfPoint? f.coords).isSome then f.wholeAmount?.getD 0 else 0).sum =
      cs.countP fun c => (axes.cellOfPoint? c).isSome := by
  induction cs with
  | nil => rfl
  | cons c cs ih =>
    rw [List.map_cons, List.map_cons, List.sum_cons, ih, List.countP_cons, Nat.add_comm,
      wholeAmount?_ofCoords, Option.getD_some]
    rfl

end Fill

namespace Histogram

/-- A point that lands in a cell of a counting histogram is counted without error. -/
theorem fill_snd_of_lands {h : Histogram Counts} {c : List Coord}
    (hl : (h.axes.cellOfPoint? c).isSome) : (h.fill c).2 = none := by
  obtain ⟨i, hi⟩ := Option.isSome_iff_exists.mp hl
  unfold Axes.cellOfPoint? at hi
  split at hi
  · next p hp =>
    rw [fill, fillWith_snd_of_lands hp hi]
    rfl
  · cases hi

/-- Filling point by point is filling with the plain fills of the points. -/
theorem foldl_fill_eq_fillAll (h : Histogram Counts) (cs : List (List Coord)) :
    cs.foldl (fun h c => (h.fill c).1) h = h.fillAll (cs.map Fill.ofCoords) := by
  rw [fillAll, List.foldl_map]
  rfl

end Histogram

/-- **Totals are exact, and filling conserves them.** The total of a counting store that holds
integers is the exact sum of its cells, a machine integer up to `2 ^ 64 - 1` and unbounded from
`2 ^ 64` on, whatever widths hold the cells. A fresh counting histogram filled point by point,
with points that binning refuses or that an axis drops among them, totals the number of points
that land in a cell; a point that lands is always counted without error. -/
theorem Counts.sum_counts_landed_fills :
    (∀ (w : Width) (cells : Array Nat) (fits : w.HoldsAll cells),
        (Counts.exact w cells fits).sum = Count.ofNat cells.toList.sum) ∧
      (∀ (axes : Axes) (h₀ : Histogram Counts) (cs : List (List Coord)),
        Histogram.withStore axes (Counts.new 0) = .ok h₀ →
        (cs.foldl (fun h c => (h.fill c).1) h₀).store.sum =
          Count.ofNat (cs.countP fun c => (axes.cellOfPoint? c).isSome)) ∧
      (∀ (h : Histogram Counts) (c : List Coord),
        (h.axes.cellOfPoint? c).isSome → (h.fill c).2 = none) := by
  refine ⟨Counts.sum_exact, fun axes h₀ cs hnew => ?_, fun _ _ => Histogram.fill_snd_of_lands⟩
  have haxes : h₀.axes = axes := (Histogram.exact_withStore_new hnew).1
  have hwhole : ∀ f ∈ cs.map Fill.ofCoords, f.wholeAmount?.isSome := by
    intro f hf
    obtain ⟨c, -, rfl⟩ := List.mem_map.mp hf
    rfl
  -- every point lands inside the store
  have hlt : ∀ f ∈ cs.map Fill.ofCoords, ∀ i, h₀.axes.cellOfPoint? f.coords = some i →
      i < h₀.size :=
    fun f _ i hi => Histogram.cellOfPoint?_lt (Histogram.shaped_withStore hnew) hi
  rw [Histogram.foldl_fill_eq_fillAll, (Histogram.fillAll_exact_tally hnew hwhole).sum_eq,
    Fill.sum_tally hlt, Fill.sum_landed_ofCoords, haxes]

/-- Two integer axes, the second without flow slots: of the points `(1, 2)`, `(7, 1)` (the
first axis's overflow), `(0, 5)` (dropped by the second axis) and `(1)` (refused: one
coordinate for two axes), two are counted. -/
theorem Counts.sum_counts_landed_fills_integer_axes :
    let axes : Axes := [.integer ⟨0, 4, .flows, by decide, by decide⟩,
      .integer ⟨0, 3, .empty, by decide, by decide⟩]
    let cs : List (List Coord) := [[.int 1, .int 2], [.int 7, .int 1], [.int 0, .int 5], [.int 1]]
    Histogram.withStore axes (Counts.new 0) = .ok ⟨axes, Counts.new 18⟩ ∧
      (cs.foldl (fun h c => (h.fill c).1) (⟨axes, Counts.new 18⟩ : Histogram Counts)).store.sum =
        .int 2 := by
  intro axes cs
  have hw : Histogram.withStore axes (Counts.new 0) = .ok ⟨axes, Counts.new 18⟩ := rfl
  refine ⟨hw, ?_⟩
  have hcount : (cs.countP fun c => (axes.cellOfPoint? c).isSome) = 2 := by decide
  rw [Counts.sum_counts_landed_fills.2.1 axes _ cs hw, hcount]
  rfl

end Histograms
