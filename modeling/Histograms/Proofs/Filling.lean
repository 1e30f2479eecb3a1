import Histograms.Proofs.Shape
import Histograms.Proofs.Ladder
/-!
# Filling a histogram

A fill bins its point on every axis. When every bin id has a slot, the fill is the store's
update at the one cell those ids name, which is the cell `Histogram.cellAt` reads for them;
when one id has none, nothing changes.

* `Histogram.fillWith_of_slotsOf`, `Histogram.fillWith_dropped` — the two outcomes of a fill
  whose point was binned.
* `Histogram.fillWith_cellwise` — in a store of cells the fill updates the cell of its bin
  ids by the cell's own update and leaves every other cell; a refused update changes nothing.
* `Histogram.fillWith_counts` — the counting store takes the update at that cell, keeps the
  counts of an integer layout exactly, moves to floats on a weight that is not whole, and
  rewrites the other cells in the layout it widened to.
* `Histogram.fill_updates_one_cell` — the three together, for every reachable histogram.
* `Histogram.fill_rounds_other_count` — a fractional weight rounds a count `2 ^ 53 + 1` in
  another cell, so the counting store is not a store of cells.
-/

namespace Histograms

namespace Axes

variable {axes : Axes} {coords : List Coord} {js : List Int}

theorem length_binEach (h : binEach axes coords = .ok js) (hlen : coords.length = axes.length) :
    js.length = axes.length := by
  induction axes generalizing coords js with
  | nil =>
    cases coords with
    | nil => cases h; rfl
    | cons x coords => cases hlen
  | cons a axes ih =>
    cases coords with
    | nil => cases hlen
    | cons x coords =>
      simp only [List.length_cons, Nat.add_right_cancel_iff] at hlen
      obtain ⟨j, -, h⟩ := Except.bind_eq_ok h
      obtain ⟨js', hjs', h⟩ := Except.bind_eq_ok h
      cases h
      simp [ih hjs' hlen]

/-- A point that was binned has one bin id per axis. -/
theorem length_binIds (h : binIds axes coords = .ok js) : js.length = axes.length := by
  unfold binIds at h
  split at h
  · obtain ⟨j, -, h⟩ := Except.bind_eq_ok h
    cases h
    rfl
  · split at h
    · cases h
    · next hlen => exact length_binEach h (Decidable.of_not_not hlen)

/-- Two lists of valid bin ids in the same cell are the same list. -/
theorem eq_of_cellOf_eq {js' : List Int} {ss ss' : List Nat} (hss : axes.slotsOf js = some ss)
    (hss' : axes.slotsOf js' = some ss') (heq : axes.cellOf ss = axes.cellOf ss') : js = js' := by
  have hslots : ss = ss' := by
    rw [← slotsAt_cellOf (fits_of_slotsOf hss), heq, slotsAt_cellOf (fits_of_slotsOf hss')]
  rw [eq_binsOf_of_slotsOf hss, eq_binsOf_of_slotsOf hss', hslots]

end Axes

namespace Histogram

variable {σ ν : Type} [Store σ ν] {h : Histogram σ} {f : Fill} {js : List Int} {ss : List Nat}

/-- The cells of a shaped histogram are numbered in mixed radix. -/
theorem cellAt_of_slotsOf (hs : h.Shaped) (hss : h.axes.slotsOf js = some ss) :
    h.cellAt js = .ok (Store.get h.store (h.axes.cellOf ss)) := by
  obtain ⟨-, hlt⟩ := Axes.bincount_eq_ok_iff.mp hs.2
  simp [cellAt, Axes.indexOfBins_of_slotsOf hss hlt, bind, Except.bind, pure, Except.pure]

theorem cellOf_lt_size (hs : h.Shaped) (hss : h.axes.slotsOf js = some ss) :
    h.axes.cellOf ss < Store.size h.store := by
  obtain ⟨hsize, -⟩ := Axes.bincount_eq_ok_iff.mp hs.2
  rw [← size, hsize]
  exact Axes.cellOf_lt (Axes.fits_of_slotsOf hss)

/-- A fill whose bin ids all have slots is the store's fill at their cell. -/
theorem fillWith_of_slotsOf (hs : h.Shaped) (hjs : h.axes.binIds f.coords = .ok js)
    (hss : h.axes.slotsOf js = some ss) :
    h.fillWith f = (⟨h.axes, (f.apply h.store (h.axes.cellOf ss)).1⟩,
      (f.apply h.store (h.axes.cellOf ss)).2) := by
  obtain ⟨-, hlt⟩ := Axes.bincount_eq_ok_iff.mp hs.2
  have hwalk := Cursor.placeAll_of_slotsOf (c := Cursor.start) hss (by simpa [Cursor.start] using hlt)
  have hget : (Cursor.start.placeAll h.axes js).get? = some (h.axes.cellOf ss) := by
    rw [hwalk]
    simp only [Cursor.get?, Cursor.start, Nat.one_mul, Nat.zero_add, Axes.extents_prod_pos,
      ↓reduceIte]
  rw [fillWith_eq, hjs]
  simp only [hget]

/-- A fill with a bin id that has no slot changes nothing, whatever the other ids are. -/
theorem fillWith_dropped (hjs : h.axes.binIds f.coords = .ok js) (hnone : h.axes.slotsOf js = none) :
    h.fillWith f = (h, none) := by
  have hstride := Cursor.placeAll_of_slotsOf_none (c := Cursor.start) hnone (Axes.length_binIds hjs)
  have hget : (Cursor.start.placeAll h.axes js).get? = none := by
    simp [Cursor.get?, hstride]
  rw [fillWith_eq, hjs]
  simp only [hget]

/-! ### Stores of cells -/

section Cellwise

variable {σ α : Type} [Cell α] [Store σ α] [Store.Cellwise σ α] {h : Histogram σ} {f : Fill}
  {js : List Int}

/-- In a store of cells, a fill whose bin ids all have slots is the cell's own update at the
cell `cellAt` reads for those ids. Every other cell keeps its content, and a refused update
leaves the histogram as it was. -/
theorem fillWith_cellwise (hs : h.Shaped) (hjs : h.axes.binIds f.coords = .ok js)
    (hv : (h.axes.slotsOf js).isSome) :
    ∃ c₀, h.cellAt js = .ok c₀ ∧
      (∀ c, f.update c₀ = .ok c →
        (h.fillWith f).2 = none ∧ (h.fillWith f).1.cellAt js = .ok c ∧
        ∀ js', (h.axes.slotsOf js').isSome → js' ≠ js →
          (h.fillWith f).1.cellAt js' = h.cellAt js') ∧
      (∀ e, f.update c₀ = .error e → h.fillWith f = (h, some e)) := by
  obtain ⟨ss, hss⟩ := Option.isSome_iff_exists.mp hv
  have hi := cellOf_lt_size hs hss
  refine ⟨_, cellAt_of_slotsOf hs hss, fun c hc => ?_, fun e he => ?_⟩
  · obtain ⟨s', happly, hget, hframe⟩ := Store.Cellwise.apply_ok hi hc
    have hfill := fillWith_of_slotsOf hs hjs hss
    rw [happly] at hfill
    -- the filled histogram keeps the shape, so its cells are read the same way
    have hs' := hs.fillWith f
    rw [hfill] at hs' ⊢
    refine ⟨rfl, ?_, fun js' hv' hne => ?_⟩
    · rw [cellAt_of_slotsOf hs' hss, hget]
    · obtain ⟨ss', hss'⟩ := Option.isSome_iff_exists.mp hv'
      rw [cellAt_of_slotsOf hs' hss', cellAt_of_slotsOf hs hss', hframe]
      exact fun heq => hne (Axes.eq_of_cellOf_eq hss' hss heq)
  · rw [fillWith_of_slotsOf hs hjs hss, Store.Cellwise.apply_error hi he]

end Cellwise

end Histogram

/-! ### The counting store -/

namespace Counts

variable {s : Counts} {v : List Nat} {i n : Nat} {f : Fill}

/-- A fill that adds a whole amount to an exact store adds it to its cell and nothing else. -/
theorem Exact.apply (hex : s.Exact v) (hi : i < v.length) (hsample : f.sample = none)
    (hamount : f.weight = none ∧ n = 1 ∨ ∃ x, f.weight = some x ∧ x.DenotesNat n) :
    (f.apply s i).1.Exact (v.modify i (· + n)) := by
  rcases f with ⟨coords, weight, sample⟩
  cases hsample
  rcases hamount with ⟨hw, rfl⟩ | ⟨x, hw, hx⟩
  · cases hw
    exact hex.addCount hi 1
  · cases hw
    exact hex.add hi hx

/-- A fill weighted by anything but a whole number not below zero moves a store with cells to
floats. -/
theorem layout_apply_of_not_whole (hs : 0 < s.size) {x : Float} (hw : f.weight = some x)
    (hsample : f.sample = none) (hx : ∀ n, ¬ x.DenotesNat n) : (f.apply s i).1.layout = .real := by
  rcases f with ⟨coords, weight, sample⟩
  cases hw
  cases hsample
  exact layout_add_of_not_whole s i hs hx

end Counts

namespace Histogram

variable {h : Histogram Counts} {f : Fill} {js : List Int}

/-- In the counting store, a fill whose bin ids all have slots is the store's own update at
the cell `cellAt` reads for those ids. Every other cell reads as the old store widened to the
layout the update left: the same count in an integer layout, its nearest float once the
store moved to floats. While the store is exact, a whole amount lands in the one cell; a
weight that is not a whole number not below zero moves the store to floats. -/
theorem fillWith_counts (hs : h.Shaped) (hjs : h.axes.binIds f.coords = .ok js)
    (hv : (h.axes.slotsOf js).isSome) :
    ∃ i, h.axes.indexOfBins js = .ok i ∧
      h.fillWith f = (⟨h.axes, (f.apply h.store i).1⟩, (f.apply h.store i).2) ∧
      (∀ js' i', (h.axes.slotsOf js').isSome → js' ≠ js → h.axes.indexOfBins js' = .ok i' →
        (h.fillWith f).1.cellAt js' = .ok ((h.store.promote (h.fillWith f).1.store.kind).get i')) ∧
      (∀ v n, h.store.Exact v → f.sample = none →
        (f.weight = none ∧ n = 1 ∨ ∃ x, f.weight = some x ∧ x.DenotesNat n) →
        (h.fillWith f).1.store.Exact (v.modify i (· + n))) ∧
      (∀ x, f.weight = some x → f.sample = none → (∀ n, ¬ x.DenotesNat n) →
        (h.fillWith f).1.store.layout = .real) := by
  obtain ⟨ss, hss⟩ := Option.isSome_iff_exists.mp hv
  obtain ⟨-, hlt⟩ := Axes.bincount_eq_ok_iff.mp hs.2
  have hfill := fillWith_of_slotsOf hs hjs hss
  have hs' := hs.fillWith f
  rw [hfill] at hs'
  refine ⟨_, Axes.indexOfBins_of_slotsOf hss hlt, hfill, fun js' i' hv' hne hidx => ?_,
    fun v n hex hsample hamount => ?_, fun x hw hsample hx => ?_⟩
  · obtain ⟨ss', hss'⟩ := Option.isSome_iff_exists.mp hv'
    rw [Axes.indexOfBins_of_slotsOf hss' hlt] at hidx
    cases hidx
    have hk : h.axes.cellOf ss' ≠ h.axes.cellOf ss :=
      fun heq => hne (Axes.eq_of_cellOf_eq hss' hss heq)
    rw [hfill, cellAt_of_slotsOf hs' hss']
    exact congrArg Except.ok (Counts.get_apply_ne f hk)
  · have hi : h.axes.cellOf ss < v.length := hex.size_eq ▸ cellOf_lt_size hs hss
    rw [hfill]
    exact hex.apply hi hsample hamount
  · -- the store has the cell the point lands in
    have hpos : 0 < h.store.size := Nat.zero_lt_of_lt (cellOf_lt_size hs hss)
    rw [hfill]
    exact Counts.layout_apply_of_not_whole hpos hw hsample hx

/-! ### A fill changes one cell -/

/-- **A fill changes exactly the cell of its point.** Over every reachable histogram, a point
whose bin ids all have slots is updated in the one cell `cellAt` reads for those ids: a store
of cells applies the cell's own update there and keeps every other cell, and the counting
store applies its update there and rewrites the other cells only by widening them, a weight
that is not a whole number not below zero widening them to floats. A point with a bin id
without a slot changes nothing, and `fill` is the fill without weight or sample. -/
theorem fill_updates_one_cell :
    (∀ {σ α : Type} [Cell α] [Store σ α] [Store.Cellwise σ α] (h : Histogram σ) (f : Fill)
      (js : List Int), h.Reachable → h.axes.binIds f.coords = .ok js →
      (h.axes.slotsOf js).isSome →
      ∃ c₀, h.cellAt js = .ok c₀ ∧
        (∀ c, f.update c₀ = .ok c →
          (h.fillWith f).2 = none ∧ (h.fillWith f).1.cellAt js = .ok c ∧
          ∀ js', (h.axes.slotsOf js').isSome → js' ≠ js →
            (h.fillWith f).1.cellAt js' = h.cellAt js') ∧
        (∀ e, f.update c₀ = .error e → h.fillWith f = (h, some e))) ∧
    (∀ (h : Histogram Counts) (f : Fill) (js : List Int), h.Reachable →
      h.axes.binIds f.coords = .ok js → (h.axes.slotsOf js).isSome →
      ∃ i, h.axes.indexOfBins js = .ok i ∧
        h.fillWith f = (⟨h.axes, (f.apply h.store i).1⟩, (f.apply h.store i).2) ∧
        (∀ js' i', (h.axes.slotsOf js').isSome → js' ≠ js → h.axes.indexOfBins js' = .ok i' →
          (h.fillWith f).1.cellAt js' =
            .ok ((h.store.promote (h.fillWith f).1.store.kind).get i')) ∧
        (∀ v n, h.store.Exact v → f.sample = none →
          (f.weight = none ∧ n = 1 ∨ ∃ x, f.weight = some x ∧ x.DenotesNat n) →
          (h.fillWith f).1.store.Exact (v.modify i (· + n))) ∧
        (∀ x, f.weight = some x → f.sample = none → (∀ n, ¬ x.DenotesNat n) →
          (h.fillWith f).1.store.layout = .real)) ∧
    (∀ {σ ν : Type} [Store σ ν] (h : Histogram σ) (f : Fill) (js : List Int),
      h.axes.binIds f.coords = .ok js → h.axes.slotsOf js = none → h.fillWith f = (h, none)) ∧
    (∀ {σ ν : Type} [Store σ ν] (h : Histogram σ) (coords : List Coord),
      h.fill coords = h.fillWith (Fill.ofCoords coords)) :=
  ⟨fun _ _ _ hr hjs hv => fillWith_cellwise hr.shaped hjs hv,
    fun _ _ _ hr hjs hv => fillWith_counts hr.shaped hjs hv,
    fun _ _ _ hjs hnone => fillWith_dropped hjs hnone,
    fun _ _ => rfl⟩

/-- Two integer axes, `[0, 3)` with both flow slots and `[0, 4)` without, over a store of
floats: a weighted fill of `(1, 2)` adds its weight to that cell alone, and a point on the
second axis at `4`, which has no overflow slot, changes nothing. -/
theorem fill_updates_one_cell_two_axes :
    ∃ h : Histogram (CellVec Float),
      Histogram.withStore [.integer ⟨0, 3, .flows, by decide, by decide⟩,
        .integer ⟨0, 4, .empty, by decide, by decide⟩] (CellVec.new 0) = .ok h ∧
      (h.fillWith ⟨[.int 1, .int 2], some 2.5, none⟩).1.cellAt [1, 2] = .ok (0.0 + 2.5) ∧
      (h.fillWith ⟨[.int 1, .int 2], some 2.5, none⟩).1.cellAt [0, 0] = h.cellAt [0, 0] ∧
      h.fillWith ⟨[.int 1, .int 4], some 2.5, none⟩ = (h, none) := by
  obtain ⟨hcells, -, hdropped, -⟩ := fill_updates_one_cell
  have hw : Histogram.withStore [.integer ⟨0, 3, .flows, by decide, by decide⟩,
      .integer ⟨0, 4, .empty, by decide, by decide⟩] (CellVec.new 0 : CellVec Float) =
      .ok ⟨[.integer ⟨0, 3, .flows, by decide, by decide⟩,
        .integer ⟨0, 4, .empty, by decide, by decide⟩], CellVec.new 20⟩ := rfl
  refine ⟨_, hw, ?_⟩
  obtain ⟨c₀, hc₀, hok, -⟩ :=
    hcells _ ⟨[.int 1, .int 2], some 2.5, none⟩ [1, 2] (.withStore hw) rfl rfl
  -- the cell starts empty
  have hzero : c₀ = 0.0 := by
    have hread : Histogram.cellAt (⟨[.integer ⟨0, 3, .flows, by decide, by decide⟩,
        .integer ⟨0, 4, .empty, by decide, by decide⟩], CellVec.new 20⟩ : Histogram (CellVec Float))
        [1, 2] = .ok 0.0 := rfl
    exact Except.ok.inj (hc₀.symm.trans hread)
  subst hzero
  obtain ⟨-, hcell, hframe⟩ := hok _ rfl
  exact ⟨hcell, hframe [0, 0] rfl (by decide), hdropped _ _ [1, 4] rfl rfl⟩

/-- A fractional weight moves the counting store to floats, and the count `2 ^ 53 + 1` of the
other cell of a two-cell axis reads back as the float worth `2 ^ 53`. -/
theorem fill_rounds_other_count :
    ∃ h : Histogram Counts,
      Histogram.ofParts [.integer ⟨0, 2, .empty, by decide, by decide⟩]
        (.exact .u64 #[9007199254740993, 0] (by decide)) = .ok h ∧
      h.cellAt [0] = .ok (.int 9007199254740993) ∧
      (h.fillWith ⟨[.int 1], some 0.5, none⟩).2 = none ∧
      (h.fillWith ⟨[.int 1], some 0.5, none⟩).1.cellAt [0] =
        .ok (.real (Float.ofNat 9007199254740993)) ∧
      (Float.ofNat 9007199254740993).toNat? = some 9007199254740992 := by
  -- a fractional weight is not a whole count, so the store moves to floats
  have hhalf : (0.5 : Float).toNat? = none := by decide
  refine ⟨_, rfl, rfl, by decide, ?_, by decide⟩
  simp only [fillWith, Fill.apply, Counts.store_addWeight, Counts.add, hhalf]
  with_unfolding_all rfl

end Histogram

end Histograms
