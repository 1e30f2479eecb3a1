import Histograms.Proofs.Filling
/-!
# Binning a point agrees with reading its bins

`Axes.indexOfCoords` bins a point axis by axis and walks the cursor over the bin ids;
`Axes.indexOfBins` reads the cell of given bin ids. The two agree: binning checks the shape
of the point first, then asks every axis for its bin id, also after an axis has dropped the
point, and reports the first refusal in axis order. When every axis bins its coordinate, the
cursor names the cell that reading the bin ids gives, or no cell if one id has no slot. Over
axes with `2 ^ 64` cells or more the stride of the walk is poisoned before it gets there, so
no point ever names a cell.

Main statements:

* `Axis.index_of_two_le` — every axis bins one coordinate and refuses a tuple in its name.
* `Axes.binEach_eq_error_iff` — the first axis that refuses its coordinate decides the error.
* `Cursor.placeAll_stride_of_overflow` — a walk over too many cells ends dropped.
* `Axes.get?_placeAll_of_slots`, `Axes.get?_placeAll_of_missing` — the walk names the cell of
  the bin ids, or none.
* `Axes.indexOfCoords_agrees_with_indexOfBins` — the whole of `Axes.indexOfCoords`.
-/

namespace Histograms

/-! ### One coordinate per axis -/

theorem Coord.single_of_two_le {axis : String} {coords : List Coord} (h : 2 ≤ coords.length) :
    Coord.single axis coords = .error (.argumentType axis "a single value" "a tuple") := by
  match coords, h with
  | _ :: _ :: _, _ => rfl

/-- Every axis bins one coordinate at a time: a tuple of several is refused in the axis' name. -/
theorem Axis.index_of_two_le (a : Axis) {coords : List Coord} (h : 2 ≤ coords.length) :
    a.index coords = .error (.argumentType a.name "a single value" "a tuple") := by
  cases a <;>
    simp [Axis.index, Axis.name, Axis.Regular.index, Axis.Integer.index, Axis.Category.index,
      Coord.single_of_two_le h, bind, Except.bind]

namespace Axes

variable {axes : Axes} {coords : List Coord}

/-- Axis `i` is the first axis that refuses its coordinate, and it refuses it with `e`; the
axes before it bin theirs, in a slot or not. -/
def FirstRefusal (axes : Axes) (coords : List Coord) (e : HistError) : Prop :=
  ∃ i, ∃ (hi : i < axes.length) (hc : i < coords.length),
    axes[i].index [coords[i]] = .error e ∧ ∀ k (hk : k < i), ∃ j, axes[k].index [coords[k]] = .ok j

theorem firstRefusal_cons {a : Axis} {x : Coord} {e : HistError} :
    FirstRefusal (a :: axes) (x :: coords) e ↔
      a.index [x] = .error e ∨ (∃ j, a.index [x] = .ok j) ∧ FirstRefusal axes coords e := by
  constructor
  · rintro ⟨i, hi, hc, he, hbefore⟩
    cases i with
    | zero => exact .inl he
    | succ i =>
      refine .inr ⟨hbefore 0 (Nat.zero_lt_succ i), i, by simpa using hi, by simpa using hc, he,
        fun k hk => hbefore (k + 1) (Nat.succ_lt_succ hk)⟩
  · rintro (he | ⟨hfirst, i, hi, hc, he, hbefore⟩)
    · exact ⟨0, Nat.zero_lt_succ _, Nat.zero_lt_succ _, he, fun k hk => absurd hk (Nat.not_lt_zero k)⟩
    · refine ⟨i + 1, Nat.succ_lt_succ hi, Nat.succ_lt_succ hc, he, fun k hk => ?_⟩
      cases k with
      | zero => exact hfirst
      | succ k => exact hbefore k (Nat.lt_of_succ_lt_succ hk)

theorem binEach_cons_eq_error_iff {a : Axis} {x : Coord} {e : HistError} :
    binEach (a :: axes) (x :: coords) = .error e ↔
      a.index [x] = .error e ∨ (∃ j, a.index [x] = .ok j) ∧ binEach axes coords = .error e := by
  simp only [binEach]
  cases a.index [x] with
  | error e' => simp [bind, Except.bind, eq_comm]
  | ok j => cases binEach axes coords <;> simp [bind, Except.bind, pure, Except.pure]

/-- Binning one coordinate per axis fails exactly with the refusal of the first axis that
refuses its coordinate, whatever the axes before it made of theirs. -/
theorem binEach_eq_error_iff (hlen : coords.length = axes.length) {e : HistError} :
    binEach axes coords = .error e ↔ FirstRefusal axes coords e := by
  induction axes generalizing coords with
  | nil =>
    cases coords with
    | nil => simp [binEach, FirstRefusal]
    | cons x coords => cases hlen
  | cons a axes ih =>
    cases coords with
    | nil => cases hlen
    | cons x coords =>
      simp only [List.length_cons, Nat.add_right_cancel_iff] at hlen
      rw [binEach_cons_eq_error_iff, firstRefusal_cons, ih hlen]

/-- When every axis bins its coordinate, binning gives their bin ids in axis order. -/
theorem binEach_eq_ok (hlen : coords.length = axes.length) {js : List Int}
    (hjs : js.length = axes.length)
    (h : ∀ i (hi : i < axes.length) (hj : i < js.length) (hc : i < coords.length),
      axes[i].index [coords[i]] = .ok js[i]) :
    binEach axes coords = .ok js := by
  induction axes generalizing coords js with
  | nil =>
    cases coords with
    | nil => cases js with
      | nil => rfl
      | cons j js => cases hjs
    | cons x coords => cases hlen
  | cons a axes ih =>
    cases coords with
    | nil => cases hlen
    | cons x coords =>
      cases js with
      | nil => cases hjs
      | cons j js =>
        simp only [List.length_cons, Nat.add_right_cancel_iff] at hlen hjs
        have hhead : a.index [x] = .ok j := h 0 (Nat.zero_lt_succ _) (Nat.zero_lt_succ _)
          (Nat.zero_lt_succ _)
        have htail := ih hlen hjs fun i hi hj hc =>
          h (i + 1) (Nat.succ_lt_succ hi) (Nat.succ_lt_succ hj) (Nat.succ_lt_succ hc)
        simp [binEach, hhead, htail, bind, Except.bind, pure, Except.pure]

/-! ### The shape of the point -/

/-- A single axis given several coordinates bins the whole tuple. -/
theorem indexOfCoords_tuple {a : Axis} (h : 2 ≤ coords.length) :
    Axes.indexOfCoords [a] coords = (a.index coords).map (Cursor.start.step a) := by
  match coords, h with
  | x :: y :: rest, _ =>
    show (do let j ← a.index (x :: y :: rest); pure (Cursor.start.step a j)) = _
    cases a.index (x :: y :: rest) <;> rfl

/-- Apart from a tuple for a single axis, the number of coordinates is checked before any
axis is asked. -/
theorem indexOfCoords_of_length_ne (hnot : ∀ a, axes = [a] → coords.length < 2)
    (hlen : coords.length ≠ axes.length) :
    axes.indexOfCoords coords = .error (.argumentCount coords.length axes.length) := by
  unfold indexOfCoords
  split
  · next a x y rest =>
    have htwo := hnot a rfl
    simp only [List.length_cons] at htwo
    omega
  · exact if_pos hlen

/-- One coordinate per axis: the coordinates are binned in axis order and the cursor walks
their bin ids. -/
theorem indexOfCoords_of_length_eq (hlen : coords.length = axes.length) :
    axes.indexOfCoords coords = (binEach axes coords).map (Cursor.start.placeAll axes) := by
  rw [indexOfCoords_eq, binIds_of_not_tuple fun a x y rest hax hcx => ?_, if_neg (by omega)]
  subst hax hcx
  simp at hlen

end Axes

/-! ### Where the walk ends -/

namespace Cursor

variable {c : Cursor} {a : Axis} {j : Int}

/-- One step drops the point, or multiplies the stride by the axis' extent and stays
below `2 ^ 64`. -/
theorem step_stride_cases :
    (c.step a j).stride = 0 ∨
      (c.step a j).stride = c.stride * a.extent ∧ c.stride * a.extent < 2 ^ 64 := by
  unfold step
  split
  · dsimp only
    split
    · next hlt => exact .inr ⟨rfl, hlt⟩
    · exact .inl rfl
  · exact .inl rfl

/-- A walk over one bin id per axis ends dropped, or every stride it took stayed below
`2 ^ 64`, the product of all the extents included. -/
theorem placeAll_stride_cases {axes : Axes} {js : List Int} (hlen : js.length = axes.length)
    (hc : c.stride < 2 ^ 64) :
    (c.placeAll axes js).stride = 0 ∨ c.stride * (axes.map Axis.extent).prod < 2 ^ 64 := by
  induction axes generalizing c js with
  | nil =>
    cases js with
    | nil => exact .inr (by simpa using hc)
    | cons j js => cases hlen
  | cons a axes ih =>
    cases js with
    | nil => cases hlen
    | cons j js =>
      simp only [List.length_cons, Nat.add_right_cancel_iff] at hlen
      rcases step_stride_cases (c := c) (a := a) (j := j) with h0 | ⟨hstride, hlt⟩
      · exact .inl (placeAll_dropped h0 axes js)
      · -- the step multiplied the stride: the rest of the walk starts from the product
        rcases ih (c := c.step a j) hlen (hstride ▸ hlt) with hd | hrest
        · exact .inl hd
        · rw [hstride, Nat.mul_assoc] at hrest
          exact .inr (by simpa only [List.map_cons, List.prod_cons] using hrest)

/-- Over axes with `2 ^ 64` cells or more, a walk from the start over one bin id per axis ends
dropped: the stride reaches the limit before the last axis. -/
theorem placeAll_stride_of_overflow {axes : Axes} {js : List Int} (hlen : js.length = axes.length)
    (hN : 2 ^ 64 ≤ (axes.map Axis.extent).prod) : (start.placeAll axes js).stride = 0 := by
  rcases placeAll_stride_cases (c := start) hlen (by decide) with h0 | hlt
  · exact h0
  · simp only [start, Nat.one_mul] at hlt
    omega

end Cursor

/-! ### The cell a point names -/

namespace Axes

variable {axes : Axes} {js : List Int}

/-- Over axes with a cell count, bin ids that all have slots lead the walk to the cell that
reading them gives. -/
theorem get?_placeAll_of_slots {N : Nat} (hN : axes.bincount = .ok N)
    (hjs : js.length = axes.length)
    (hslots : ∀ i (hi : i < axes.length) (hj : i < js.length), (axes[i].slot js[i]).isSome) :
    ∃ n, axes.indexOfBins js = .ok n ∧ (Cursor.start.placeAll axes js).get? = some n := by
  obtain ⟨ss, hss⟩ := Option.isSome_iff_exists.mp (slotsOf_isSome_iff.mpr ⟨hjs, hslots⟩)
  obtain ⟨-, hlt⟩ := bincount_eq_ok_iff.mp hN
  refine ⟨_, indexOfBins_of_slotsOf hss hlt, ?_⟩
  rw [Cursor.placeAll_of_slotsOf hss (by simpa [Cursor.start] using hlt), Cursor.get?,
    if_pos (by simpa [Cursor.start] using extents_prod_pos axes)]
  simp [Cursor.start]

/-- A bin id without a slot drops the point, whatever the other ids are. -/
theorem get?_placeAll_of_missing (hjs : js.length = axes.length)
    (hmiss : ∃ i, ∃ (hi : i < axes.length) (hj : i < js.length), axes[i].slot js[i] = none) :
    (Cursor.start.placeAll axes js).get? = none := by
  have hnone : axes.slotsOf js = none := by
    cases hs : axes.slotsOf js with
    | none => rfl
    | some ss =>
      have hsome : (axes.slotsOf js).isSome := by simp [hs]
      obtain ⟨-, hall⟩ := slotsOf_isSome_iff.mp hsome
      obtain ⟨i, hi, hj, hmissing⟩ := hmiss
      have hsome := hall i hi hj
      rw [hmissing] at hsome
      cases hsome
  simp [Cursor.get?, Cursor.placeAll_of_slotsOf_none hnone hjs]

theorem le_prod_of_bincount_eq_error {e : HistError} (hN : axes.bincount = .error e) :
    2 ^ 64 ≤ (axes.map Axis.extent).prod := by
  refine Nat.le_of_not_lt fun hlt => ?_
  rw [bincount_eq_ok_iff.mpr ⟨rfl, hlt⟩] at hN
  cases hN

/-- Over axes with `2 ^ 64` cells or more, no point names a cell. -/
theorem get?_placeAll_of_overflow {e : HistError} (hN : axes.bincount = .error e)
    (hjs : js.length = axes.length) : (Cursor.start.placeAll axes js).get? = none := by
  simp [Cursor.get?, Cursor.placeAll_stride_of_overflow hjs (le_prod_of_bincount_eq_error hN)]

/-- **Binning a point agrees with reading its bins.** A single axis given a tuple of several
coordinates bins it whole, and every axis refuses it. Otherwise a wrong number of coordinates
is refused before any axis is asked. With one coordinate per axis, binning fails exactly with
the refusal of the first axis that refuses its coordinate, whether or not an earlier axis
dropped the point; when every axis bins its coordinate, the cursor names the cell that
`indexOfBins` reads for the bin ids if each of them has a slot, and no cell otherwise. Over
axes with too many cells for a 64-bit count, no point names a cell. -/
theorem indexOfCoords_agrees_with_indexOfBins (axes : Axes) (coords : List Coord) :
    (∀ a, axes = [a] → 2 ≤ coords.length →
      axes.indexOfCoords coords = (a.index coords).map (Cursor.start.step a) ∧
      axes.indexOfCoords coords = .error (.argumentType a.name "a single value" "a tuple")) ∧
    ((∀ a, axes = [a] → coords.length < 2) → coords.length ≠ axes.length →
      axes.indexOfCoords coords = .error (.argumentCount coords.length axes.length)) ∧
    (coords.length = axes.length →
      (∀ e, axes.indexOfCoords coords = .error e ↔
        ∃ i, ∃ (hi : i < axes.length) (hc : i < coords.length),
          axes[i].index [coords[i]] = .error e ∧
          ∀ k (hk : k < i), ∃ j, axes[k].index [coords[k]] = .ok j) ∧
      ∀ js : List Int, js.length = axes.length →
        (∀ i (hi : i < axes.length) (hj : i < js.length) (hc : i < coords.length),
          axes[i].index [coords[i]] = .ok js[i]) →
        ∃ c, axes.indexOfCoords coords = .ok c ∧
          ∀ N, axes.bincount = .ok N →
            ((∀ i (hi : i < axes.length) (hj : i < js.length), (axes[i].slot js[i]).isSome) →
              ∃ n, axes.indexOfBins js = .ok n ∧ c.get? = some n) ∧
            ((∃ i, ∃ (hi : i < axes.length) (hj : i < js.length), axes[i].slot js[i] = none) →
              c.get? = none)) ∧
    (∀ e c, axes.bincount = .error e → axes.indexOfCoords coords = .ok c → c.get? = none) := by
  refine ⟨fun a hax htwo => ?_, fun hnot hlen => indexOfCoords_of_length_ne hnot hlen,
    fun hlen => ⟨fun e => ?_, fun js hjs hbins => ?_⟩, fun e c hN hc => ?_⟩
  · subst hax
    rw [indexOfCoords_tuple htwo, a.index_of_two_le htwo]
    exact ⟨rfl, rfl⟩
  · -- the walk cannot fail, so an error is binning's error
    show _ ↔ FirstRefusal axes coords e
    rw [indexOfCoords_of_length_eq hlen, ← binEach_eq_error_iff hlen]
    cases binEach axes coords <;> simp [Except.map]
  · refine ⟨_, by rw [indexOfCoords_of_length_eq hlen, binEach_eq_ok hlen hjs hbins]; rfl,
      fun N hN => ⟨get?_placeAll_of_slots hN hjs, get?_placeAll_of_missing hjs⟩⟩
  · rw [indexOfCoords_eq] at hc
    obtain ⟨js, hjs, rfl⟩ := Except.map_eq_ok hc
    exact get?_placeAll_of_overflow hN (length_binIds hjs)

/-- An integer axis `[0, 3)` without flow slots, then a real axis: the point `(9, "x")` is
dropped by the first axis, which has no slot for the overflow id `3`, and still refused by
the second, which bins no labels. -/
theorem indexOfCoords_label_after_drop :
    let axes : Axes := [.integer ⟨0, 3, .empty, by decide, by decide⟩,
      .regular ⟨2, 0.0, 1.0, .flows, by decide, by decide⟩]
    axes[0].index [.int 9] = .ok 3 ∧ axes[0].slot 3 = none ∧
      axes.indexOfCoords [.int 9, .label "x"] = .error (.argumentType "regular" "f64" "str") := by
  intro axes
  obtain ⟨-, -, hsame, -⟩ := indexOfCoords_agrees_with_indexOfBins axes [.int 9, .label "x"]
  have hfirst : axes[0].index [.int 9] = .ok 3 := rfl
  refine ⟨hfirst, rfl, ((hsame rfl).1 _).mpr ⟨1, by decide, by decide, rfl, fun k hk => ?_⟩⟩
  obtain rfl : k = 0 := by omega
  exact ⟨3, hfirst⟩

end Axes

end Histograms
