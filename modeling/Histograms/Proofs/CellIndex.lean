import Histograms.Index
import Mathlib.Algebra.BigOperators.Ring.Finset
import Mathlib.Tactic.Ring
/-!
# Cell indices are a mixed-radix numbering

`Axis.slot` places the bin ids an axis has (`-1` and `size` only when the axis has
that flow slot) on the slots `[0, extent)`, one to one. A list of slots, one per
axis, is a number in mixed radix: `Axes.cellOf` reads it with axis `0` as the
lowest digit, and `Axes.slotsAt` writes a number back as its digits. The cursor
walk of `Axes.placeBins` computes exactly `Axes.cellOf` of the slots as long as
the product of the extents stays below `2 ^ 64`, which is what a successful
`Axes.bincount` promises.

Main statements:

* `Axis.slot_eq_some_iff` — the slot rule in one place; `Axis.slot_binOfSlot`
  and `Axis.binOfSlot_of_slot` make `Axis.binOfSlot` its inverse.
* `Axes.slotsAt_cellOf`, `Axes.cellOf_slotsAt`, `Axes.cellOf_lt` — reading and
  writing mixed-radix digits are inverse bijections between digit lists and
  `[0, ∏ extent)`.
* `Cursor.placeAll_of_slotsOf` — the cursor walk is the mixed-radix reading.
* `Axes.placeBins_of_slotsOf`, `Axes.placeBins_missing` — placing bin ids
  succeeds with the walk, or fails at the first id without a slot.
* `indexOfBins_mixed_radix` — `Axes.indexOfBins` as a whole.
-/

namespace Histograms

/-! ### Slots of one axis -/

namespace Axis

variable (a : Axis)

theorem size_lt_maxBins : a.size < maxBins := by
  cases a with
  | regular r => exact r.bins_lt
  | integer i =>
    have := i.min_lt
    have := i.span_lt
    simp only [size, Integer.size]; omega
  | category c => exact c.size_lt

theorem extent_eq : a.extent = a.size + a.options.underflow.toNat + a.options.overflow.toNat := by
  simp only [extent, AxisOptions.flowSlots]; omega

variable {a}

/-- The slot rule: ordinary bins keep their id, the overflow id `size` takes slot `size`,
and the underflow id `-1` takes the slot after the overflow slot. -/
theorem slot_eq_some_iff {j : Int} {s : Nat} :
    a.slot j = some s ↔
      (0 ≤ j ∧ j < a.size ∧ (s : Int) = j) ∨
      (j = a.size ∧ a.options.overflow = true ∧ s = a.size) ∨
      (j = -1 ∧ a.options.underflow = true ∧ s = a.size + a.options.overflow.toNat) := by
  unfold slot
  split_ifs <;> grind

theorem slot_lt_extent {j : Int} {s : Nat} (h : a.slot j = some s) : s < a.extent := by
  have hsize := a.extent_eq
  rcases slot_eq_some_iff.mp h with ⟨-, hlt, hs⟩ | ⟨-, ho, rfl⟩ | ⟨-, hu, rfl⟩
  · omega
  · simp only [ho, Bool.toNat_true] at hsize; omega
  · simp only [hu, Bool.toNat_true] at hsize; omega

/-- A bin id with a slot is one the axis has: `-1`, an ordinary bin, or `size`. -/
theorem bin_mem_of_slot {j : Int} {s : Nat} (h : a.slot j = some s) : -1 ≤ j ∧ j ≤ a.size := by
  rcases slot_eq_some_iff.mp h with ⟨_, _, _⟩ | ⟨rfl, _, _⟩ | ⟨rfl, _, _⟩ <;> omega

/-- The bin id of slot `s`: the inverse of `Axis.slot`. -/
def binOfSlot (a : Axis) (s : Nat) : Int :=
  if s < a.size then s
  else if s = a.size ∧ a.options.overflow = true then a.size
  else -1

theorem binOfSlot_of_slot {j : Int} {s : Nat} (h : a.slot j = some s) : a.binOfSlot s = j := by
  unfold binOfSlot
  rcases slot_eq_some_iff.mp h with ⟨_, _, hs⟩ | ⟨rfl, ho, rfl⟩ | ⟨rfl, hu, rfl⟩
  · have : s < a.size := by omega
    simp only [this, ↓reduceIte]; omega
  · simp [ho]
  · cases a.options.overflow <;> simp

theorem slot_binOfSlot {s : Nat} (h : s < a.extent) : a.slot (a.binOfSlot s) = some s := by
  have hsize := a.extent_eq
  rw [slot_eq_some_iff, binOfSlot]
  -- the three slot kinds, with the flow options left to `grind`
  split_ifs <;> grind [Bool.toNat_le]

end Axis

/-! ### Mixed-radix digits -/

namespace Axes

variable {axes : Axes}

theorem extents_prod_pos (axes : Axes) : 0 < (axes.map Axis.extent).prod := by
  induction axes with
  | nil => simp
  | cons a axes ih =>
    simp only [List.map_cons, List.prod_cons]
    exact Nat.mul_pos a.extent_pos ih

/-- The cell of one slot per axis, axis `0` varying fastest. -/
def cellOf : Axes → List Nat → Nat
  | a :: axes, s :: ss => s + a.extent * cellOf axes ss
  | _, _ => 0

/-- The digits of cell `n` in the radices of the extents, axis `0` first. -/
def slotsAt : Axes → Nat → List Nat
  | [], _ => []
  | a :: axes, n => n % a.extent :: slotsAt axes (n / a.extent)

/-- One slot per axis, each below its axis' extent. -/
def Fits (axes : Axes) (ss : List Nat) : Prop :=
  List.Forall₂ (fun a s => s < a.extent) axes ss

/-- The slots of one bin id per axis, when every id has one. -/
def slotsOf : Axes → List Int → Option (List Nat)
  | a :: axes, j :: js => (a.slot j).bind fun s => (slotsOf axes js).map (s :: ·)
  | [], [] => some []
  | _, _ => none

/-- The bin ids of one slot per axis. -/
def binsOf (axes : Axes) (ss : List Nat) : List Int :=
  List.zipWith Axis.binOfSlot axes ss

@[simp] theorem slotsOf_nil_nil : slotsOf [] [] = some [] := rfl

theorem slotsOf_cons_eq_some {a : Axis} {j : Int} {js : List Int} {ss : List Nat} :
    slotsOf (a :: axes) (j :: js) = some ss ↔
      ∃ s ss', a.slot j = some s ∧ slotsOf axes js = some ss' ∧ ss = s :: ss' := by
  simp only [slotsOf, Option.bind_eq_some_iff, Option.map_eq_some_iff]
  constructor
  · rintro ⟨s, hs, ss', hss', rfl⟩
    exact ⟨s, ss', hs, hss', rfl⟩
  · rintro ⟨s, ss', hs, hss', rfl⟩
    exact ⟨s, hs, ss', hss', rfl⟩

theorem fits_of_slotsOf {js : List Int} {ss : List Nat} (h : slotsOf axes js = some ss) :
    Fits axes ss := by
  induction axes generalizing js ss with
  | nil =>
    cases js with
    | nil => cases h; exact .nil
    | cons j js => cases h
  | cons a axes ih =>
    cases js with
    | nil => cases h
    | cons j js =>
      obtain ⟨s, ss', hs, hss', rfl⟩ := slotsOf_cons_eq_some.mp h
      exact .cons (Axis.slot_lt_extent hs) (ih hss')

theorem length_of_slotsOf {js : List Int} {ss : List Nat} (h : slotsOf axes js = some ss) :
    js.length = axes.length := by
  induction axes generalizing js ss with
  | nil =>
    cases js with
    | nil => rfl
    | cons j js => cases h
  | cons a axes ih =>
    cases js with
    | nil => cases h
    | cons j js =>
      obtain ⟨s, ss', -, hss', rfl⟩ := slotsOf_cons_eq_some.mp h
      simp [ih hss']

theorem cellOf_lt {ss : List Nat} (h : Fits axes ss) : cellOf axes ss < (axes.map Axis.extent).prod := by
  induction h with
  | nil => simp [cellOf]
  | @cons a s axes ss hs _ ih =>
    simp only [cellOf, List.map_cons, List.prod_cons]
    calc s + a.extent * cellOf axes ss
        < a.extent + a.extent * cellOf axes ss := by omega
      _ = a.extent * (cellOf axes ss + 1) := by ring
      _ ≤ a.extent * (axes.map Axis.extent).prod := Nat.mul_le_mul_left _ ih

theorem slotsAt_cellOf {ss : List Nat} (h : Fits axes ss) : slotsAt axes (cellOf axes ss) = ss := by
  induction h with
  | nil => rfl
  | @cons a s axes ss hs _ ih =>
    have he := a.extent_pos
    simp only [slotsAt, cellOf, Nat.add_mul_mod_self_left, Nat.mod_eq_of_lt hs,
      Nat.add_mul_div_left _ _ he, Nat.div_eq_of_lt hs, Nat.zero_add, ih]

theorem cellOf_slotsAt {n : Nat} (h : n < (axes.map Axis.extent).prod) :
    cellOf axes (slotsAt axes n) = n := by
  induction axes generalizing n with
  | nil => simp at h; simp [h, cellOf]
  | cons a axes ih =>
    simp only [List.map_cons, List.prod_cons] at h
    have hq : n / a.extent < (axes.map Axis.extent).prod :=
      (Nat.div_lt_iff_lt_mul a.extent_pos).mpr (by rw [Nat.mul_comm]; exact h)
    simp only [slotsAt, cellOf, ih hq, Nat.mod_add_div]

theorem fits_slotsAt (axes : Axes) (n : Nat) : Fits axes (slotsAt axes n) := by
  induction axes generalizing n with
  | nil => exact .nil
  | cons a axes ih => exact .cons (Nat.mod_lt _ a.extent_pos) (ih _)

theorem slotsOf_binsOf {ss : List Nat} (h : Fits axes ss) : slotsOf axes (binsOf axes ss) = some ss := by
  induction h with
  | nil => rfl
  | @cons a s axes ss hs _ ih =>
    simp only [binsOf, List.zipWith_cons_cons] at ih ⊢
    exact slotsOf_cons_eq_some.mpr ⟨s, ss, Axis.slot_binOfSlot hs, ih, rfl⟩

theorem eq_binsOf_of_slotsOf {js : List Int} {ss : List Nat} (h : slotsOf axes js = some ss) :
    js = binsOf axes ss := by
  induction axes generalizing js ss with
  | nil =>
    cases js with
    | nil => rfl
    | cons j js => cases h
  | cons a axes ih =>
    cases js with
    | nil => cases h
    | cons j js =>
      obtain ⟨s, ss', hs, hss', rfl⟩ := slotsOf_cons_eq_some.mp h
      simp only [binsOf, List.zipWith_cons_cons, Axis.binOfSlot_of_slot hs]
      exact congrArg _ (ih hss')

/-- The mixed-radix reading as a sum: slot `i` weighs the product of the extents before it. -/
theorem cellOf_eq_sum {ss : List Nat} (h : ss.length = axes.length) :
    cellOf axes ss =
      ∑ i ∈ Finset.range ss.length, ss.getD i 0 * ((axes.take i).map Axis.extent).prod := by
  induction axes generalizing ss with
  | nil =>
    obtain rfl : ss = [] := List.eq_nil_of_length_eq_zero h
    rfl
  | cons a axes ih =>
    cases ss with
    | nil => simp at h
    | cons s ss =>
      simp only [List.length_cons, Nat.add_right_cancel_iff] at h
      rw [cellOf, ih h, List.length_cons, Finset.sum_range_succ', Finset.mul_sum]
      simp only [List.getD_cons_succ, List.getD_cons_zero, List.take_succ_cons, List.take_zero,
        List.map_cons, List.map_nil, List.prod_cons, List.prod_nil, Nat.mul_one]
      rw [Nat.add_comm]
      congr 1
      refine Finset.sum_congr rfl fun i _ => ?_
      ring

end Axes

/-! ### The cursor walk -/

namespace Cursor

/-- Places one bin id per axis from `c`; an id without a slot drops the point. -/
def placeAll : Cursor → Axes → List Int → Cursor
  | c, a :: axes, j :: js => placeAll (c.step a j) axes js
  | c, _, _ => c

/-- A cursor is in order when it is dropped or its offset lies below its stride. -/
def InOrder (c : Cursor) : Prop := c.stride = 0 ∨ c.offset < c.stride

variable {c : Cursor} {a : Axis} {j : Int} {s : Nat}

theorem step_of_slot (h : a.slot j = some s) (hc : c.stride * a.extent < 2 ^ 64) :
    c.step a j = ⟨c.offset + s * c.stride, c.stride * a.extent⟩ := by
  simp only [step, h, hc, ↓reduceIte]

theorem step_of_slot_none (h : a.slot j = none) : (c.step a j).stride = 0 := by
  simp [step, h]

theorem step_stride_le : (c.step a j).stride ≤ c.stride * a.extent := by
  unfold step
  split
  · dsimp only; split <;> omega
  · exact Nat.zero_le _

/-- One step keeps a cursor in order: the new offset stays below `(slot + 1) * stride`. -/
theorem inOrder_step (hc : c.InOrder) : (c.step a j).InOrder := by
  rcases hc with h0 | hlt
  · left
    have := step_stride_le (c := c) (a := a) (j := j)
    rw [h0, Nat.zero_mul] at this
    omega
  · unfold step
    split
    · next s hs =>
      have hs := Axis.slot_lt_extent hs
      dsimp only
      split
      · right
        calc c.offset + s * c.stride < c.stride + s * c.stride := by omega
          _ = (s + 1) * c.stride := by ring
          _ ≤ a.extent * c.stride := Nat.mul_le_mul_right _ hs
          _ = c.stride * a.extent := Nat.mul_comm _ _
      · exact .inl rfl
    · exact .inl rfl

theorem placeAll_dropped (hc : c.stride = 0) (axes : Axes) (js : List Int) :
    (c.placeAll axes js).stride = 0 := by
  induction axes generalizing c js with
  | nil => cases js <;> exact hc
  | cons a axes ih =>
    cases js with
    | nil => exact hc
    | cons j js =>
      apply ih
      have := step_stride_le (c := c) (a := a) (j := j)
      rw [hc, Nat.zero_mul] at this
      omega

/-- The walk keeps a cursor in order, and its stride never passes the starting stride times the
product of the extents. -/
theorem inOrder_placeAll (hc : c.InOrder) (axes : Axes) (js : List Int) :
    (c.placeAll axes js).InOrder ∧
      (c.placeAll axes js).stride ≤ c.stride * (axes.map Axis.extent).prod := by
  induction axes generalizing c js with
  | nil => cases js <;> simp [Cursor.placeAll, hc]
  | cons a axes ih =>
    cases js with
    | nil =>
      refine ⟨hc, ?_⟩
      exact Nat.le_mul_of_pos_right _ (Axes.extents_prod_pos _)
    | cons j js =>
      obtain ⟨hin, hle⟩ := ih (inOrder_step hc) js
      refine ⟨hin, ?_⟩
      calc ((c.step a j).placeAll axes js).stride
          ≤ (c.step a j).stride * (axes.map Axis.extent).prod := hle
        _ ≤ c.stride * a.extent * (axes.map Axis.extent).prod :=
          Nat.mul_le_mul_right _ step_stride_le
        _ = c.stride * ((a :: axes).map Axis.extent).prod := by
          simp only [List.map_cons, List.prod_cons, Nat.mul_assoc]

/-- Along bin ids that all have slots, and while the strides stay below `2 ^ 64`, the walk
adds the mixed-radix cell of the slots, scaled by the starting stride. -/
theorem placeAll_of_slotsOf {axes : Axes} {js : List Int} {ss : List Nat}
    (h : axes.slotsOf js = some ss) (hc : c.stride * (axes.map Axis.extent).prod < 2 ^ 64) :
    c.placeAll axes js =
      ⟨c.offset + c.stride * axes.cellOf ss, c.stride * (axes.map Axis.extent).prod⟩ := by
  induction axes generalizing c js ss with
  | nil =>
    cases js with
    | nil => cases h; simp [placeAll, Axes.cellOf]
    | cons j js => cases h
  | cons a axes ih =>
    cases js with
    | nil => cases h
    | cons j js =>
      obtain ⟨s, ss', hs, hss', rfl⟩ := Axes.slotsOf_cons_eq_some.mp h
      simp only [List.map_cons, List.prod_cons, ← Nat.mul_assoc] at hc
      have hstep : c.stride * a.extent < 2 ^ 64 :=
        Nat.lt_of_le_of_lt (Nat.le_mul_of_pos_right _ (Axes.extents_prod_pos axes)) hc
      rw [placeAll, step_of_slot hs hstep, ih hss' hc]
      simp only [Axes.cellOf, List.map_cons, List.prod_cons, Cursor.mk.injEq]
      constructor <;> ring

/-- Equal numbers of axes and ids, one of them without a slot: the point is dropped. -/
theorem placeAll_of_slotsOf_none {axes : Axes} {js : List Int} (h : axes.slotsOf js = none)
    (hlen : js.length = axes.length) : (c.placeAll axes js).stride = 0 := by
  induction axes generalizing c js with
  | nil =>
    cases js with
    | nil => cases h
    | cons j js => cases hlen
  | cons a axes ih =>
    cases js with
    | nil => cases hlen
    | cons j js =>
      simp only [List.length_cons, Nat.add_right_cancel_iff] at hlen
      rw [placeAll]
      cases hs : a.slot j with
      | none => exact placeAll_dropped (step_of_slot_none hs) axes js
      | some s =>
        apply ih _ hlen
        simp only [Axes.slotsOf, hs, Option.bind_some, Option.map_eq_none_iff] at h
        exact h

end Cursor

/-! ### Placing bin ids -/

namespace Axes

variable {axes : Axes} {js : List Int} {ss : List Nat}

/-- `slotsOf` succeeds exactly on one id per axis, each with a slot. -/
theorem slotsOf_isSome_iff :
    (axes.slotsOf js).isSome ↔
      js.length = axes.length ∧
        ∀ i (hi : i < axes.length) (hj : i < js.length), (axes[i].slot js[i]).isSome := by
  induction axes generalizing js with
  | nil => cases js <;> simp [slotsOf]
  | cons a axes ih =>
    cases js with
    | nil => simp [slotsOf]
    | cons j js =>
      simp only [slotsOf, Option.isSome_bind, Option.isSome_map, List.length_cons,
        Nat.add_right_cancel_iff]
      rw [Option.any_eq_true_iff_get]
      constructor
      · rintro ⟨hs, hrest⟩
        obtain ⟨hlen, hall⟩ := ih.mp hrest
        refine ⟨hlen, fun i hi hj => ?_⟩
        cases i with
        | zero => exact hs
        | succ i => exact hall i (by simpa using hi) (by simpa using hj)
      · rintro ⟨hlen, hall⟩
        refine ⟨hall 0 (by simp) (by simp), ih.mpr ⟨hlen, fun i hi hj => ?_⟩⟩
        exact hall (i + 1) (by simpa using hi) (by simpa using hj)

theorem slotsOf_take (h : axes.slotsOf js = some ss) (k : Nat) :
    Axes.slotsOf (axes.take k) (js.take k) = some (ss.take k) := by
  induction axes generalizing js ss k with
  | nil =>
    cases js with
    | nil => cases h; simp
    | cons j js => cases h
  | cons a axes ih =>
    cases js with
    | nil => cases h
    | cons j js =>
      obtain ⟨s, ss', hs, hss', rfl⟩ := slotsOf_cons_eq_some.mp h
      cases k with
      | zero => rfl
      | succ k =>
        simp only [List.take_succ_cons]
        exact slotsOf_cons_eq_some.mpr ⟨s, ss'.take k, hs, ih hss' k, rfl⟩

theorem prod_take_le (axes : Axes) (k : Nat) :
    ((axes.take k).map Axis.extent).prod ≤ (axes.map Axis.extent).prod := by
  rw [← List.prod_take_mul_prod_drop (axes.map Axis.extent) k, ← List.map_take]
  exact Nat.le_mul_of_pos_right _ (by rw [← List.map_drop]; exact extents_prod_pos _)

theorem placeBins_of_slotsOf (h : axes.slotsOf js = some ss) (n : Nat) (c : Cursor) :
    placeBins n axes js c = .ok (c.placeAll axes js) := by
  induction axes generalizing js ss n c with
  | nil =>
    cases js with
    | nil => rfl
    | cons j js => cases h
  | cons a axes ih =>
    cases js with
    | nil => cases h
    | cons j js =>
      obtain ⟨s, ss', hs, hss', rfl⟩ := slotsOf_cons_eq_some.mp h
      simp only [placeBins, hs, Cursor.placeAll]
      exact ih hss' (n + 1) _

/-- Placing stops at the first id without a slot and reports its position, counted from `n`. -/
theorem placeBins_missing {i : Nat} (hi : i < axes.length) (hj : i < js.length)
    (hmiss : axes[i].slot js[i] = none) (hprev : ∀ k (hk : k < i), (axes[k].slot js[k]).isSome)
    (n : Nat) (c : Cursor) :
    placeBins n axes js c = .error (.indexOutOfRange (n + i) js[i] axes[i].size) := by
  induction i generalizing axes js n c with
  | zero =>
    match axes, js, hi, hj with
    | a :: axes, j :: js, _, _ =>
      simp only [List.getElem_cons_zero] at hmiss ⊢
      simp [placeBins, hmiss]
  | succ i ih =>
    match axes, js, hi, hj with
    | a :: axes, j :: js, hi, hj =>
      obtain ⟨s, hs⟩ := Option.isSome_iff_exists.mp (hprev 0 (Nat.zero_lt_succ _))
      simp only [List.getElem_cons_zero] at hs
      simp only [List.getElem_cons_succ] at hmiss ⊢
      simp only [placeBins, hs]
      rw [ih (by simpa using hi) (by simpa using hj) hmiss
        (fun k hk => by simpa using hprev (k + 1) (by omega))]
      congr 2
      omega

theorem indexOfBins_of_length_ne (h : js.length ≠ axes.length) :
    axes.indexOfBins js = .error (.argumentCount js.length axes.length) := by
  simp [indexOfBins, h]

theorem indexOfBins_of_slotsOf (h : axes.slotsOf js = some ss)
    (hN : (axes.map Axis.extent).prod < 2 ^ 64) : axes.indexOfBins js = .ok (axes.cellOf ss) := by
  have hwalk := Cursor.placeAll_of_slotsOf (c := Cursor.start) h (by simpa [Cursor.start] using hN)
  simp only [indexOfBins, length_of_slotsOf h, ne_eq, not_true_eq_false, ↓reduceIte,
    placeBins_of_slotsOf h, hwalk]
  simp [Except.map, Cursor.start]

theorem indexOfBins_missing (hlen : js.length = axes.length) {i : Nat} (hi : i < axes.length)
    (hj : i < js.length) (hmiss : axes[i].slot js[i] = none)
    (hprev : ∀ k (hk : k < i), (axes[k].slot js[k]).isSome) :
    axes.indexOfBins js = .error (.indexOutOfRange i js[i] axes[i].size) := by
  simp only [indexOfBins, hlen, ne_eq, not_true_eq_false, ↓reduceIte,
    placeBins_missing hi hj hmiss hprev, Nat.zero_add]
  rfl

/-- The cell count is the product of the extents, refused from `2 ^ 64` on. -/
theorem bincount_eq : axes.bincount = if (axes.map Axis.extent).prod < 2 ^ 64 then
    .ok (axes.map Axis.extent).prod else .error (.invalidAxis .tooManyCells) := rfl

theorem bincount_eq_ok_iff {N : Nat} :
    axes.bincount = .ok N ↔ N = (axes.map Axis.extent).prod ∧ (axes.map Axis.extent).prod < 2 ^ 64 := by
  rw [bincount_eq]
  split
  · next h => simp only [Except.ok.injEq]; constructor <;> intro h' <;> omega
  · next h => simp only [reduceCtorEq, false_iff]; omega

theorem bincount_eq_error_iff :
    axes.bincount = .error (.invalidAxis .tooManyCells) ↔ 2 ^ 64 ≤ (axes.map Axis.extent).prod := by
  rw [bincount_eq]
  split
  · next h => simp only [reduceCtorEq, false_iff]; omega
  · next h => exact ⟨fun _ => by omega, fun _ => rfl⟩

/-! ### Valid id lists are numbered one to one -/

/-- The ids of valid id lists are signed 32-bit words. -/
theorem int32_of_slotsOf (h : axes.slotsOf js = some ss) :
    ∀ j ∈ js, -2 ^ 31 ≤ j ∧ j < 2 ^ 31 := by
  induction axes generalizing js ss with
  | nil =>
    cases js with
    | nil => simp
    | cons j js => cases h
  | cons a axes ih =>
    cases js with
    | nil => cases h
    | cons j js =>
      obtain ⟨s, ss', hs, hss', rfl⟩ := slotsOf_cons_eq_some.mp h
      have hj := Axis.bin_mem_of_slot hs
      have hsize := a.size_lt_maxBins
      simp only [Axis.maxBins] at hsize
      intro x hx
      rcases List.mem_cons.mp hx with rfl | hx
      · omega
      · exact ih hss' x hx

theorem indexOfBins_injective {js' : List Int} {ss' : List Nat} (h : axes.slotsOf js = some ss)
    (h' : axes.slotsOf js' = some ss') (hN : (axes.map Axis.extent).prod < 2 ^ 64)
    (heq : axes.indexOfBins js = axes.indexOfBins js') : js = js' := by
  rw [indexOfBins_of_slotsOf h hN, indexOfBins_of_slotsOf h' hN, Except.ok.injEq] at heq
  have hss : ss = ss' := by
    rw [← slotsAt_cellOf (fits_of_slotsOf h), ← slotsAt_cellOf (fits_of_slotsOf h'), heq]
  rw [eq_binsOf_of_slotsOf h, eq_binsOf_of_slotsOf h', hss]

/-- Every cell below the product of the extents is the index of the bin ids of its digits. -/
theorem indexOfBins_binsOf_slotsAt {n : Nat} (hn : n < (axes.map Axis.extent).prod)
    (hN : (axes.map Axis.extent).prod < 2 ^ 64) :
    axes.slotsOf (axes.binsOf (axes.slotsAt n)) = some (axes.slotsAt n) ∧
      axes.indexOfBins (axes.binsOf (axes.slotsAt n)) = .ok n := by
  have hslots := slotsOf_binsOf (fits_slotsAt axes n)
  refine ⟨hslots, ?_⟩
  rw [indexOfBins_of_slotsOf hslots hN, cellOf_slotsAt hn]

/-- After the first `k` axes the cursor's stride is the product of their extents and its
offset lies below it: no intermediate sum or product of the walk passes the cell count. -/
theorem placeAll_take (h : axes.slotsOf js = some ss) (hN : (axes.map Axis.extent).prod < 2 ^ 64)
    (k : Nat) :
    (Cursor.start.placeAll (axes.take k) (js.take k)).stride = ((axes.take k).map Axis.extent).prod ∧
      (Cursor.start.placeAll (axes.take k) (js.take k)).offset <
        (Cursor.start.placeAll (axes.take k) (js.take k)).stride ∧
      (Cursor.start.placeAll (axes.take k) (js.take k)).stride ≤ (axes.map Axis.extent).prod := by
  have hk := slotsOf_take h k
  have hle := prod_take_le axes k
  rw [Cursor.placeAll_of_slotsOf hk (by simp only [Cursor.start]; omega)]
  simp only [Cursor.start, Nat.zero_add, Nat.one_mul]
  exact ⟨trivial, cellOf_lt (fits_of_slotsOf hk), hle⟩

/-- Indexing by bin ids. The cell count `N` is the product of the extents, refused past
`2 ^ 64 - 1`. Over axes with a cell count, a wrong number of ids and then the first id
without a slot are refused; one valid id per axis gives the mixed-radix sum of the slots,
with every intermediate cursor inside `N`; and indexing numbers the valid id lists one to
one by `[0, N)`. -/
theorem indexOfBins_mixed_radix (axes : Axes) :
    (∀ a ∈ axes, ∀ j s, a.slot j = some s ↔
      (0 ≤ j ∧ j < a.size ∧ (s : Int) = j) ∨
      (j = a.size ∧ a.options.overflow = true ∧ s = a.size) ∨
      (j = -1 ∧ a.options.underflow = true ∧ s = a.size + a.options.overflow.toNat)) ∧
    (∀ N, axes.bincount = .ok N ↔
      N = (axes.map Axis.extent).prod ∧ (axes.map Axis.extent).prod ≤ 2 ^ 64 - 1) ∧
    (axes.bincount = .error (.invalidAxis .tooManyCells) ↔
      2 ^ 64 - 1 < (axes.map Axis.extent).prod) ∧
    ∀ N, axes.bincount = .ok N →
      (∀ js : List Int, js.length ≠ axes.length →
        axes.indexOfBins js = .error (.argumentCount js.length axes.length)) ∧
      (∀ (js : List Int) (i : Nat) (hi : i < axes.length) (hj : i < js.length),
        js.length = axes.length → axes[i].slot js[i] = none →
        (∀ k (hk : k < i), (axes[k].slot js[k]).isSome) →
        axes.indexOfBins js = .error (.indexOutOfRange i js[i] axes[i].size)) ∧
      (∀ js ss, axes.slotsOf js = some ss →
        axes.indexOfBins js =
          .ok (∑ i ∈ Finset.range ss.length, ss.getD i 0 * ((axes.take i).map Axis.extent).prod) ∧
        ∀ k, (Cursor.start.placeAll (axes.take k) (js.take k)).stride =
            ((axes.take k).map Axis.extent).prod ∧
          (Cursor.start.placeAll (axes.take k) (js.take k)).offset <
            (Cursor.start.placeAll (axes.take k) (js.take k)).stride ∧
          (Cursor.start.placeAll (axes.take k) (js.take k)).stride ≤ N) ∧
      (∀ js, (axes.slotsOf js).isSome → ∃ n < N, axes.indexOfBins js = .ok n) ∧
      (∀ js js', (axes.slotsOf js).isSome → (axes.slotsOf js').isSome →
        axes.indexOfBins js = axes.indexOfBins js' → js = js') ∧
      (∀ n < N, ∃ js, (axes.slotsOf js).isSome ∧ (∀ j ∈ js, -2 ^ 31 ≤ j ∧ j < 2 ^ 31) ∧
        axes.indexOfBins js = .ok n) := by
  refine ⟨fun a _ j s => Axis.slot_eq_some_iff, fun N => ?_, ?_, fun N hN => ?_⟩
  · rw [bincount_eq_ok_iff]; omega
  · rw [bincount_eq_error_iff]; omega
  obtain ⟨rfl, hlt⟩ := bincount_eq_ok_iff.mp hN
  refine ⟨fun js h => indexOfBins_of_length_ne h,
    fun js i hi hj hlen hmiss hprev => indexOfBins_missing hlen hi hj hmiss hprev,
    fun js ss h => ⟨?_, placeAll_take h hlt⟩, fun js h => ?_, fun js js' h h' heq => ?_,
    fun n hn => ?_⟩
  · rw [indexOfBins_of_slotsOf h hlt, cellOf_eq_sum (fits_of_slotsOf h).length_eq.symm]
  · obtain ⟨ss, hss⟩ := Option.isSome_iff_exists.mp h
    exact ⟨_, cellOf_lt (fits_of_slotsOf hss), indexOfBins_of_slotsOf hss hlt⟩
  · obtain ⟨ss, hss⟩ := Option.isSome_iff_exists.mp h
    obtain ⟨ss', hss'⟩ := Option.isSome_iff_exists.mp h'
    exact indexOfBins_injective hss hss' hlt heq
  · obtain ⟨hslots, hindex⟩ := indexOfBins_binsOf_slotsAt hn hlt
    exact ⟨_, by simp [hslots], int32_of_slotsOf hslots, hindex⟩

/-- Two integer axes, `[0, 3)` with both flow slots and `[0, 4)` without: `5 * 4` cells, and
the underflow id of the first axis with bin `1` of the second is cell `4 + 5 * 1`. -/
theorem indexOfBins_two_integer_axes :
    let axes : Axes := [.integer ⟨0, 3, .flows, by decide, by decide⟩,
      .integer ⟨0, 4, .empty, by decide, by decide⟩]
    axes.bincount = .ok 20 ∧ axes.indexOfBins [-1, 1] = .ok 9 ∧
      axes.indexOfBins [0, 4] = .error (.indexOutOfRange 1 4 4) := by
  intro axes
  have hN : axes.bincount = .ok 20 := rfl
  obtain ⟨-, -, -, hparts⟩ := indexOfBins_mixed_radix axes
  obtain ⟨-, hmiss, hsum, -⟩ := hparts 20 hN
  refine ⟨hN, ?_, hmiss [0, 4] 1 (by decide) (by decide) rfl (by decide) (by decide)⟩
  rw [(hsum [-1, 1] [4, 1] (by decide)).1]
  simp [Finset.sum_range_succ, axes, Axis.extent, Axis.size, Axis.options, Axis.Integer.size,
    AxisOptions.flowSlots, AxisOptions.flows]

end Axes

end Histograms
