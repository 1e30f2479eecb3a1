import Histograms.Histogram
import Histograms.Proofs.CellIndex
import Histograms.Proofs.Stores
/-!
# The shape of a histogram

A histogram has at least one axis and one cell per cell index of its axes. The
constructors establish this and every operation keeps it, successful or not, for every
store whose sizes behave (`Store.Sized`). So every cell index that a fill or a read
computes lies inside the store.

* `Axes.indexOfCoords_eq` — binning a point takes its bin ids (`Axes.binIds`) and walks
  the cursor over them; `Histogram.fillWith_eq` says what a fill then does.
* `Histogram.Reachable` — the histograms the constructors build and the operations keep.
* `Histogram.Reachable.shaped` — every reachable histogram is `Histogram.Shaped`.
* `Histogram.reachable_shape` — along every run the shape holds, the indices of fills and
  reads lie inside the store, `get?` finds exactly the cells below the bin count, and two
  histograms over equal axes always merge.
-/

namespace Histograms

theorem Except.bind_eq_ok {ε α β : Type} {x : Except ε α} {f : α → Except ε β} {b : β}
    (h : (x >>= f) = .ok b) : ∃ a, x = .ok a ∧ f a = .ok b := by
  cases x with
  | error e => cases h
  | ok a => exact ⟨a, rfl, h⟩

theorem Except.map_eq_ok {ε α β : Type} {x : Except ε α} {f : α → β} {b : β}
    (h : x.map f = .ok b) : ∃ a, x = .ok a ∧ f a = b := by
  cases x with
  | error e => cases h
  | ok a => exact ⟨a, rfl, by cases h; rfl⟩

/-! ### The bin ids of a point -/

namespace Axes

/-- The bin id of each coordinate on its own axis, with the first refusal in axis order. -/
def binEach : Axes → List Coord → Except HistError (List Int)
  | a :: axes, x :: coords => do
    let j ← a.index [x]
    let js ← binEach axes coords
    pure (j :: js)
  | _, _ => .ok []

/-- The bin id a point has on each axis: a single axis bins a tuple of several coordinates
as a whole; otherwise there must be one coordinate per axis. -/
def binIds (axes : Axes) (coords : List Coord) : Except HistError (List Int) :=
  match axes, coords with
  | [a], _ :: _ :: _ => do pure [← a.index coords]
  | _, _ =>
    if coords.length ≠ axes.length then .error (.argumentCount coords.length axes.length)
    else binEach axes coords

theorem placeCoords_eq (axes : Axes) (coords : List Coord) (c : Cursor) :
    placeCoords axes coords c = (binEach axes coords).map (c.placeAll axes) := by
  induction axes generalizing coords c with
  | nil => cases coords <;> rfl
  | cons a axes ih =>
    cases coords with
    | nil => rfl
    | cons x coords =>
      simp only [placeCoords, binEach]
      cases a.index [x] with
      | error e => rfl
      | ok j =>
        refine (ih coords (c.step a j)).trans ?_
        cases binEach axes coords <;> rfl

theorem binIds_of_not_tuple {axes : Axes} {coords : List Coord}
    (hnot : ∀ a x y rest, axes = [a] → coords = x :: y :: rest → False) :
    axes.binIds coords =
      if coords.length ≠ axes.length then .error (.argumentCount coords.length axes.length)
      else binEach axes coords := by
  unfold binIds
  split
  · next a x y rest => exact (hnot a x y rest rfl rfl).elim
  · rfl

theorem indexOfCoords_eq (axes : Axes) (coords : List Coord) :
    axes.indexOfCoords coords = (axes.binIds coords).map (Cursor.start.placeAll axes) := by
  unfold indexOfCoords
  split
  · next a x y rest =>
    simp only [binIds]
    cases a.index (x :: y :: rest) <;> rfl
  · next hnot =>
    rw [binIds_of_not_tuple hnot]
    split
    · rfl
    · exact placeCoords_eq axes coords Cursor.start

/-! ### Where cell indices land -/

variable {axes : Axes} {js : List Int} {N i : Nat}

theorem slotsOf_of_placeBins {n : Nat} {c c' : Cursor} (hlen : js.length = axes.length)
    (h : placeBins n axes js c = .ok c') : (axes.slotsOf js).isSome := by
  induction axes generalizing js n c with
  | nil =>
    cases js with
    | nil => rfl
    | cons j js => cases hlen
  | cons a axes ih =>
    cases js with
    | nil => cases hlen
    | cons j js =>
      simp only [List.length_cons, Nat.add_right_cancel_iff] at hlen
      cases hs : a.slot j with
      | none => simp [placeBins, hs] at h
      | some s =>
        simp only [placeBins, hs] at h
        simp [slotsOf, hs, ih hlen h]

/-- A read finds a cell below the bin count. -/
theorem indexOfBins_lt (hN : axes.bincount = .ok N) (h : axes.indexOfBins js = .ok i) : i < N := by
  have hlen : js.length = axes.length := by
    by_contra hne
    rw [indexOfBins_of_length_ne hne] at h
    cases h
  obtain ⟨c, hc, -⟩ := Except.map_eq_ok (by simpa [indexOfBins, hlen] using h)
  obtain ⟨ss, hss⟩ := Option.isSome_iff_exists.mp (slotsOf_of_placeBins hlen hc)
  obtain ⟨rfl, hlt⟩ := bincount_eq_ok_iff.mp hN
  rw [indexOfBins_of_slotsOf hss hlt] at h
  cases h
  exact cellOf_lt (fits_of_slotsOf hss)

/-- A cursor walked from the start that was not dropped points below the product of the
extents. -/
theorem get?_placeAll_lt {c : Cursor} (hc : c = Cursor.start.placeAll axes js) (hi : c.get? = some i) :
    i < (axes.map Axis.extent).prod := by
  obtain ⟨hin, hle⟩ := Cursor.inOrder_placeAll (c := Cursor.start) (Or.inr Nat.zero_lt_one) axes js
  rw [← hc] at hin hle
  simp only [Cursor.get?] at hi
  split at hi
  · next hpos =>
    cases hi
    rcases hin with h0 | hlt
    · omega
    · simp only [Cursor.start, Nat.one_mul] at hle
      omega
  · cases hi

/-- A fill that is not dropped lands in a cell below the bin count. -/
theorem indexOfCoords_lt {coords : List Coord} {c : Cursor} (hN : axes.bincount = .ok N)
    (h : axes.indexOfCoords coords = .ok c) (hi : c.get? = some i) : i < N := by
  rw [indexOfCoords_eq] at h
  obtain ⟨js, -, hc⟩ := Except.map_eq_ok h
  obtain ⟨rfl, -⟩ := bincount_eq_ok_iff.mp hN
  exact get?_placeAll_lt hc.symm hi

end Axes

/-! ### Equal axes have equal cell counts -/

theorem Axis.extent_eq_of_beq {a b : Axis} (h : (a == b) = true) : a.extent = b.extent := by
  change Axis.beq a b = true at h
  cases a <;> cases b <;> simp only [Axis.beq, Bool.false_eq_true] at h
  · next a b =>
    change Axis.Regular.beq a b = true at h
    simp only [Axis.Regular.beq, Bool.and_eq_true, beq_iff_eq] at h
    simp [extent, size, options, h.1.1.1, h.2]
  · next a b =>
    change Axis.Integer.beq a b = true at h
    simp only [Axis.Integer.beq, Bool.and_eq_true, beq_iff_eq] at h
    simp [extent, size, options, Axis.Integer.size, h.1.1, h.1.2, h.2]
  · next a b =>
    change Axis.Category.beq a b = true at h
    simp only [Axis.Category.beq, Bool.and_eq_true, beq_iff_eq] at h
    simp [extent, size, options, Axis.Category.size, h.1, h.2]

theorem Axes.extents_eq_of_beq {axes axes' : Axes} (h : (axes == axes') = true) :
    axes.map Axis.extent = axes'.map Axis.extent := by
  induction axes generalizing axes' with
  | nil => cases axes' <;> simp_all
  | cons a axes ih =>
    cases axes' with
    | nil => simp at h
    | cons b axes' =>
      simp only [List.cons_beq_cons, Bool.and_eq_true] at h
      simp [Axis.extent_eq_of_beq h.1, ih h.2]

theorem Axes.bincount_eq_of_beq {axes axes' : Axes} (h : (axes == axes') = true) :
    axes.bincount = axes'.bincount := by
  simp only [bincount, extents_eq_of_beq h]

/-! ### What a fill does -/

namespace Histogram

variable {σ ν : Type} [Store σ ν]

/-- A fill bins the point; a refused point reports the refusal, a dropped point changes
nothing, and otherwise the store takes the fill at the cell the cursor reached. -/
theorem fillWith_eq (h : Histogram σ) (f : Fill) :
    h.fillWith f =
      match h.axes.binIds f.coords with
      | .error e => (h, some e)
      | .ok js =>
        match (Cursor.start.placeAll h.axes js).get? with
        | some i => (⟨h.axes, (f.apply h.store i).1⟩, (f.apply h.store i).2)
        | none => (h, none) := by
  rcases h with ⟨axes, store⟩
  simp only [fillWith, Axes.indexOfCoords_eq]
  cases axes.binIds f.coords <;> rfl

@[simp] theorem axes_fillWith (h : Histogram σ) (f : Fill) : (h.fillWith f).1.axes = h.axes := by
  rw [fillWith_eq]
  split
  · rfl
  · split <;> rfl

/-! ### The shape every histogram keeps -/

/-- At least one axis, and one cell per cell index of the axes. -/
def Shaped (h : Histogram σ) : Prop :=
  0 < h.rank ∧ h.axes.bincount = .ok h.size

/-- The histograms that the constructors build and the operations keep. A failed fill keeps
its histogram, and a failed reset or merge gives none, so every histogram a run of calls
holds is one of these. -/
inductive Reachable : Histogram σ → Prop
  | withStore {axes : Axes} {s : σ} {h : Histogram σ} : withStore axes s = .ok h → Reachable h
  | ofParts {axes : Axes} {s : σ} {h : Histogram σ} : ofParts axes s = .ok h → Reachable h
  | fillWith {h : Histogram σ} (f : Fill) : Reachable h → Reachable (h.fillWith f).1
  | reset {h h' : Histogram σ} : Reachable h → h.reset = .ok h' → Reachable h'
  | scale {h : Histogram σ} (x : Float) : Reachable h → Reachable (h.scale x)
  | merge {h o h' : Histogram σ} : Reachable h → Reachable o → h.merge o = .ok h' → Reachable h'

theorem rank_pos_of_not_isEmpty {axes : Axes} (h : ¬ axes.isEmpty = true) : 0 < axes.length := by
  simpa [List.isEmpty_iff, List.length_pos_iff] using h

theorem shaped_ofParts {axes : Axes} {s : σ} {h : Histogram σ} (hp : ofParts axes s = .ok h) :
    h.Shaped := by
  unfold ofParts at hp
  split at hp
  · cases hp
  · next hne =>
    obtain ⟨N, hN, hp⟩ := Except.bind_eq_ok hp
    split at hp
    · cases hp
    · next hsize =>
      cases hp
      exact ⟨rank_pos_of_not_isEmpty hne, by rw [hN, size, Decidable.of_not_not hsize]⟩

section Sized

variable [Store.Sized σ ν] {h o h' : Histogram σ}

theorem shaped_withStore {axes : Axes} {s : σ} (hw : withStore axes s = .ok h) : h.Shaped := by
  unfold withStore at hw
  split at hw
  · cases hw
  · next hne =>
    obtain ⟨N, hN, hw⟩ := Except.bind_eq_ok hw
    obtain ⟨s', hs', hw⟩ := Except.bind_eq_ok hw
    cases hw
    exact ⟨rank_pos_of_not_isEmpty hne, by rw [hN, size, Store.Sized.size_reset hs']⟩

theorem size_fillWith (h : Histogram σ) (f : Fill) : (h.fillWith f).1.size = h.size := by
  rw [fillWith_eq]
  split
  · rfl
  · split
    · exact Store.Sized.size_apply _ _ _
    · rfl

theorem Shaped.fillWith (hs : h.Shaped) (f : Fill) : (h.fillWith f).1.Shaped := by
  simpa only [Shaped, rank, axes_fillWith, size_fillWith] using hs

theorem Shaped.reset (hs : h.Shaped) (hr : h.reset = .ok h') : h'.Shaped := by
  obtain ⟨N, hN, hr⟩ := Except.bind_eq_ok hr
  obtain ⟨s', hs', hr⟩ := Except.bind_eq_ok hr
  cases hr
  exact ⟨hs.1, by rw [hN]; simp [size, Store.Sized.size_reset hs']⟩

theorem Shaped.scale (hs : h.Shaped) (x : Float) : (h.scale x).Shaped := by
  simpa only [Shaped, Histogram.scale, rank, size, Store.Sized.size_scale] using hs

theorem Shaped.merge (hs : h.Shaped) (hm : h.merge o = .ok h') : h'.Shaped := by
  unfold Histogram.merge at hm
  split at hm
  · obtain ⟨s', hs', hm⟩ := Except.bind_eq_ok hm
    cases hm
    simpa only [Shaped, rank, size, Store.Sized.size_merge hs'] using hs
  · cases hm

/-- Every reachable histogram is shaped: the constructors make the shape and each
operation keeps it. -/
theorem Reachable.shaped (hr : h.Reachable) : h.Shaped := by
  induction hr with
  | withStore hw => exact shaped_withStore hw
  | ofParts hp => exact shaped_ofParts hp
  | fillWith f _ ih => exact ih.fillWith f
  | reset _ hr ih => exact ih.reset hr
  | scale x _ ih => exact ih.scale x
  | merge _ _ hm ih _ => exact ih.merge hm

/-- Shaped histograms over equal axes have stores of one length, so they merge. -/
theorem Shaped.merge_ok (hs : h.Shaped) (ho : o.Shaped) (heq : (h.axes == o.axes) = true) :
    ∃ h', h.merge o = .ok h' := by
  have hsize : Store.size h.store = Store.size o.store := by
    have hN := hs.2
    rw [Axes.bincount_eq_of_beq heq, ho.2] at hN
    exact (Except.ok.inj hN).symm
  obtain ⟨s', hs'⟩ := Store.Sized.merge_ok hsize
  exact ⟨{ h with store := s' }, by simp [Histogram.merge, heq, hs']⟩

/-- **A histogram keeps its shape along every run of calls.** It has an axis and one cell
per cell index; every cell a fill reaches and every cell a read names is inside the store;
`get?` finds exactly the cells below the bin count; and a merge with a histogram over
equal axes succeeds. -/
theorem reachable_shape (hr : h.Reachable) :
    (0 < h.rank ∧ h.axes.bincount = .ok h.size) ∧
    (∀ (coords : List Coord) (c : Cursor) (i : Nat),
      h.axes.indexOfCoords coords = .ok c → c.get? = some i → i < h.size) ∧
    (∀ (js : List Int) (i : Nat), h.axes.indexOfBins js = .ok i → i < h.size) ∧
    (∀ N, h.axes.bincount = .ok N → ∀ i, (h.get? i).isSome ↔ i < N) ∧
    (∀ o : Histogram σ, o.Reachable → (h.axes == o.axes) = true → ∃ h', h.merge o = .ok h') := by
  have hs := hr.shaped
  refine ⟨hs, fun coords c i hc hi => Axes.indexOfCoords_lt hs.2 hc hi,
    fun js i hb => Axes.indexOfBins_lt hs.2 hb, fun N hN i => ?_,
    fun o ho heq => hs.merge_ok ho.shaped heq⟩
  -- the store has exactly the bin count's cells
  have hsize : h.size = N := Except.ok.inj (hs.2.symm.trans hN)
  by_cases hi : i < h.size <;> simp [get?, hi, ← hsize]

/-- Two integer axes with `5 * 4` cells, filled once: the histogram is reachable, keeps its
twenty cells, and merges with itself. -/
theorem reachable_shape_filled_counts :
    let axes : Axes := [.integer ⟨0, 3, .flows, by decide, by decide⟩,
      .integer ⟨0, 4, .empty, by decide, by decide⟩]
    let h : Histogram Counts :=
      (Histogram.fillWith ⟨axes, Counts.new 20⟩ (Fill.ofCoords [.int 1, .int 2])).1
    h.Reachable ∧ h.axes.bincount = .ok h.size ∧ h.size = 20 ∧ ∃ h', h.merge h = .ok h' := by
  intro axes h
  have hw : Histogram.withStore axes (Counts.new 0) = .ok ⟨axes, Counts.new 20⟩ := rfl
  have hr : h.Reachable := .fillWith _ (.withStore hw)
  obtain ⟨⟨-, hN⟩, -, -, -, hmerge⟩ := reachable_shape hr
  exact ⟨hr, hN, rfl, hmerge h hr (by decide)⟩

end Sized

end Histogram

end Histograms
