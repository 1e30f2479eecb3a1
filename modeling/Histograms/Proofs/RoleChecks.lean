import Histograms.Proofs.Binning
import Histograms.Proofs.Refusals
import Histograms.Cell.Sum
import Histograms.Cell.Mean
/-!
# Roles are checked where a point lands

Binning a point asks every axis, so an axis' refusal is reported wherever the point falls.
The roles of a fill are checked by the store, at the cell the point lands in: a cell kind
refuses a role it has no update for, and an accumulator of samples refuses a sample of the
wrong length. A point that some axis drops reaches no cell, and its fill succeeds and
changes nothing whatever its roles.

Where the point lands does not matter either: every store of the library refuses a fill for
its roles and its sample alone (`Store.RefusesByRole`), the same way in every cell. So two
points that both land are refused alike, and a dropped point is never refused for its roles.

Main statements:

* `Cell.RefusesByRole` — a cell kind whose refusals do not depend on its content; the five
  cell kinds of the library are such.
* `Store.RefusesByRole` — a store that refuses a fill alike in all its cells; the counting
  store and both stores of cells of such a kind are such.
* `Histogram.fillWith_of_dropped`, `Histogram.fillWith_snd_of_lands` — the two outcomes of a
  point that every axis bins.
* `Histogram.fill_refused_only_where_it_lands` — the above for every store of the library.
* `Histogram.dropped_sample_fill_succeeds` — a sample for the counting store is refused at a
  point that lands and accepted at one that is dropped.
-/

/-- The error a computation failed with, if it failed. -/
def Except.failure? {ε α : Type} : Except ε α → Option ε
  | .ok _ => none
  | .error e => some e

@[simp] theorem Except.failure?_ok {ε α : Type} (a : α) : (Except.ok a : Except ε α).failure? = none :=
  rfl

@[simp] theorem Except.failure?_error {ε α : Type} (e : ε) :
    (Except.error e : Except ε α).failure? = some e :=
  rfl

/-- An update read after a check fails exactly as the check does. -/
@[simp] theorem Except.failure?_bind_pure {ε α β : Type} (x : Except ε α) (g : α → β) :
    (x >>= fun a => pure (g a)).failure? = x.failure? := by
  cases x <;> rfl

namespace Histograms

/-! ### Cells that refuse by role -/

/-- A kind of cell whose refusals do not depend on its content: whether a fill's update is
refused, and with which error, is decided by the fill's roles and its sample alone. -/
class Cell.RefusesByRole (α : Type) [Cell α] : Prop where
  failure?_update (f : Fill) : ∃ r, ∀ c : α, (f.update c).failure? = r

-- The refusals are stated value by value: comparing two updates as terms would make the
-- kernel unfold the float arithmetic inside them.
instance : Cell.RefusesByRole Float where
  failure?_update f := by
    rcases f with ⟨_, _ | w, _ | xs⟩
    · exact ⟨none, fun _ => rfl⟩
    · exact ⟨some (.unsupportedRole "f64" .sample), fun _ => rfl⟩
    · exact ⟨none, fun _ => rfl⟩
    · exact ⟨some (.unsupportedRole "f64" .weightedSample), fun _ => rfl⟩

instance : Cell.RefusesByRole CompensatedSum where
  failure?_update f := by
    rcases f with ⟨_, _ | w, _ | xs⟩
    · exact ⟨none, fun _ => rfl⟩
    · exact ⟨some (.unsupportedRole "sum" .sample), fun _ => rfl⟩
    · exact ⟨none, fun _ => rfl⟩
    · exact ⟨some (.unsupportedRole "sum" .weightedSample), fun _ => rfl⟩

instance : Cell.RefusesByRole WeightedSum where
  failure?_update f := by
    rcases f with ⟨_, _ | w, _ | xs⟩
    · exact ⟨none, fun _ => rfl⟩
    · exact ⟨some (.unsupportedRole "weighted sum" .sample), fun _ => rfl⟩
    · exact ⟨none, fun _ => rfl⟩
    · exact ⟨some (.unsupportedRole "weighted sum" .weightedSample), fun _ => rfl⟩

/-- A running mean takes samples of one value only, checked before the update. -/
instance : Cell.RefusesByRole (Mean Float) where
  failure?_update f := by
    rcases f with ⟨_, _ | w, _ | xs⟩
    · exact ⟨some (.unsupportedRole "mean" .plain), fun _ => rfl⟩
    · exact ⟨(Cell.scalar xs).failure?, fun m => Except.failure?_bind_pure _ m.add⟩
    · exact ⟨some (.unsupportedRole "mean" .weight), fun _ => rfl⟩
    · exact ⟨some (.unsupportedRole "mean" .weightedSample), fun _ => rfl⟩

instance : Cell.RefusesByRole (WeightedMean Float) where
  failure?_update f := by
    rcases f with ⟨_, _ | w, _ | xs⟩
    · exact ⟨some (.unsupportedRole "weighted mean" .plain), fun _ => rfl⟩
    · exact ⟨(Cell.scalar xs).failure?, fun m => Except.failure?_bind_pure _ (m.add 1.0)⟩
    · exact ⟨some (.unsupportedRole "weighted mean" .weight), fun _ => rfl⟩
    · exact ⟨(Cell.scalar xs).failure?, fun m => Except.failure?_bind_pure _ (m.add w)⟩

/-! ### Stores that refuse by role -/

/-- A store that refuses a fill alike in every one of its cells. -/
class Store.RefusesByRole (σ : Type) (ν : outParam Type) [Store σ ν] : Prop where
  apply_snd_eq {s : σ} {i i' : Nat} (f : Fill) :
    i < Store.size s → i' < Store.size s → (f.apply s i).2 = (f.apply s i').2

/-- The counting store takes plain counts and weights anywhere and samples nowhere. -/
instance : Store.RefusesByRole Counts Count where
  apply_snd_eq f _ _ := by rcases f with ⟨_, _ | w, _ | xs⟩ <;> rfl

namespace CellVec

variable {α : Type}

/-- Inside the store, an update reports what the cell's update reports. -/
theorem update_snd {s : CellVec α} {i : Nat} (g : α → Except HistError α) (hi : i < s.cells.size) :
    (s.update i g).2 = (g s.cells[i]).failure? := by
  unfold update
  rw [dif_pos hi]
  cases g s.cells[i] <;> rfl

instance [Cell α] [Cell.RefusesByRole α] : Store.RefusesByRole (CellVec α) α where
  apply_snd_eq f hi hi' := by
    simp only [apply_eq_update, store_size] at hi hi' ⊢
    obtain ⟨r, hr⟩ := Cell.RefusesByRole.failure?_update (α := α) f
    rw [update_snd _ hi, update_snd _ hi', hr, hr]

end CellVec

namespace CellArray

variable {α : Type} {capacity : Nat}

/-- Inside the cells in use, an update reports what the cell's update reports. -/
theorem update_snd {s : CellArray α capacity} {i : Nat} (g : α → Except HistError α)
    (hi : i < s.len) :
    (s.update i g).2 = (g (s.cells.get ⟨i, Nat.lt_of_lt_of_le hi s.len_le⟩)).failure? := by
  unfold update
  rw [dif_pos hi]
  cases g (s.cells.get ⟨i, Nat.lt_of_lt_of_le hi s.len_le⟩) <;> rfl

instance [Cell α] [Cell.RefusesByRole α] : Store.RefusesByRole (CellArray α capacity) α where
  apply_snd_eq f hi hi' := by
    simp only [apply_eq_update, store_size] at hi hi' ⊢
    obtain ⟨r, hr⟩ := Cell.RefusesByRole.failure?_update (α := α) f
    rw [update_snd _ hi, update_snd _ hi', hr, hr]

end CellArray

/-! ### Dropped points and points that land -/

namespace Histogram

variable {σ ν : Type} [Store σ ν] {h : Histogram σ} {f : Fill} {p : Cursor}

/-- A point that some axis drops reaches no cell: the fill succeeds and changes nothing,
whatever its roles. -/
theorem fillWith_of_dropped (hp : h.axes.indexOfCoords f.coords = .ok p) (hnone : p.get? = none) :
    h.fillWith f = (h, none) := by
  rcases h with ⟨axes, store⟩
  simp only [fillWith] at hp ⊢
  simp only [hp, hnone]

/-- A point that lands in cell `i` reports what the store's update of that cell reports. -/
theorem fillWith_snd_of_lands {i : Nat} (hp : h.axes.indexOfCoords f.coords = .ok p)
    (hi : p.get? = some i) : (h.fillWith f).2 = (f.apply h.store i).2 := by
  rcases h with ⟨axes, store⟩
  simp only [fillWith] at hp ⊢
  simp only [hp, hi]

variable [Store.Sized σ ν] [Store.RefusesByRole σ ν]

/-- Two points of a reachable histogram that both land are refused alike, for the roles and
the sample they share. -/
theorem fillWith_snd_eq_of_lands (hr : h.Reachable) {w : Option Float} {xs : Option (List Float)}
    {c₁ c₂ : List Coord} {p₁ p₂ : Cursor} (hp₁ : h.axes.indexOfCoords c₁ = .ok p₁)
    (hp₂ : h.axes.indexOfCoords c₂ = .ok p₂) (hl₁ : p₁.get?.isSome) (hl₂ : p₂.get?.isSome) :
    (h.fillWith ⟨c₁, w, xs⟩).2 = (h.fillWith ⟨c₂, w, xs⟩).2 := by
  obtain ⟨i₁, hi₁⟩ := Option.isSome_iff_exists.mp hl₁
  obtain ⟨i₂, hi₂⟩ := Option.isSome_iff_exists.mp hl₂
  -- both cells lie inside the store, which refuses the roles alike in each
  obtain ⟨-, hin, -⟩ := reachable_shape hr
  rw [fillWith_snd_of_lands hp₁ hi₁, fillWith_snd_of_lands hp₂ hi₂]
  exact Store.RefusesByRole.apply_snd_eq ⟨c₁, w, xs⟩ (hin c₁ p₁ i₁ hp₁ hi₁) (hin c₂ p₂ i₂ hp₂ hi₂)

end Histogram

/-- **A fill's roles are checked only where its point lands.** Take a reachable histogram and
two points that every axis bins. A point that some axis drops is filled without error and
changes nothing, whatever the weight and the sample; two points that both land are refused
alike, with the same error or none, by `fillWith` with any weight and sample and by `fill`.
Every store of the library refuses by role: the counting store, and the growable and fixed
stores of each of the five cell kinds. -/
theorem Histogram.fill_refused_only_where_it_lands :
    (∀ {σ ν : Type} [Store σ ν] [Store.Sized σ ν] [Store.RefusesByRole σ ν] (h : Histogram σ)
      (w : Option Float) (xs : Option (List Float)) (c₁ c₂ : List Coord) (p₁ p₂ : Cursor),
      h.Reachable → h.axes.indexOfCoords c₁ = .ok p₁ → h.axes.indexOfCoords c₂ = .ok p₂ →
      (p₂.get? = none → h.fillWith ⟨c₂, w, xs⟩ = (h, none) ∧ h.fill c₂ = (h, none)) ∧
      (p₁.get?.isSome → p₂.get?.isSome →
        (h.fillWith ⟨c₁, w, xs⟩).2 = (h.fillWith ⟨c₂, w, xs⟩).2 ∧
        (h.fill c₁).2 = (h.fill c₂).2)) ∧
    Store.RefusesByRole Counts Count ∧
    (∀ (α : Type) [Cell α] [Cell.RefusesByRole α], Store.RefusesByRole (CellVec α) α) ∧
    (∀ (α : Type) [Cell α] [Cell.RefusesByRole α] (capacity : Nat),
      Store.RefusesByRole (CellArray α capacity) α) ∧
    Cell.RefusesByRole Float ∧ Cell.RefusesByRole CompensatedSum ∧
    Cell.RefusesByRole WeightedSum ∧ Cell.RefusesByRole (Mean Float) ∧
    Cell.RefusesByRole (WeightedMean Float) := by
  refine ⟨fun h w xs c₁ c₂ p₁ p₂ hr hp₁ hp₂ => ⟨fun hnone => ?_, fun hl₁ hl₂ => ?_⟩,
    inferInstance, fun _ _ _ => inferInstance, fun _ _ _ _ => inferInstance, inferInstance,
    inferInstance, inferInstance, inferInstance, inferInstance⟩
  · exact ⟨Histogram.fillWith_of_dropped hp₂ hnone, Histogram.fillWith_of_dropped hp₂ hnone⟩
  · exact ⟨Histogram.fillWith_snd_eq_of_lands hr hp₁ hp₂ hl₁ hl₂,
      Histogram.fillWith_snd_eq_of_lands hr hp₁ hp₂ hl₁ hl₂⟩

/-- The counting store over an integer axis `[0, 2)` without flow slots, which it counts
from fresh: a sample at `0` and a sample at `1` are refused alike, and a sample at `5`, which
has no slot, changes nothing. -/
theorem Histogram.fill_refused_only_where_it_lands_counts :
    let h : Histogram Counts := ⟨[.integer ⟨0, 2, .empty, by decide, by decide⟩], Counts.new 2⟩
    h.Reachable ∧
      (h.fillWith ⟨[.int 0], none, some [1.0]⟩).2 = (h.fillWith ⟨[.int 1], none, some [1.0]⟩).2 ∧
      h.fillWith ⟨[.int 5], none, some [1.0]⟩ = (h, none) := by
  intro h
  have hw : Histogram.withStore h.axes (Counts.new 0) = .ok h := rfl
  have hr : h.Reachable := .withStore hw
  obtain ⟨hpoints, -⟩ := Histogram.fill_refused_only_where_it_lands
  obtain ⟨-, hland⟩ := hpoints h none (some [1.0]) [.int 0] [.int 1] _ _ hr rfl rfl
  obtain ⟨hdrop, -⟩ := hpoints h none (some [1.0]) [.int 0] [.int 5] _ _ hr rfl rfl
  exact ⟨hr, (hland rfl rfl).1, (hdrop rfl).1⟩

/-- A sample for the counting store, which has no update for samples, over an integer axis
`[0, 2)` without flow slots: the sample is refused at `0`, where the point lands, and
accepted at `5`, where the axis drops it, though the axis bins both points. -/
theorem Histogram.dropped_sample_fill_succeeds :
    let h : Histogram Counts := ⟨[.integer ⟨0, 2, .empty, by decide, by decide⟩], Counts.new 2⟩
    Histogram.withStore h.axes (Counts.new 0) = .ok h ∧
      h.axes.indexOfCoords [.int 0] = .ok ⟨0, 2⟩ ∧ h.axes.indexOfCoords [.int 5] = .ok ⟨0, 0⟩ ∧
      (h.fillWith ⟨[.int 0], none, some [1.0]⟩).2 =
        some (.unsupportedRole "adaptive storage" .sample) ∧
      (h.fillWith ⟨[.int 5], none, some [1.0]⟩).2 = none := by
  intro h
  exact ⟨rfl, rfl, rfl, rfl, rfl⟩

end Histograms
