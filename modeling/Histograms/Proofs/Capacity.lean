import Histograms.Proofs.Refusals
import Histograms.Text.Inspect
/-!
# Cells past those in use

A store of fixed capacity keeps room for `capacity` cells and uses the first `len` of them.
Every call confines itself to the cells in use: a fill reaches a cell in use only, a merge and
a scaling map the cells in use, and a reset checks the capacity before it empties every cell.
So along every run of calls from a fresh store, the cells past those in use stay empty, and the
store is determined by its cells in use: equality, which compares those, sees everything, and
the structural text, which writes out all `capacity` cells, shows empty cells past them.

* `Store.Op`, `Store.step`, `Store.run` — calls on a store, a refused reset or merge keeping
  the store as it was.
* `CellArray.Clean` — every cell past those in use is empty; `CellArray.Clean.step` says one
  call keeps it, `CellArray.Clean.run` that every run from a fresh store does.
* `CellArray.run_keeps_unused_cells_empty` — along every run, the store holds at most its
  capacity, its unused cells are empty, a reset past the capacity is refused and changes
  nothing, two runs with the same cells in use end in the same store, and the structural text
  shows empty cells past those in use.
-/

namespace Histograms

/-! ### Runs of calls on a store -/

namespace Store

/-- One call on a store, with its operands. -/
inductive Op (σ : Type) where
  | reset (n : Nat)
  | increment (i : Nat)
  | addWeight (i : Nat) (w : Float)
  | addSample (i : Nat) (xs : List Float)
  | addWeightedSample (i : Nat) (w : Float) (xs : List Float)
  | merge (t : σ)
  | scale (f : Float)

variable {σ ν : Type} [Store σ ν]

/-- The store after a call. A refused reset or merge leaves the store as it was; a fill gives
the store it reports, which a refused fill leaves as it was too. -/
def step (s : σ) : Op σ → σ
  | .reset n =>
    match reset s n with
    | .ok r => r
    | .error _ => s
  | .increment i => (increment s i).1
  | .addWeight i w => (addWeight s i w).1
  | .addSample i xs => (addSample s i xs).1
  | .addWeightedSample i w xs => (addWeightedSample s i w xs).1
  | .merge t =>
    match merge s t with
    | .ok r => r
    | .error _ => s
  | .scale f => scale s f

/-- The store after calls in order. -/
def run (s : σ) (ops : List (Op σ)) : σ := ops.foldl step s

@[simp] theorem run_nil (s : σ) : run s [] = s := rfl

@[simp] theorem run_cons (s : σ) (op : Op σ) (ops : List (Op σ)) :
    run s (op :: ops) = run (step s op) ops := rfl

end Store

/-! ### Empty cells past those in use -/

namespace CellArray

variable {α : Type} [Cell α] {capacity : Nat} {s t : CellArray α capacity}

/-- Every cell past those in use is empty. -/
def Clean (s : CellArray α capacity) : Prop :=
  ∀ k (hk : k < capacity), s.len ≤ k → s.cells[k] = Cell.empty

theorem clean_new : (new : CellArray α capacity).Clean := by
  intro k hk _
  simp [new]

/-- A fill writes a cell in use, or nothing. -/
theorem Clean.update (hs : s.Clean) (i : Nat) (g : α → Except HistError α) :
    (s.update i g).1.Clean := by
  unfold CellArray.update
  split
  · next hi =>
    split
    · intro k hk hlen
      change s.len ≤ k at hlen
      -- the written cell is in use, so it is not `k`
      have hne : i ≠ k := by omega
      simpa [Vector.getElem_set_ne _ _ hne] using hs k hk hlen
    · exact hs
  · exact hs

/-- Merging and scaling map the cells in use and keep the others. -/
theorem Clean.mapUsed (hs : s.Clean) (f : Nat → α → α) : (s.mapUsed f).Clean := by
  intro k hk hlen
  change s.len ≤ k at hlen
  change (Vector.ofFn fun j =>
    if j.val < s.len then f j.val (s.cells.get j) else s.cells.get j)[k] = _
  rw [Vector.getElem_ofFn, if_neg (Nat.not_lt.mpr hlen)]
  exact hs k hk hlen

/-- A reset that succeeds empties every cell. -/
theorem clean_of_reset {n : Nat} {r : CellArray α capacity} (h : s.reset n = .ok r) : r.Clean := by
  unfold CellArray.reset at h
  split at h
  · cases h
    intro k hk _
    simp
  · cases h

/-- **One call keeps the cells past those in use empty.** -/
theorem Clean.step (hs : s.Clean) (op : Store.Op (CellArray α capacity)) :
    (Store.step s op).Clean := by
  cases op with
  | reset n =>
    simp only [Store.step]
    split
    · next r hr => exact clean_of_reset hr
    · exact hs
  | increment i => exact hs.update i _
  | addWeight i w => exact hs.update i _
  | addSample i xs => exact hs.update i _
  | addWeightedSample i w xs => exact hs.update i _
  | merge t =>
    simp only [Store.step]
    split
    · next r hr =>
      -- a merge that succeeds maps the cells in use
      change CellArray.merge s t = .ok r at hr
      unfold CellArray.merge at hr
      split at hr
      · cases hr
      · cases hr
        exact hs.mapUsed _
    · exact hs
  | scale f => exact hs.mapUsed fun _ c => Cell.scale c f

/-- **Every run keeps the cells past those in use empty.** -/
theorem Clean.run (hs : s.Clean) (ops : List (Store.Op (CellArray α capacity))) :
    (Store.run s ops).Clean := by
  induction ops generalizing s with
  | nil => exact hs
  | cons op ops ih => exact ih (hs.step op)

/-! ### What the cells in use determine -/

omit [Cell α] in
theorem length_used (s : CellArray α capacity) : s.used.length = s.len := by
  simp [used, Nat.min_eq_left s.len_le]

/-- The whole array of a clean store: its cells in use, then empty cells up to the capacity. -/
theorem Clean.toList_cells (hs : s.Clean) :
    s.cells.toList = s.used ++ List.replicate (capacity - s.len) Cell.empty := by
  have hrest : s.cells.toList.drop s.len = List.replicate (capacity - s.len) Cell.empty := by
    refine List.eq_replicate_iff.mpr ⟨by simp, fun c hc => ?_⟩
    obtain ⟨j, hj, rfl⟩ := List.getElem_of_mem hc
    have hk : s.len + j < capacity := by simp at hj; omega
    simpa using hs (s.len + j) hk (Nat.le_add_right _ _)
  rw [used, ← hrest, List.take_append_drop]

/-- Two clean stores with the same cells in use are the same store. -/
theorem Clean.ext (hs : s.Clean) (ht : t.Clean) (h : s.used = t.used) : s = t := by
  have hlen : s.len = t.len := by rw [← length_used s, h, length_used t]
  have hcells : s.cells = t.cells := by
    apply Vector.toList_inj.mp
    rw [hs.toList_cells, ht.toList_cells, h, hlen]
  rcases s with ⟨cells, len, hle⟩
  rcases t with ⟨cells', len', hle'⟩
  simp only at hlen hcells
  subst hlen hcells
  rfl

/-- The structural text of a clean store writes empty cells past those in use. -/
theorem Clean.inspect_eq [Inspect α] (hs : s.Clean) :
    inspect s = Text.record "ArrayStorage"
      [("cells", Text.list ((s.used ++ List.replicate (capacity - s.len) Cell.empty).map inspect)),
        ("len", toString s.len)] := by
  show Text.record "ArrayStorage" [("cells", Text.list (s.cells.toList.map inspect)),
    ("len", toString s.len)] = _
  rw [hs.toList_cells]

/-- A reset past the capacity is refused and leaves the store as it was. -/
theorem step_reset_of_lt {n : Nat} (h : capacity < n) :
    Store.reset s n = .error (.capacity n capacity) ∧ Store.step s (.reset n) = s := by
  have hrefused : Store.reset s n = .error (.capacity n capacity) :=
    (reset_eq_error_iff s n _).mpr ⟨h, rfl⟩
  exact ⟨hrefused, by simp only [Store.step, hrefused]⟩

/-- **A store of fixed capacity keeps its unused cells empty.** Along every run of calls from a
fresh store, refused calls included: it uses at most its capacity, every cell past those in use
is empty, a reset past the capacity is refused with the capacity error and changes nothing, a
store reached by another run with the same cells in use is the same store (so equality, which
compares the cells in use, sees all of it), and its structural text shows empty cells past
those in use. -/
theorem run_keeps_unused_cells_empty [Inspect α] (ops : List (Store.Op (CellArray α capacity))) :
    let s := Store.run new ops
    s.len ≤ capacity ∧
    (∀ k (hk : k < capacity), s.len ≤ k → s.cells[k] = Cell.empty) ∧
    (∀ n, capacity < n →
      Store.reset s n = .error (.capacity n capacity) ∧ Store.step s (.reset n) = s) ∧
    (∀ ops' : List (Store.Op (CellArray α capacity)),
      (Store.run new ops').used = s.used → Store.run new ops' = s) ∧
    inspect s = Text.record "ArrayStorage"
      [("cells", Text.list ((s.used ++ List.replicate (capacity - s.len) Cell.empty).map inspect)),
        ("len", toString s.len)] := by
  intro s
  have hs : s.Clean := clean_new.run ops
  exact ⟨s.len_le, hs, fun n h => step_reset_of_lt h,
    fun ops' h => (clean_new.run ops').ext hs h, hs.inspect_eq⟩

end CellArray

end Histograms
