import Histograms.Store.Counts
import Histograms.Store.CellVec
import Histograms.Store.CellArray
import Histograms.Fill
import Histograms.Proofs.ExactCounts
/-!
# What the stores guarantee

A histogram reaches its store only through the `Store` operations, so what it can
promise rests on a few laws of each store, stated here as two classes and proved for
the counting store, growable stores of cells and fixed-capacity stores of cells.

* `Store.Sized` — fills, scaling and merging keep the number of cells, a reset that
  succeeds gives the number asked for, and stores of one length always merge.
* `Store.Cellwise` — a store of cells applies a fill to the cell it names through the
  cell's own update (`Fill.update`) and leaves every other cell as it was; a refused
  update leaves the store.

The counting store is sized but not cellwise: a fill rewrites every other cell in the
layout the store widened to (`Counts.get_apply_ne`), which keeps each count when the
new layout is an integer width and rounds it to the nearest float when it is `real`.
-/

namespace Histograms

/-! ### Sizes of the counting store -/

namespace Counts

variable (s : Counts)

@[simp] theorem store_size : Store.size s = s.size := rfl
@[simp] theorem store_get (i : Nat) : Store.get s i = s.get i := rfl
@[simp] theorem store_increment (i : Nat) : Store.increment s i = (s.addCount i 1, none) := rfl
@[simp] theorem store_addWeight (i : Nat) (w : Float) : Store.addWeight s i w = (s.add i w, none) :=
  rfl
@[simp] theorem store_addSample (i : Nat) (xs : List Float) :
    Store.addSample s i xs = (s, some (.unsupportedRole cellName .sample)) := rfl
@[simp] theorem store_addWeightedSample (i : Nat) (w : Float) (xs : List Float) :
    Store.addWeightedSample s i w xs = (s, some (.unsupportedRole cellName .weightedSample)) := rfl
@[simp] theorem store_reset (n : Nat) : Store.reset s n = .ok (new n) := rfl
@[simp] theorem store_merge (t : Counts) : Store.merge s t = s.merge t := rfl
@[simp] theorem store_scale (f : Float) : Store.scale s f = s.scale f := rfl

@[simp] theorem size_promote (t : Layout) : (s.promote t).size = s.size := by
  unfold promote
  split
  · rfl
  · split <;> simp [size]

@[simp] theorem size_addCount (i a : Nat) : (s.addCount i a).size = s.size := by
  cases s <;> simp only [addCount_eq] <;> split <;> simp [size]

@[simp] theorem size_addBig (i a : Nat) : (s.addBig i a).size = s.size := by
  unfold addBig
  split
  · exact size_addCount s i a
  · -- the write after the widening changes one cell
    rw [← size_promote s (.exact .big)]
    generalize s.promote (.exact .big) = p
    cases p <;> (dsimp only; split) <;> simp [size]

@[simp] theorem size_add (i : Nat) (x : Float) : (s.add i x).size = s.size := by
  unfold add
  split
  · split <;> simp
  · rw [← size_promote s .real]
    generalize s.promote .real = p
    cases p <;> (dsimp only; try split) <;> simp [size]

@[simp] theorem size_addValue (i : Nat) (c : Count) : (s.addValue i c).size = s.size := by
  cases c <;> simp [addValue]

@[simp] theorem size_scale (f : Float) : (s.scale f).size = s.size := by
  have hcount : ∀ k, (s.scaleCount k).size = s.size := by
    intro k
    unfold scaleCount
    extract_lets top
    rw [← size_promote s (.exact (Width.forCount (top * k)))]
    cases s.promote _ <;> simp [size]
  have hreal : (s.scaleReal f).size = s.size := by
    unfold scaleReal
    rw [← size_promote s .real]
    cases s.promote _ <;> simp [size]
  unfold scale
  split
  · split
    · exact hcount _
    · exact hreal
  · exact hreal

theorem size_merge {t r : Counts} (h : s.merge t = .ok r) : r.size = s.size := by
  unfold merge at h
  split at h
  · cases h
  · cases h
    -- every step of the loop is `addValue` or nothing, both of which keep the size
    suffices ∀ (l : List Nat) (acc : Counts), (l.foldl (fun acc i => let c := t.get i;
        if c.isZero then acc else acc.addValue i c) acc).size = acc.size by
      rw [this, size_promote]
    intro l
    induction l with
    | nil => intro acc; rfl
    | cons i l ih =>
      intro acc
      rw [List.foldl_cons, ih]
      dsimp only
      split
      · rfl
      · exact size_addValue acc i _

/-! ### What a write does to the other cells of the counting store -/

theorem Layout.rank_le_real (t : Layout) : t.rank ≤ Layout.real.rank := by
  rcases t with _ | w | _
  · decide
  · cases w <;> decide
  · decide

theorem promote_self : s.promote s.kind = s := by
  simp [promote]

/-- A store of floats is as wide as any layout: widening it changes nothing. -/
theorem promote_real (cells : Array Float) (l : Layout) : (real cells).promote l = real cells := by
  simp [promote, kind, Layout.rank_le_real]

/-- Widening an integer store to floats turns each count into its float. -/
theorem promote_exact_real (w : Width) (cells : Array Nat) (fits : w.HoldsAll cells) :
    (exact w cells fits).promote .real = .real (cells.map Float.ofNat) := by
  cases w <;> rfl

/-- A widening is its own widest point: widening again to its layout changes nothing. -/
theorem promote_kind_promote (t : Layout) : s.promote (s.promote t).kind = s.promote t := by
  by_cases ht : t.rank ≤ s.kind.rank
  · have hs : s.promote t = s := by simp [promote, ht]
    rw [hs, promote_self]
  · -- only a strictly wider layout changes the store, and then the store takes it
    have hkind : (s.promote t).kind = t := by
      cases s with
      | exact w cells fits =>
        simp only [promote, ht, ↓reduceDIte]
        cases t with
        | empty => exact absurd (Nat.zero_le _) ht
        | exact v => rfl
        | real => rfl
      | real cells => exact absurd (Layout.rank_le_real t) ht
    rw [hkind]

theorem get_exact_set_ne {w : Width} {cells : Array Nat} {i k x : Nat} (hi : i < cells.size)
    {fits : w.HoldsAll cells} {fits' : w.HoldsAll (cells.set i x hi)} (hk : k ≠ i) :
    (exact w (cells.set i x hi) fits').get k = (exact w cells fits).get k := by
  simp [get, Array.getD_eq_getD_getElem?, Array.getElem?_set_ne hi (Ne.symm hk)]

theorem get_real_set_ne {cells : Array Float} {i k : Nat} {x : Float} (hi : i < cells.size)
    (hk : k ≠ i) : (real (cells.set i x hi)).get k = (real cells).get k := by
  simp [get, Array.getD_eq_getD_getElem?, Array.getElem?_set_ne hi (Ne.symm hk)]

theorem rank_le_after (w : Width) (m : Nat) : w.rank ≤ (w.after m).rank := by
  unfold Width.after
  split
  · exact Nat.le_refl _
  · rename_i hw
    -- a width at most as wide as `forCount m` would already hold `m`
    refine Nat.le_of_not_le fun hle => hw ?_
    exact (Width.holds_forCount m).mono hle

theorem promote_exact_after (w : Width) (cells : Array Nat) (fits : w.HoldsAll cells) (m : Nat) :
    (exact w cells fits).promote (.exact (w.after m)) =
      .exact (w.after m) cells (fits.mono (rank_le_after w m)) := by
  by_cases hw : w.Holds m
  · simp [promote, Width.after, hw]
  · have hlt : w.rank < (w.after m).rank := by
      refine Nat.lt_of_le_of_ne (rank_le_after w m) fun heq => hw ?_
      exact (Width.holds_after_self w m).mono (Nat.le_of_eq heq.symm)
    have hnle : ¬ (w.after m).rank ≤ w.rank := Nat.not_le.mpr hlt
    simp [promote, kind, Layout.rank, hnle]

theorem addCount_exact {w : Width} {cells : Array Nat} {fits : w.HoldsAll cells} {i : Nat}
    (hi : i < cells.size) (a : Nat) :
    (exact w cells fits).addCount i a =
      exact (w.after (cells[i] + a)) (cells.set i (cells[i] + a)) (fits.set_after hi _) := by
  simp [addCount_eq, hi, Width.after]

variable {s} {i k : Nat}

theorem get_addCount_ne (hk : k ≠ i) (a : Nat) :
    (s.addCount i a).get k = (s.promote (s.addCount i a).kind).get k := by
  cases s with
  | exact w cells fits =>
    by_cases hi : i < cells.size
    · rw [addCount_exact hi, kind, promote_exact_after]
      exact get_exact_set_ne hi hk
    · simp [addCount_eq, hi, promote_self]
  | real cells =>
    by_cases hi : i < cells.size
    · simp only [addCount_eq, hi, ↓reduceDIte, kind]
      exact get_real_set_ne hi hk
    · simp [addCount_eq, hi, promote_self]

/-- A store that agrees with a widening of `s` at cell `k` and has its layout reads there as
`s` widened to that layout: the writes that first widen and then change one cell keep every
other cell of the widening. -/
theorem get_of_widening {t : Layout} {p s' : Counts} (hp : s.promote t = p)
    (hkind : s'.kind = p.kind) (hget : s'.get k = p.get k) :
    s'.get k = (s.promote s'.kind).get k := by
  have hself : s.promote p.kind = p := by
    rw [← hp]
    exact promote_kind_promote s t
  rw [hkind, hself, hget]

theorem get_addBig_ne (hk : k ≠ i) (a : Nat) :
    (s.addBig i a).get k = (s.promote (s.addBig i a).kind).get k := by
  unfold addBig
  split
  · exact get_addCount_ne hk a
  · -- the store first widens to unbounded cells; the write then lands in the widening
    generalize hp : s.promote (.exact .big) = p
    cases p with
    | exact w cells fits =>
      obtain rfl := eq_big_of_promote_big s hp
      dsimp only
      split
      · exact get_of_widening hp rfl (get_exact_set_ne _ hk)
      · exact get_of_widening hp rfl rfl
    | real cells =>
      dsimp only
      split
      · exact get_of_widening hp rfl (get_real_set_ne _ hk)
      · exact get_of_widening hp rfl rfl

theorem get_add_ne (hk : k ≠ i) (x : Float) :
    (s.add i x).get k = (s.promote (s.add i x).kind).get k := by
  unfold add
  split
  · split
    · exact get_addCount_ne hk _
    · exact get_addBig_ne hk _
  · -- not a whole count: the store widens to floats and the write lands there
    generalize hp : s.promote .real = p
    cases p with
    | exact w cells => exact get_of_widening hp rfl rfl
    | real cells =>
      dsimp only
      split
      · exact get_of_widening hp rfl (get_real_set_ne _ hk)
      · exact get_of_widening hp rfl rfl

/-- A fill of the counting store rewrites every cell but its own in the layout the store
widened to: each count is kept in an integer layout and rounded to the nearest float when
the store moved to floats. -/
theorem get_apply_ne (f : Fill) (hk : k ≠ i) :
    (f.apply s i).1.get k = (s.promote (f.apply s i).1.kind).get k := by
  rcases f with ⟨coords, _ | w, _ | xs⟩
  · exact get_addCount_ne hk 1
  · simp [Fill.apply, promote_self]
  · exact get_add_ne hk w
  · simp [Fill.apply, promote_self]

end Counts

/-! ### The laws of a store -/

/-- The update of one cell that a fill's roles select: a plain count, a weight, a sample
or a weighted sample, as `Fill.apply` asks of a store. -/
def Fill.update {α : Type} [Cell α] (f : Fill) (c : α) : Except HistError α :=
  match f.weight, f.sample with
  | none, none => Cell.increment c
  | some w, none => Cell.addWeight c w
  | none, some xs => Cell.addSample c xs
  | some w, some xs => Cell.addWeightedSample c w xs

/-- A store whose number of cells only a reset changes, and whose stores of one length
always merge. -/
class Store.Sized (σ : Type) (ν : outParam Type) [Store σ ν] : Prop where
  size_apply (s : σ) (i : Nat) (f : Fill) : Store.size (f.apply s i).1 = Store.size s
  size_reset {s s' : σ} {n : Nat} : Store.reset s n = .ok s' → Store.size s' = n
  size_scale (s : σ) (x : Float) : Store.size (Store.scale s x) = Store.size s
  size_merge {s t r : σ} : Store.merge s t = .ok r → Store.size r = Store.size s
  merge_ok {s t : σ} : Store.size s = Store.size t → ∃ r, Store.merge s t = .ok r

/-- A store of cells: a fill of cell `i` inside the store is the cell's own update there
and nothing elsewhere, and a refused update leaves the store and reports the refusal. -/
class Store.Cellwise (σ : Type) (α : outParam Type) [Cell α] [Store σ α] : Prop
    extends Store.Sized σ α where
  apply_ok {s : σ} {i : Nat} {f : Fill} {c : α} : i < Store.size s →
    f.update (Store.get s i) = .ok c →
    ∃ s', f.apply s i = (s', none) ∧ Store.get s' i = c ∧
      ∀ k, k ≠ i → Store.get s' k = Store.get s k
  apply_error {s : σ} {i : Nat} {f : Fill} {e : HistError} : i < Store.size s →
    f.update (Store.get s i) = .error e → f.apply s i = (s, some e)

instance : Store.Sized Counts Count where
  size_apply s i f := by
    rcases f with ⟨coords, _ | w, _ | xs⟩ <;> simp [Fill.apply]
  size_reset h := by
    cases h
    simp [Counts.size, Counts.new]
  size_scale s x := Counts.size_scale s x
  size_merge h := Counts.size_merge _ h
  merge_ok {s t} h := by
    simp only [Counts.store_size] at h
    exact ⟨_, by rw [Counts.store_merge, Counts.merge, if_neg (fun hne => hne h)]⟩

namespace CellVec

variable {α : Type}

theorem update_of_ok {s : CellVec α} {i : Nat} {g : α → Except HistError α} {c : α}
    (hi : i < s.cells.size) (hg : g s.cells[i] = .ok c) :
    s.update i g = (⟨s.cells.set i c hi⟩, none) := by
  simp [update, hi, hg]

theorem update_of_error {s : CellVec α} {i : Nat} {g : α → Except HistError α} {e : HistError}
    (hi : i < s.cells.size) (hg : g s.cells[i] = .error e) : s.update i g = (s, some e) := by
  simp [update, hi, hg]

theorem size_update (s : CellVec α) (i : Nat) (g : α → Except HistError α) :
    (s.update i g).1.cells.size = s.cells.size := by
  unfold update
  split
  · split <;> simp
  · rfl

variable [Cell α]

@[simp] theorem store_size (s : CellVec α) : Store.size s = s.cells.size := rfl
@[simp] theorem store_get (s : CellVec α) (i : Nat) : Store.get s i = s.cells.getD i Cell.empty :=
  rfl

theorem apply_eq_update (f : Fill) (s : CellVec α) (i : Nat) :
    f.apply s i = s.update i f.update := by
  rcases f with ⟨coords, _ | w, _ | xs⟩ <;> rfl

instance : Store.Cellwise (CellVec α) α where
  size_apply s i f := by
    rw [apply_eq_update]
    exact size_update s i _
  size_reset h := by
    cases h
    simp [new]
  size_scale s x := by simp [Store.scale]
  size_merge h := by
    simp only [Store.merge, merge] at h
    split at h
    · cases h
    · cases h
      simp_all
  merge_ok {s t} h := by
    simp only [store_size] at h
    exact ⟨_, by show merge s t = _; rw [merge, if_neg (fun hne => hne h)]⟩
  apply_ok {s i f c} hi hf := by
    simp only [store_size] at hi
    simp only [store_get, Array.getD_eq_getD_getElem?, Array.getElem?_eq_getElem hi,
      Option.getD_some] at hf
    refine ⟨_, by rw [apply_eq_update, update_of_ok hi hf], ?_, fun k hk => ?_⟩
    · simp [Array.getD_eq_getD_getElem?]
    · simp [Array.getD_eq_getD_getElem?, Array.getElem?_set_ne hi (Ne.symm hk)]
  apply_error {s i f e} hi hf := by
    simp only [store_size] at hi
    simp only [store_get, Array.getD_eq_getD_getElem?, Array.getElem?_eq_getElem hi,
      Option.getD_some] at hf
    rw [apply_eq_update, update_of_error hi hf]

end CellVec

namespace CellArray

variable {α : Type} {capacity : Nat}

theorem update_of_ok {s : CellArray α capacity} {i : Nat} {g : α → Except HistError α} {c : α}
    (hi : i < s.len) (hg : g (s.cells.get ⟨i, Nat.lt_of_lt_of_le hi s.len_le⟩) = .ok c) :
    s.update i g = (⟨s.cells.set i c (Nat.lt_of_lt_of_le hi s.len_le), s.len, s.len_le⟩, none) := by
  simp [update, hi, hg]

theorem update_of_error {s : CellArray α capacity} {i : Nat} {g : α → Except HistError α}
    {e : HistError} (hi : i < s.len)
    (hg : g (s.cells.get ⟨i, Nat.lt_of_lt_of_le hi s.len_le⟩) = .error e) :
    s.update i g = (s, some e) := by
  simp [update, hi, hg]

theorem len_update (s : CellArray α capacity) (i : Nat) (g : α → Except HistError α) :
    (s.update i g).1.len = s.len := by
  unfold update
  split
  · split <;> rfl
  · rfl

variable [Cell α]

@[simp] theorem store_size (s : CellArray α capacity) : Store.size s = s.len := rfl

theorem store_get (s : CellArray α capacity) (i : Nat) :
    Store.get s i = if i < s.len then s.cells.toArray.getD i Cell.empty else Cell.empty := rfl

theorem store_get_of_lt {s : CellArray α capacity} {i : Nat} (hi : i < s.len) :
    Store.get s i = s.cells.get ⟨i, Nat.lt_of_lt_of_le hi s.len_le⟩ := by
  simp [store_get, hi, Array.getD_eq_getD_getElem?, Nat.lt_of_lt_of_le hi s.len_le, Vector.get]

theorem apply_eq_update (f : Fill) (s : CellArray α capacity) (i : Nat) :
    f.apply s i = s.update i f.update := by
  rcases f with ⟨coords, _ | w, _ | xs⟩ <;> rfl

instance : Store.Cellwise (CellArray α capacity) α where
  size_apply s i f := by
    rw [apply_eq_update]
    exact len_update s i _
  size_reset {s s' n} h := by
    change reset s n = .ok s' at h
    unfold reset at h
    split at h
    · cases h
      rfl
    · cases h
  size_scale s x := rfl
  size_merge {s t r} h := by
    change merge s t = .ok r at h
    unfold merge at h
    split at h
    · cases h
    · cases h
      rfl
  merge_ok {s t} h := by
    simp only [store_size] at h
    exact ⟨_, by show merge s t = _; rw [merge, if_neg (fun hne => hne h)]⟩
  apply_ok {s i f c} hi hf := by
    simp only [store_size] at hi
    rw [store_get_of_lt hi] at hf
    have hcap := Nat.lt_of_lt_of_le hi s.len_le
    refine ⟨_, by rw [apply_eq_update, update_of_ok hi hf], ?_, fun k hk => ?_⟩
    · simp [store_get, hi, Array.getD_eq_getD_getElem?, hcap]
    · simp only [store_get, Vector.toArray_set]
      split
      · simp [Array.getD_eq_getD_getElem?, Array.getElem?_set_ne _ (Ne.symm hk)]
      · rfl
  apply_error {s i f e} hi hf := by
    simp only [store_size] at hi
    rw [store_get_of_lt hi] at hf
    rw [apply_eq_update, update_of_error hi hf]

end CellArray

end Histograms
