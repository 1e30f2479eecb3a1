import Histograms.Proofs.Shape
/-!
# A refused call changes nothing

Every refusal of the library comes from a check made before anything changes. A fill
reports its refusal beside the state it leaves (`Updated`), so for fills this is a law of
each store, `Store.Guarded`: a store that refuses an update returns itself. A histogram's
fill inherits it whatever refused the fill: the number of coordinates, the type check of
any axis (also of an axis after one that already dropped the point), the role the cell
has no update for, or the length of a sample.

Merges and resets return either a new value or an error, never both, so a refused one
leaves its caller with what it had. What remains to say of them is which check refuses
them: a merge of histograms over different axes, a merge of stores of different lengths,
and a reset of a fixed store to more cells than it holds.

Main statements:

* `Store.Guarded` — a refused update leaves the store, and a merge is refused exactly
  when the lengths differ; the counting store and both stores of cells are guarded.
* `Histogram.fillWith_refused` — a refused fill leaves the histogram as it was.
* `Histogram.merge_eq_error_iff` — a merge of histograms is refused exactly for
  different axes or different numbers of cells.
* `CellArray.reset_eq_error_iff` — a fixed store refuses exactly the resets past its room.
* `Histogram.refused_call_changes_nothing` — the above for every store of the library.
-/

namespace Histograms

/-- A check that refuses with `e₀` refuses exactly when its condition holds. -/
theorem Except.ite_eq_error_iff {ε α : Type} {c : Prop} [Decidable c] {e₀ e : ε} {x : α} :
    (if c then .error e₀ else .ok x) = (.error e : Except ε α) ↔ c ∧ e = e₀ := by
  by_cases hc : c <;> simp [hc, eq_comm]

/-- A store whose refusals come from checks made before any change: an update it refuses
leaves it as it was, and it refuses a merge exactly when the two lengths differ. -/
class Store.Guarded (σ : Type) (ν : outParam Type) [Store σ ν] : Prop where
  apply_refused {s : σ} {i : Nat} {f : Fill} {e : HistError} :
    (f.apply s i).2 = some e → (f.apply s i).1 = s
  merge_eq_error_iff {s t : σ} {e : HistError} :
    Store.merge s t = .error e ↔
      Store.size s ≠ Store.size t ∧ e = .storageSize (Store.size t) (Store.size s)

/-! ### The counting store -/

namespace Counts

theorem merge_eq_error_iff {s t : Counts} {e : HistError} :
    s.merge t = .error e ↔ s.size ≠ t.size ∧ e = .storageSize t.size s.size :=
  Except.ite_eq_error_iff

/-- The counting store refuses samples, which it cannot count, and nothing else; a refusal
returns the store untouched. -/
instance : Store.Guarded Counts Count where
  apply_refused {s i f e} h := by
    rcases f with ⟨coords, _ | w, _ | xs⟩ <;> simp_all [Fill.apply]
  merge_eq_error_iff := merge_eq_error_iff

end Counts

/-! ### Stores of cells -/

namespace CellVec

variable {α : Type}

theorem update_refused {s : CellVec α} {i : Nat} {g : α → Except HistError α} {e : HistError}
    (h : (s.update i g).2 = some e) : (s.update i g).1 = s := by
  unfold update at h ⊢
  split
  · next hi =>
    rw [dif_pos hi] at h
    split
    · next hg => simp only [hg] at h; cases h
    · rfl
  · rfl

variable [Cell α]

theorem merge_eq_error_iff {s t : CellVec α} {e : HistError} :
    s.merge t = .error e ↔
      s.cells.size ≠ t.cells.size ∧ e = .storageSize t.cells.size s.cells.size :=
  Except.ite_eq_error_iff

instance : Store.Guarded (CellVec α) α where
  apply_refused {s i f e} h := by
    rw [apply_eq_update] at h ⊢
    exact update_refused h
  merge_eq_error_iff := merge_eq_error_iff

end CellVec

namespace CellArray

variable {α : Type} {capacity : Nat}

theorem update_refused {s : CellArray α capacity} {i : Nat} {g : α → Except HistError α}
    {e : HistError} (h : (s.update i g).2 = some e) : (s.update i g).1 = s := by
  unfold update at h ⊢
  split
  · next hi =>
    rw [dif_pos hi] at h
    split
    · next hg => simp only [hg] at h; cases h
    · rfl
  · rfl

variable [Cell α]

theorem merge_eq_error_iff {s t : CellArray α capacity} {e : HistError} :
    s.merge t = .error e ↔ s.len ≠ t.len ∧ e = .storageSize t.len s.len :=
  Except.ite_eq_error_iff

instance : Store.Guarded (CellArray α capacity) α where
  apply_refused {s i f e} h := by
    rw [apply_eq_update] at h ⊢
    exact update_refused h
  merge_eq_error_iff := merge_eq_error_iff

/-- A fixed store refuses a reset exactly when it asks for more cells than there is room
for; the cells are emptied only after that check. -/
theorem reset_eq_error_iff (s : CellArray α capacity) (n : Nat) (e : HistError) :
    s.reset n = .error e ↔ capacity < n ∧ e = .capacity n capacity := by
  unfold reset
  by_cases hn : n ≤ capacity
  · simp [hn]
  · simp [hn, eq_comm, Nat.lt_of_not_le hn]

end CellArray

/-! ### Histograms -/

namespace Histogram

variable {σ ν : Type} [Store σ ν] [Store.Guarded σ ν] {h o : Histogram σ} {f : Fill}
  {e : HistError}

/-- **A refused fill changes nothing.** Binning refuses before the store is reached, and a
store that refuses the update returns itself. -/
theorem fillWith_refused (hr : (h.fillWith f).2 = some e) : (h.fillWith f).1 = h := by
  rw [fillWith_eq] at hr ⊢
  split at hr
  · rfl
  · split at hr
    · next i _ =>
      have hstore : (f.apply h.store i).1 = h.store := Store.Guarded.apply_refused hr
      simp only [hstore]
    · cases hr

theorem fill_refused {coords : List Coord} (hr : (h.fill coords).2 = some e) :
    (h.fill coords).1 = h :=
  fillWith_refused hr

/-- A merge of histograms is refused exactly when their axes differ, or when their stores
have different numbers of cells. -/
theorem merge_eq_error_iff :
    h.merge o = .error e ↔
      (h.axes == o.axes) = false ∧ e = .axesMismatch ∨
      (h.axes == o.axes) = true ∧ h.size ≠ o.size ∧ e = .storageSize o.size h.size := by
  unfold Histogram.merge size
  split
  · next heq =>
    have hstore : (do pure { h with store := ← Store.merge h.store o.store } :
        Except HistError (Histogram σ)) = .error e ↔ Store.merge h.store o.store = .error e := by
      cases Store.merge h.store o.store <;> simp [bind, Except.bind, pure, Except.pure]
    rw [hstore, Store.Guarded.merge_eq_error_iff]
    simp [heq]
  · next hne =>
    simp only [Bool.not_eq_true] at hne
    simp [hne, eq_comm]

end Histogram

/-- **A refused call changes nothing.** In a guarded store a refused fill leaves the
histogram as it was, whatever refused it: the number of coordinates, any axis's type check,
or the cell's update in any role. A merge of histograms is refused only by its check of the
axes and of the numbers of cells, and a fixed store only refuses a reset past its room; a
refused merge or reset gives no value, so the caller keeps its own. The counting store, the
growable and the fixed stores of cells of every kind are guarded. -/
theorem Histogram.refused_call_changes_nothing :
    (∀ {σ ν : Type} [Store σ ν] [Store.Guarded σ ν] (h : Histogram σ) (f : Fill)
      (e : HistError), (h.fillWith f).2 = some e → (h.fillWith f).1 = h) ∧
    (∀ {σ ν : Type} [Store σ ν] [Store.Guarded σ ν] (h : Histogram σ) (coords : List Coord)
      (e : HistError), (h.fill coords).2 = some e → (h.fill coords).1 = h) ∧
    (∀ {σ ν : Type} [Store σ ν] [Store.Guarded σ ν] (h o : Histogram σ) (e : HistError),
      h.merge o = .error e ↔
        (h.axes == o.axes) = false ∧ e = .axesMismatch ∨
        (h.axes == o.axes) = true ∧ h.size ≠ o.size ∧ e = .storageSize o.size h.size) ∧
    Store.Guarded Counts Count ∧
    (∀ (α : Type) [Cell α], Store.Guarded (CellVec α) α) ∧
    (∀ (α : Type) [Cell α] (capacity : Nat), Store.Guarded (CellArray α capacity) α) ∧
    (∀ {α : Type} [Cell α] {capacity : Nat} (s : CellArray α capacity) (n : Nat)
      (e : HistError), s.reset n = .error e ↔ capacity < n ∧ e = .capacity n capacity) :=
  ⟨fun _ _ _ hr => Histogram.fillWith_refused hr, fun _ _ _ hr => Histogram.fill_refused hr,
    fun _ _ _ => Histogram.merge_eq_error_iff, inferInstance, fun _ _ => inferInstance,
    fun _ _ _ => inferInstance, fun s n e => CellArray.reset_eq_error_iff s n e⟩

/-- Two integer axes, the first without flow slots: the point `(7, "a")` is dropped by the
first axis and then refused by the second, which bins no labels, and the counting store is
left as it was. -/
theorem Histogram.refused_call_changes_nothing_label_after_drop :
    let h : Histogram Counts := ⟨[.integer ⟨0, 3, .empty, by decide, by decide⟩,
      .integer ⟨0, 4, .flows, by decide, by decide⟩], Counts.new 18⟩
    (h.fill [.int 7, .label "a"]).2 = some (.argumentType "integer" "i64" "str") ∧
      (h.fill [.int 7, .label "a"]).1 = h := by
  intro h
  have hr : (h.fill [.int 7, .label "a"]).2 = some (.argumentType "integer" "i64" "str") := rfl
  exact ⟨hr, Histogram.refused_call_changes_nothing.2.1 h _ _ hr⟩

end Histograms
