import Histograms.Proofs.Filling
import Histograms.Proofs.ExactFloats
/-!
# Counting does not depend on order

A histogram over a counting store that takes only whole counts (plain fills, and fills
whose weight is a whole number not below zero) holds, in every cell, the sum of what its
fills put there. That sum is `Fill.tally`: it depends on the axes and on the fills as a
multiset, not on the store's widths along the way or on the order of the fills. So filling
two fresh histograms and merging them gives a histogram equal to filling one with both lists,
and filling any permutation of a list gives equal histograms.

Equality here is the library's own (`Histogram.beq`): equal axes and equal counts cell by
cell, whatever the widths. Axes equal themselves unless a bound of a regular axis is NaN,
which the axis constructors refuse (`Axis.Regular.nanFree_of_make`; the axes of every request
are free of NaN by `Session.Json.toAxes_nanFree`).

Main statements:

* `Histogram.fillWith_fst` — the histogram after a fill, through the cell its point lands in.
* `Histogram.fillAll_exact` — after a list of whole fills every cell holds its old count plus
  the tally of the list.
* `Histogram.beq_of_exact` — histograms over self-equal axes with the same counts are equal.
* `Histogram.merge_fillAll_beq` — merging two filled fresh histograms is filling one with both
  lists.
* `Histogram.fillAll_perm_beq` — the order of the fills does not matter.
-/

namespace Histograms

/-! ### Axes that equal themselves -/

/-- No bound or width of a regular axis is NaN; integer and label axes hold no floats. -/
def Axis.NaNFree : Axis → Prop
  | .regular a => a.min.isNaN = false ∧ a.delta.isNaN = false
  | .integer _ => True
  | .category _ => True

theorem Axis.beq_self {a : Axis} (h : a.NaNFree) : (a == a) = true := by
  cases a with
  | regular r =>
    change Axis.Regular.beq r r = true
    simp only [Axis.Regular.beq, Float.beq_self_eq_not_isNaN, h.1, h.2, beq_self_eq_true,
      Bool.not_false, Bool.and_self]
  | integer r =>
    change Axis.Integer.beq r r = true
    simp [Axis.Integer.beq]
  | category c =>
    change Axis.Category.beq c c = true
    simp [Axis.Category.beq]

theorem Axes.beq_self {axes : Axes} (h : ∀ a ∈ axes, a.NaNFree) : (axes == axes) = true := by
  induction axes with
  | nil => rfl
  | cons a axes ih =>
    simp only [List.cons_beq_cons, Bool.and_eq_true]
    exact ⟨Axis.beq_self (h a (List.mem_cons_self ..)),
      ih fun b hb => h b (List.mem_cons_of_mem _ hb)⟩

/-! ### Where a fill lands and what it adds -/

/-- The cell a point lands in: none when binning refuses the point or drops it. -/
def Axes.cellOfPoint? (axes : Axes) (coords : List Coord) : Option Nat :=
  match axes.indexOfCoords coords with
  | .ok c => c.get?
  | .error _ => none

namespace Fill

/-- The whole amount a fill adds to a counting cell: `1` for a plain fill and the value of a
weight that is a whole number not below zero; none for any other weight or with a sample. -/
def wholeAmount? (f : Fill) : Option Nat :=
  match f.sample, f.weight with
  | some _, _ => none
  | none, none => some 1
  | none, some w => w.toNat?

theorem wholeAmount?_eq_some_iff {f : Fill} {n : Nat} :
    f.wholeAmount? = some n ↔
      f.sample = none ∧ (f.weight = none ∧ n = 1 ∨ ∃ x, f.weight = some x ∧ x.DenotesNat n) := by
  rcases f with ⟨coords, _ | w, _ | xs⟩
  · simp [wholeAmount?, eq_comm]
  · simp [wholeAmount?]
  · simp [wholeAmount?, Float.toNat?_eq_some_iff]
  · simp [wholeAmount?]

theorem wholeAmount?_ofCoords (coords : List Coord) : (ofCoords coords).wholeAmount? = some 1 :=
  rfl

/-- What a fill adds to cell `k` of a counting store over `axes`. -/
def addedAt (axes : Axes) (k : Nat) (f : Fill) : Nat :=
  if axes.cellOfPoint? f.coords = some k then f.wholeAmount?.getD 0 else 0

/-- What a list of fills adds to cell `k`: the sum of what each adds, in any order. -/
def tally (axes : Axes) (fs : List Fill) (k : Nat) : Nat :=
  (fs.map (addedAt axes k)).sum

@[simp] theorem tally_nil (axes : Axes) (k : Nat) : tally axes [] k = 0 := rfl

@[simp] theorem tally_cons (axes : Axes) (f : Fill) (fs : List Fill) (k : Nat) :
    tally axes (f :: fs) k = f.addedAt axes k + tally axes fs k := by
  simp [tally]

theorem tally_append (axes : Axes) (fs gs : List Fill) (k : Nat) :
    tally axes (fs ++ gs) k = tally axes fs k + tally axes gs k := by
  simp [tally]

theorem tally_perm (axes : Axes) {fs gs : List Fill} (hp : fs.Perm gs) (k : Nat) :
    tally axes fs k = tally axes gs k :=
  (hp.map _).sum_eq

end Fill

/-! ### Filling a counting histogram -/

namespace Histogram

variable {σ ν : Type} [Store σ ν]

/-- Fills a histogram with each fill in turn; a refused fill changes nothing and the rest go
on. -/
def fillAll (h : Histogram σ) (fs : List Fill) : Histogram σ :=
  fs.foldl (fun h f => (h.fillWith f).1) h

@[simp] theorem fillAll_nil (h : Histogram σ) : h.fillAll [] = h := rfl

@[simp] theorem fillAll_cons (h : Histogram σ) (f : Fill) (fs : List Fill) :
    h.fillAll (f :: fs) = (h.fillWith f).1.fillAll fs := rfl

/-- A fill changes the store at the cell its point lands in, and nothing when the point is
refused or dropped. -/
theorem fillWith_fst (h : Histogram σ) (f : Fill) :
    (h.fillWith f).1 = match h.axes.cellOfPoint? f.coords with
      | some i => ⟨h.axes, (f.apply h.store i).1⟩
      | none => h := by
  rcases h with ⟨axes, store⟩
  simp only [fillWith, Axes.cellOfPoint?]
  cases axes.indexOfCoords f.coords with
  | error e => rfl
  | ok c =>
    dsimp only
    cases c.get? <;> rfl

theorem cellOfPoint?_lt {h : Histogram σ} {coords : List Coord} {i : Nat} (hs : h.Shaped)
    (hc : h.axes.cellOfPoint? coords = some i) : i < h.size := by
  unfold Axes.cellOfPoint? at hc
  split at hc
  · next c hidx => exact Axes.indexOfCoords_lt hs.2 hidx hc
  · cases hc

@[simp] theorem axes_fillAll (h : Histogram σ) (fs : List Fill) : (h.fillAll fs).axes = h.axes := by
  induction fs generalizing h with
  | nil => rfl
  | cons f fs ih => rw [fillAll_cons, ih, axes_fillWith]

section Sized

variable [Store.Sized σ ν]

@[simp] theorem size_fillAll (h : Histogram σ) (fs : List Fill) : (h.fillAll fs).size = h.size := by
  induction fs generalizing h with
  | nil => rfl
  | cons f fs ih => rw [fillAll_cons, ih, size_fillWith]

end Sized

theorem map_range_modify (N i : Nat) (g : Nat → Nat) (n : Nat) :
    ((List.range N).map g).modify i (· + n) =
      (List.range N).map fun k => g k + if i = k then n else 0 := by
  apply List.ext_getElem
  · simp
  · intro k h₁ h₂
    simp only [List.getElem_modify, List.getElem_map, List.getElem_range]
    split <;> simp_all

variable {h : Histogram Counts} {g : Nat → Nat}

/-- One whole fill adds its amount to the cell its point lands in. -/
theorem fillWith_exact (hs : h.Shaped) (hex : h.store.Exact ((List.range h.size).map g))
    {f : Fill} (hf : f.wholeAmount?.isSome) :
    (h.fillWith f).1.store.Exact ((List.range h.size).map fun k => g k + f.addedAt h.axes k) := by
  obtain ⟨n, hn⟩ := Option.isSome_iff_exists.mp hf
  obtain ⟨hsample, hamount⟩ := Fill.wholeAmount?_eq_some_iff.mp hn
  rw [fillWith_fst]
  cases hc : h.axes.cellOfPoint? f.coords with
  | none => simpa [Fill.addedAt, hc] using hex
  | some i =>
    have hi := cellOfPoint?_lt hs hc
    have hadd := hex.apply (by simpa using hi) hsample hamount
    rw [map_range_modify] at hadd
    simpa [Fill.addedAt, hc, hn] using hadd

/-- **A run of whole fills is its tally.** After a list of whole fills every cell holds its
old count plus what the list adds there. -/
theorem fillAll_exact (hs : h.Shaped) (hex : h.store.Exact ((List.range h.size).map g))
    {fs : List Fill} (hfs : ∀ f ∈ fs, f.wholeAmount?.isSome) :
    (h.fillAll fs).store.Exact ((List.range h.size).map fun k => g k + Fill.tally h.axes fs k) := by
  induction fs generalizing h g with
  | nil => simpa using hex
  | cons f fs ih =>
    have hstep := fillWith_exact hs hex (hfs f (List.mem_cons_self ..))
    rw [← size_fillWith h f] at hstep
    have hrun := ih (hs.fillWith f) hstep fun f' hf' => hfs f' (List.mem_cons_of_mem _ hf')
    simp only [axes_fillWith, size_fillWith] at hrun
    simpa [Nat.add_assoc] using hrun

end Histogram

/-! ### Equal counts make equal histograms -/

/-- Equal lengths and equal counts cell by cell make equal stores. -/
theorem Counts.beq_of_get {s t : Counts} (hsize : s.size = t.size)
    (h : ∀ k < s.size, (s.get k == t.get k) = true) : (s == t) = true := by
  change Counts.beq s t = true
  simp only [Counts.beq, hsize, beq_self_eq_true, Bool.true_and, List.all_eq_true, List.mem_range]
  exact fun k hk => h k (hsize ▸ hk)

/-- Two stores that hold the same counts are equal, whatever their widths. -/
theorem Counts.Exact.beq_of_exact {s t : Counts} {v : List Nat} (hs : s.Exact v)
    (ht : t.Exact v) : (s == t) = true := by
  refine Counts.beq_of_get (by rw [hs.size_eq, ht.size_eq]) fun i hi => ?_
  have hiv : i < v.length := hs.size_eq ▸ hi
  -- each side is a whole count of `v[i]`, at machine width or past it
  exact Count.beq_of_toNat? (hs.toNat?_get hiv) (ht.toNat?_get hiv)

namespace Histogram

/-- Two counting histograms over the same self-equal axes whose stores hold the same counts
are equal. -/
theorem beq_of_exact {h o : Histogram Counts} {v : List Nat} (haxes : h.axes = o.axes)
    (hnan : ∀ a ∈ h.axes, a.NaNFree) (hs : h.store.Exact v) (ho : o.store.Exact v) :
    h.beq o = true := by
  simp only [Histogram.beq, Bool.and_eq_true]
  exact ⟨haxes ▸ Axes.beq_self hnan, hs.beq_of_exact ho⟩

/-- A fresh counting histogram holds a zero in each of its cells. -/
theorem exact_withStore_new {axes : Axes} {n : Nat} {h : Histogram Counts}
    (hw : withStore axes (Counts.new n) = .ok h) :
    h.axes = axes ∧ h.store.Exact ((List.range h.size).map fun _ => 0) := by
  unfold withStore at hw
  split at hw
  · cases hw
  · obtain ⟨N, -, hw⟩ := Except.bind_eq_ok hw
    obtain ⟨s, hs, hw⟩ := Except.bind_eq_ok hw
    cases hs
    cases hw
    refine ⟨rfl, ?_⟩
    simpa [size, Store.size, Counts.size_new, List.map_const'] using Counts.exact_new N

end Histogram

section Fresh

variable {axes : Axes} {h₀ : Histogram Counts} (hnew : Histogram.withStore axes (Counts.new 0) = .ok h₀)
include hnew

/-- A fresh counting histogram filled with whole fills holds, in each cell, the tally of the
fills over it. -/
theorem Histogram.fillAll_exact_tally {fs : List Fill} (hfs : ∀ f ∈ fs, f.wholeAmount?.isSome) :
    (h₀.fillAll fs).store.Exact ((List.range h₀.size).map (Fill.tally h₀.axes fs)) := by
  simpa using Histogram.fillAll_exact (Histogram.shaped_withStore hnew)
    (Histogram.exact_withStore_new hnew).2 hfs

/-- Filling two fresh histograms and merging them counts what filling one with both lists
counts. -/
theorem Histogram.merge_fillAll_beq (hnan : ∀ a ∈ axes, a.NaNFree) {L R : List Fill}
    (hL : ∀ f ∈ L, f.wholeAmount?.isSome) (hR : ∀ f ∈ R, f.wholeAmount?.isSome) :
    ∃ m, (h₀.fillAll L).merge (h₀.fillAll R) = .ok m ∧ m.beq (h₀.fillAll (L ++ R)) = true := by
  have hnan₀ : ∀ a ∈ h₀.axes, a.NaNFree := (Histogram.exact_withStore_new hnew).1 ▸ hnan
  obtain ⟨m, hm, hmex⟩ :=
    (Histogram.fillAll_exact_tally hnew hL).merge (Histogram.fillAll_exact_tally hnew hR) (by simp)
  -- the merge adds the two tallies cell by cell, which is the tally of both lists
  have hsum : List.zipWith (· + ·) ((List.range h₀.size).map (Fill.tally h₀.axes L))
      ((List.range h₀.size).map (Fill.tally h₀.axes R)) =
      (List.range h₀.size).map (Fill.tally h₀.axes (L ++ R)) := by
    simp [List.zipWith_map, Fill.tally_append]
  have hmerge : (h₀.fillAll L).merge (h₀.fillAll R) = .ok ⟨h₀.axes, m⟩ := by
    simp [Histogram.merge, Axes.beq_self hnan₀, Store.merge, hm, bind, Except.bind, pure,
      Except.pure]
  have hLR : ∀ f ∈ L ++ R, f.wholeAmount?.isSome := by
    intro f hf
    rcases List.mem_append.mp hf with hf | hf
    · exact hL f hf
    · exact hR f hf
  exact ⟨_, hmerge, Histogram.beq_of_exact (by simp) hnan₀ (hsum ▸ hmex)
    (Histogram.fillAll_exact_tally hnew hLR)⟩

/-- Filling a fresh histogram with a permutation of whole fills counts what the fills count. -/
theorem Histogram.fillAll_perm_beq (hnan : ∀ a ∈ axes, a.NaNFree) {L L' : List Fill}
    (hL : ∀ f ∈ L, f.wholeAmount?.isSome) (hp : L'.Perm L) :
    (h₀.fillAll L').beq (h₀.fillAll L) = true := by
  have hnan₀ : ∀ a ∈ h₀.axes, a.NaNFree := (Histogram.exact_withStore_new hnew).1 ▸ hnan
  have hL' : ∀ f ∈ L', f.wholeAmount?.isSome := fun f hf => hL f (hp.mem_iff.mp hf)
  have htally : Fill.tally h₀.axes L' = Fill.tally h₀.axes L := funext (Fill.tally_perm h₀.axes hp)
  refine Histogram.beq_of_exact (by simp) (by simpa using hnan₀)
    (Histogram.fillAll_exact_tally hnew hL') ?_
  rw [htally]
  exact Histogram.fillAll_exact_tally hnew hL

end Fresh

/-- **Counting does not depend on order.** Over axes without NaN bounds, take any two lists of
whole fills (plain fills, and fills weighted by a whole number not below zero). Filling one
fresh counting histogram with each list and merging the two gives a histogram equal to one
fresh histogram filled with both lists in turn; and filling a fresh histogram with any
permutation of a list gives one equal to filling it with the list. Fills that binning refuses
or drops count nowhere, in every order. -/
theorem Histogram.counting_order_free (axes : Axes) (h₀ : Histogram Counts)
    (hnew : Histogram.withStore axes (Counts.new 0) = .ok h₀) (hnan : ∀ a ∈ axes, a.NaNFree)
    (L R : List Fill) (hL : ∀ f ∈ L, f.wholeAmount?.isSome)
    (hR : ∀ f ∈ R, f.wholeAmount?.isSome) :
    (∃ m, (h₀.fillAll L).merge (h₀.fillAll R) = .ok m ∧ m.beq (h₀.fillAll (L ++ R)) = true) ∧
      ∀ L', L'.Perm L → (h₀.fillAll L').beq (h₀.fillAll L) = true :=
  ⟨Histogram.merge_fillAll_beq hnew hnan hL hR,
    fun _ hp => Histogram.fillAll_perm_beq hnew hnan hL hp⟩

/-- Two integer axes, one with flow slots: a list with a plain fill and a fill of weight `3`,
and a list with the same plain fill and a point the second axis drops, merge into the
histogram filled with both. -/
theorem Histogram.counting_order_free_integer_axes :
    let axes : Axes := [.integer ⟨0, 4, .flows, by decide, by decide⟩,
      .integer ⟨0, 3, .empty, by decide, by decide⟩]
    let L : List Fill := [.ofCoords [.int 1, .int 2], ⟨[.int 3, .int 0], some 3.0, none⟩]
    let R : List Fill := [.ofCoords [.int 1, .int 2], .ofCoords [.int 0, .int 5]]
    Histogram.withStore axes (Counts.new 0) = .ok ⟨axes, Counts.new 18⟩ ∧
      (∃ m, (Histogram.fillAll ⟨axes, Counts.new 18⟩ L).merge
          (Histogram.fillAll ⟨axes, Counts.new 18⟩ R) = .ok m ∧
        m.beq (Histogram.fillAll ⟨axes, Counts.new 18⟩ (L ++ R)) = true) := by
  intro axes L R
  have hw : Histogram.withStore axes (Counts.new 0) = .ok ⟨axes, Counts.new 18⟩ := rfl
  have hnan : ∀ a ∈ axes, a.NaNFree := by simp [axes, Axis.NaNFree]
  have hL : ∀ f ∈ L, f.wholeAmount?.isSome := by decide
  have hR : ∀ f ∈ R, f.wholeAmount?.isSome := by decide
  exact ⟨hw, (Histogram.counting_order_free axes _ hw hnan L R hL hR).1⟩

end Histograms
