import Histograms.Proofs.Stores
import Mathlib.Order.MinMax
/-!
# The ladder of layouts

The layouts a counting store reports are ordered `empty < u8 < u16 < u32 < u64 < big < f64`.
Every update of a store moves its layout up the ladder or leaves it, and `f64` is never
left. While a store and what is added to it are integers, the layout an update leaves is
the wider of the old one and the least width that holds the new count; a merge leaves the
widest of the two layouts and the least widths of all the sums.

The order is the order of `Layout.rank`, so `max` of two layouts is the wider one and the
Mathlib lemmas on `max` apply.

Main statements:

* `Counts.kind_promote` — widening to a layout gives the wider of the two.
* `Counts.layout_le_step`, `Counts.layout_le_scale` — no update narrows a store.
* `Counts.Exact.layout_addCount`, `Counts.Exact.layout_addBig`, `Counts.Exact.layout_add` —
  the layout after adding a whole amount to one cell.
* `Counts.Exact.layout_merge` — the layout after a merge of integer stores.
* `Counts.layout_add_of_not_whole`, `Counts.layout_scale_of_not_whole` — an amount or a
  factor that is not a whole number moves a store with cells to floats.
* `Counts.layout_run` — along a run of whole additions from fresh cells the layout is the
  least width that holds the largest count.
-/

namespace Histograms

/-! ### The order of widths and layouts -/

namespace Width

theorem rank_injective : Function.Injective rank := by
  intro v w h
  cases v <;> cases w <;> first | rfl | cases h

/-- Widths are ordered by how much they hold. -/
instance : LinearOrder Width :=
  LinearOrder.lift' rank rank_injective

theorem le_iff_rank_le {v w : Width} : v ≤ w ↔ v.rank ≤ w.rank := Iff.rfl

theorem le_big (w : Width) : w ≤ .big := by
  cases w <;> decide

/-- The least width that holds `n` lies below every width that holds it. -/
theorem forCount_le_iff {n : Nat} {w : Width} : forCount n ≤ w ↔ w.Holds n :=
  ⟨fun h => (holds_forCount n).mono h, forCount_le n w⟩

theorem forCount_mono : Monotone forCount := by
  intro m n hmn
  rw [forCount_le_iff]
  unfold forCount
  repeat' split
  all_goals simp only [Holds, limit] <;> omega

theorem forCount_of_le {n : Nat} (h : 2 ^ 64 ≤ n) : forCount n = .big := by
  unfold forCount
  repeat' split
  all_goals first | rfl | omega

/-- A new count widens a width to the wider of it and the count's least width. -/
theorem after_eq_max (w : Width) (m : Nat) : w.after m = max w (forCount m) := by
  unfold after
  split
  · next hw => exact (max_eq_left (forCount_le_iff.mpr hw)).symm
  · next hw => exact (max_eq_right (le_of_lt (not_le.mp (mt forCount_le_iff.mp hw)))).symm

end Width

namespace Layout

theorem rank_injective : Function.Injective rank := by
  intro l l' h
  have hw : ∀ w : Width, w.rank < 5 := by intro w; cases w <;> decide
  rcases l with _ | w | _ <;> rcases l' with _ | w' | _ <;> simp only [rank] at h
  · rfl
  · omega
  · omega
  · omega
  · rw [Width.rank_injective (Nat.succ_injective h)]
  · have := hw w; omega
  · omega
  · have := hw w'; omega
  · rfl

/-- Layouts are ordered along the ladder `empty < u8 < … < big < f64`. -/
instance : LinearOrder Layout :=
  LinearOrder.lift' rank rank_injective

theorem le_iff_rank_le {l l' : Layout} : l ≤ l' ↔ l.rank ≤ l'.rank := Iff.rfl

@[simp] theorem empty_le (l : Layout) : empty ≤ l := Nat.zero_le _

@[simp] theorem le_real (l : Layout) : l ≤ real := by
  rcases l with _ | w | _
  · decide
  · cases w <;> decide
  · decide

@[simp] theorem exact_le_exact {v w : Width} : exact v ≤ exact w ↔ v ≤ w := by
  simp [le_iff_rank_le, Width.le_iff_rank_le, rank]

theorem max_exact (v w : Width) : max (exact v) (exact w) = exact (max v w) := by
  rcases le_total v w with hvw | hwv
  · rw [max_eq_right (exact_le_exact.mpr hvw), max_eq_right hvw]
  · rw [max_eq_left (exact_le_exact.mpr hwv), max_eq_left hwv]

theorem eq_real_of_real_le {l : Layout} (h : real ≤ l) : l = real :=
  le_antisymm (le_real l) h

/-- The widest of a list of layouts; `empty` when there is none. -/
def widest (ls : List Layout) : Layout := ls.foldr max empty

@[simp] theorem widest_nil : widest [] = empty := rfl

@[simp] theorem widest_cons (l : Layout) (ls : List Layout) :
    widest (l :: ls) = max l (widest ls) := rfl

theorem widest_append (ls ls' : List Layout) :
    widest (ls ++ ls') = max (widest ls) (widest ls') := by
  induction ls with
  | nil => simp
  | cons l ls ih => simp [ih, max_assoc]

theorem widest_singleton (l : Layout) : widest [l] = l := by
  simp

end Layout

/-! ### Widening -/

namespace Counts

variable {s t r : Counts} {v u : List Nat} {i : Nat}

/-- Widening to a layout gives the wider of the store's own and the target: a target that is
not wider changes nothing. -/
theorem kind_promote (s : Counts) (l : Layout) : (s.promote l).kind = max s.kind l := by
  unfold promote
  split
  · next hle => exact (max_eq_left (Layout.le_iff_rank_le.mpr hle)).symm
  · next hlt =>
    rw [max_eq_right (le_of_lt (not_le.mp (mt Layout.le_iff_rank_le.mp hlt)))]
    cases s with
    | exact w cells =>
      cases l with
      | empty => exact absurd (Nat.zero_le _) hlt
      | exact v => rfl
      | real => rfl
    | real cells => exact absurd (Layout.le_iff_rank_le.mp (Layout.le_real l)) hlt

theorem layout_of_pos {s : Counts} (h : 0 < s.size) : s.layout = s.kind := by
  simp [layout, Nat.pos_iff_ne_zero.mp h]

theorem layout_of_size_eq_zero {s : Counts} (h : s.size = 0) : s.layout = .empty := by
  simp [layout, h]

/-- A store of the same size whose kind is at least as wide reports a layout at least as
wide. -/
theorem layout_le_of_kind_le {s s' : Counts} (hsize : s'.size = s.size) (h : s.kind ≤ s'.kind) :
    s.layout ≤ s'.layout := by
  by_cases h0 : s.size = 0
  · rw [layout_of_size_eq_zero h0]
    exact Layout.empty_le _
  · rw [layout_of_pos (Nat.pos_of_ne_zero h0), layout_of_pos (hsize ▸ Nat.pos_of_ne_zero h0)]
    exact h

/-! ### No update narrows a store -/

theorem kind_le_addCount (s : Counts) (i a : Nat) : s.kind ≤ (s.addCount i a).kind := by
  cases s with
  | exact w cells =>
    by_cases hi : i < cells.size
    · rw [addCount_exact hi]
      exact Layout.exact_le_exact.mpr (Width.le_iff_rank_le.mpr (rank_le_after w _))
    · simp [addCount_eq, hi, kind]
  | real cells =>
    by_cases hi : i < cells.size <;> simp [addCount_eq, hi, kind]

theorem kind_addBig_of_le {a : Nat} (s : Counts) (i : Nat) (ha : 2 ^ 64 ≤ a) :
    (s.addBig i a).kind = max s.kind (.exact .big) := by
  unfold addBig
  rw [if_neg (Nat.not_lt.mpr ha), ← kind_promote]
  -- the write after the widening keeps the widening's layout
  generalize hp : s.promote (.exact .big) = p
  cases p with
  | exact w cells fits =>
    obtain rfl := eq_big_of_promote_big s hp
    dsimp only
    split <;> rfl
  | real cells =>
    dsimp only
    split <;> rfl

theorem kind_le_addBig (s : Counts) (i a : Nat) : s.kind ≤ (s.addBig i a).kind := by
  by_cases ha : a < 2 ^ 64
  · simp only [addBig, ha, ↓reduceIte]
    exact kind_le_addCount s i a
  · rw [kind_addBig_of_le s i (Nat.not_lt.mp ha)]
    exact le_max_left _ _

theorem kind_add_of_toNat?_eq_none {x : Float} (s : Counts) (i : Nat) (hx : x.toNat? = none) :
    (s.add i x).kind = .real := by
  have hreal : (s.promote .real).kind = .real := by
    rw [kind_promote, max_eq_right (Layout.le_real _)]
  unfold add
  rw [hx]
  dsimp only
  generalize s.promote .real = p at hreal
  cases p with
  | exact w cells => cases hreal
  | real cells => dsimp only; split <;> rfl

theorem kind_le_add (s : Counts) (i : Nat) (x : Float) : s.kind ≤ (s.add i x).kind := by
  cases hx : x.toNat? with
  | none =>
    rw [kind_add_of_toNat?_eq_none s i hx]
    exact Layout.le_real _
  | some n =>
    simp only [add, hx]
    split
    · exact kind_le_addCount s i n
    · exact kind_le_addBig s i n

theorem kind_le_addValue (s : Counts) (i : Nat) (c : Count) : s.kind ≤ (s.addValue i c).kind := by
  cases c with
  | int n => exact kind_le_addCount s i n
  | big n => exact kind_le_addBig s i n
  | real x => exact kind_le_add s i x

theorem kind_le_merge (h : s.merge t = .ok r) : s.kind ≤ r.kind := by
  unfold merge at h
  split at h
  · cases h
  · cases h
    -- every step of the loop is `addValue` or nothing, after a widening to `t`'s layout
    suffices ∀ (l : List Nat) (acc : Counts), acc.kind ≤ (l.foldl (fun acc i => let c := t.get i;
        if c.isZero then acc else acc.addValue i c) acc).kind by
      refine le_trans ?_ (this _ _)
      rw [kind_promote]
      exact le_max_left _ _
    intro l
    induction l with
    | nil => intro acc; exact le_refl _
    | cons i l ih =>
      intro acc
      rw [List.foldl_cons]
      refine le_trans ?_ (ih _)
      dsimp only
      split
      · exact le_refl _
      · exact kind_le_addValue acc i _

theorem kind_scaleReal (s : Counts) (f : Float) : (s.scaleReal f).kind = .real := by
  unfold scaleReal
  have hp := kind_promote s .real
  rw [max_eq_right (Layout.le_real _)] at hp
  generalize s.promote .real = p at hp
  cases p with
  | exact w cells => cases hp
  | real cells => rfl

theorem kind_le_scale (s : Counts) (f : Float) : s.kind ≤ (s.scale f).kind := by
  have hcount : ∀ k, s.kind ≤ (s.scaleCount k).kind := by
    intro k
    unfold scaleCount
    extract_lets top
    have hp := kind_promote s (.exact (Width.forCount (top * k)))
    generalize s.promote _ = p at hp
    have hle : s.kind ≤ p.kind := hp ▸ le_max_left _ _
    cases p with
    | exact w cells => exact hle
    | real cells => exact hle
  unfold scale
  split
  · split
    · exact hcount _
    · exact kind_scaleReal s f ▸ Layout.le_real _
  · exact kind_scaleReal s f ▸ Layout.le_real _

theorem size_step (s : Counts) (op : Op) : (s.step op).size = s.size := by
  cases op with
  | increment i => exact size_addCount s i 1
  | addCount i n => exact size_addCount s i n
  | addBig i n => exact size_addBig s i n
  | add i x => exact size_add s i x
  | addValue i c => exact size_addValue s i c
  | merge t =>
    simp only [step]
    split
    · next r hr => exact size_merge s hr
    · rfl

theorem kind_le_step (s : Counts) (op : Op) : s.kind ≤ (s.step op).kind := by
  cases op with
  | increment i => exact kind_le_addCount s i 1
  | addCount i n => exact kind_le_addCount s i n
  | addBig i n => exact kind_le_addBig s i n
  | add i x => exact kind_le_add s i x
  | addValue i c => exact kind_le_addValue s i c
  | merge t =>
    simp only [step]
    split
    · next r hr => exact kind_le_merge hr
    · exact le_refl _

/-- No update narrows a store: the layout it reports after any update is at least as wide. -/
theorem layout_le_step (s : Counts) (op : Op) : s.layout ≤ (s.step op).layout :=
  layout_le_of_kind_le (size_step s op) (kind_le_step s op)

theorem layout_le_scale (s : Counts) (f : Float) : s.layout ≤ (s.scale f).layout :=
  layout_le_of_kind_le (size_scale s f) (kind_le_scale s f)

/-! ### Whole amounts on integer stores -/

/-- A store of the same size with cells, whose kind is the wider of the old one and `l`,
reports the wider of the old layout and `l`. -/
theorem layout_of_kind_eq {s s' : Counts} {l : Layout} (hsize : s'.size = s.size)
    (hpos : 0 < s.size) (h : s'.kind = max s.kind l) : s'.layout = max s.layout l := by
  rw [layout_of_pos (hsize ▸ hpos), layout_of_pos hpos, h]

theorem Exact.size_pos (h : s.Exact v) (hi : i < v.length) : 0 < s.size :=
  h.size_eq ▸ Nat.lt_of_le_of_lt (Nat.zero_le i) hi

/-- A count of an integer store lies within the store's width. -/
theorem Exact.forCount_le_kind (h : s.Exact v) {n : Nat} (hn : n ∈ v) :
    Layout.exact (Width.forCount n) ≤ s.kind := by
  obtain ⟨w, cells, fits, rfl, rfl⟩ := h
  exact Layout.exact_le_exact.mpr (Width.forCount_le_iff.mpr (fits n hn))

theorem Exact.kind_addCount (h : s.Exact v) (hi : i < v.length) (a : Nat) :
    (s.addCount i a).kind = max s.kind (.exact (Width.forCount (v[i] + a))) := by
  obtain ⟨w, cells, fits, rfl, rfl⟩ := h
  have hi' : i < cells.size := by simpa using hi
  rw [addCount_exact hi', kind, kind, Width.after_eq_max, Layout.max_exact, Array.getElem_toList]

theorem Exact.kind_addBig (h : s.Exact v) (hi : i < v.length) (a : Nat) :
    (s.addBig i a).kind = max s.kind (.exact (Width.forCount (v[i] + a))) := by
  by_cases ha : a < 2 ^ 64
  · simp only [Counts.addBig, ha, ↓reduceIte]
    exact h.kind_addCount hi a
  · rw [kind_addBig_of_le s i (Nat.not_lt.mp ha), Width.forCount_of_le (by omega)]

theorem Exact.kind_add (h : s.Exact v) (hi : i < v.length) {x : Float} {n : Nat}
    (hx : x.DenotesNat n) :
    (s.add i x).kind = max s.kind (.exact (Width.forCount (v[i] + n))) := by
  unfold Counts.add
  rw [Float.toNat?_eq_some_iff.mpr hx]
  dsimp only
  split
  · exact h.kind_addCount hi n
  · exact h.kind_addBig hi n

theorem Exact.kind_addValue (h : s.Exact v) (hi : i < v.length) {c : Count} {n : Nat}
    (hc : c.DenotesNat n) :
    (s.addValue i c).kind = max s.kind (.exact (Width.forCount (v[i] + n))) := by
  cases c with
  | int m =>
    subst hc
    exact h.kind_addCount hi m
  | big m =>
    subst hc
    exact h.kind_addBig hi m
  | real x => exact h.kind_add hi hc

/-- Adding to a cell of an integer store leaves the wider of the old layout and the least
width of the new count. -/
theorem Exact.layout_addCount (h : s.Exact v) (hi : i < v.length) (a : Nat) :
    (s.addCount i a).layout = max s.layout (.exact (Width.forCount (v[i] + a))) :=
  layout_of_kind_eq (size_addCount s i a) (h.size_pos hi) (h.kind_addCount hi a)

theorem Exact.layout_addBig (h : s.Exact v) (hi : i < v.length) (a : Nat) :
    (s.addBig i a).layout = max s.layout (.exact (Width.forCount (v[i] + a))) :=
  layout_of_kind_eq (size_addBig s i a) (h.size_pos hi) (h.kind_addBig hi a)

theorem Exact.layout_add (h : s.Exact v) (hi : i < v.length) {x : Float} {n : Nat}
    (hx : x.DenotesNat n) :
    (s.add i x).layout = max s.layout (.exact (Width.forCount (v[i] + n))) :=
  layout_of_kind_eq (size_add s i x) (h.size_pos hi) (h.kind_add hi hx)

theorem Exact.layout_addValue (h : s.Exact v) (hi : i < v.length) {c : Count} {n : Nat}
    (hc : c.DenotesNat n) :
    (s.addValue i c).layout = max s.layout (.exact (Width.forCount (v[i] + n))) :=
  layout_of_kind_eq (size_addValue s i c) (h.size_pos hi) (h.kind_addValue hi hc)

/-! ### Merging integer stores -/

theorem getElem_addedUpTo_self {v u : List Nat} {k : Nat} (hk : k < (addedUpTo v u k).length) :
    (addedUpTo v u k)[k] = v.getD k 0 := by
  simp [addedUpTo]

/-- The merge loop after its first `k` cells: every cell it added to widened the store to
the least width of the sum there, and a skipped cell needs no more than the store had. -/
theorem Exact.kind_merge_loop {u : List Nat} (h : s.Exact v) (ht : t.Exact u)
    (hlen : u.length = v.length) (k : Nat) (hk : k ≤ v.length) :
    ((List.range k).foldl
      (fun acc i => let c := t.get i; if c.isZero then acc else acc.addValue i c) s).kind =
      max s.kind (Layout.widest ((List.range k).map fun j =>
        .exact (Width.forCount (v.getD j 0 + u.getD j 0)))) := by
  induction k with
  | zero => simp
  | succ k ih =>
    have hk' : k < v.length := by omega
    have hku : k < u.length := by omega
    have hacc := h.merge_loop ht hlen k (by omega)
    rw [List.range_succ, List.foldl_append, List.foldl_cons, List.foldl_nil, List.map_append,
      Layout.widest_append, ← max_assoc, ← ih (by omega)]
    generalize List.foldl _ s (List.range k) = acc at hacc ⊢
    simp only [List.map_cons, List.map_nil, Layout.widest_singleton]
    have hlen' : k < (addedUpTo v u k).length := by rw [length_addedUpTo]; exact hk'
    have hcell : (addedUpTo v u k)[k] = v.getD k 0 := getElem_addedUpTo_self hlen'
    have hget : u.getD k 0 = u[k] := by simp [List.getD_eq_getElem?_getD, hku]
    -- a zero cell of `t` is skipped: the sum there is the old count, which the store holds
    have hskip : u[k] = 0 → acc.kind = max acc.kind (.exact (Width.forCount (v.getD k 0 + u[k]))) := by
      intro h0
      rw [h0, Nat.add_zero, ← hcell, max_eq_left (hacc.forCount_le_kind (List.getElem_mem hlen'))]
    rw [hget]
    rcases ht.get_eq hku with hc | hc <;> rw [hc] <;> simp only [Count.isZero, beq_iff_eq] <;> split
    · next h0 => exact hskip h0
    · rw [hacc.kind_addValue hlen' (c := .int u[k]) (n := u[k]) rfl, hcell]
    · next h0 => exact hskip h0
    · rw [hacc.kind_addValue hlen' (c := .big u[k]) (n := u[k]) rfl, hcell]

theorem map_range_getD_add {v u : List Nat} (hlen : u.length = v.length) (g : Nat → Layout) :
    (List.range v.length).map (fun j => g (v.getD j 0 + u.getD j 0)) =
      (List.zipWith (· + ·) v u).map g := by
  rw [← addedUpTo_length hlen, addedUpTo, List.map_map]
  refine List.map_congr_left fun j hj => ?_
  simp only [Function.comp_apply, List.mem_range.mp hj, ↓reduceIte]

/-- Merging integer stores leaves the widest of the two layouts and the least widths of the
sums of their cells. -/
theorem Exact.layout_merge {u : List Nat} (h : s.Exact v) (ht : t.Exact u)
    (hlen : u.length = v.length) :
    ∃ r, s.merge t = .ok r ∧ r.layout = max (max s.layout t.layout)
      (Layout.widest ((List.zipWith (· + ·) v u).map fun n => .exact (Width.forCount n))) := by
  obtain ⟨r, hr, hexact⟩ := h.merge ht hlen
  refine ⟨r, hr, ?_⟩
  obtain ⟨wt, cells, fits, rfl, rfl⟩ := id ht
  have hsize : (Counts.exact wt cells fits).size = v.length := by simpa [size] using hlen
  have hsz : ¬ (s.size ≠ (Counts.exact wt cells fits).size) := by
    rw [h.size_eq, hsize]
    exact fun hne => hne rfl
  -- the merge is the loop over the cells of `t`, from `s` widened to the layout of `t`
  have hloop : r.kind = max (max s.kind (.exact wt))
      (Layout.widest ((List.zipWith (· + ·) v cells.toList).map fun n => .exact (Width.forCount n))) := by
    unfold Counts.merge at hr
    rw [if_neg hsz] at hr
    cases hr
    rw [hsize, ← map_range_getD_add hlen (fun n => Layout.exact (Width.forCount n)), ← kind_promote]
    exact (h.promote wt).kind_merge_loop ht hlen v.length (Nat.le_refl _)
  have hrsize : r.size = v.length := by
    rw [hexact.size_eq, List.length_zipWith, hlen, Nat.min_self]
  rcases Nat.eq_zero_or_pos v.length with h0 | hpos
  · -- no cells: every layout is `empty`
    have hv : v = [] := List.eq_nil_of_length_eq_zero h0
    subst hv
    have hu : cells.toList = [] := List.eq_nil_of_length_eq_zero hlen
    rw [layout_of_size_eq_zero hrsize, layout_of_size_eq_zero (by rw [h.size_eq]; rfl),
      layout_of_size_eq_zero hsize]
    simp [hu]
  · rw [layout_of_pos (hrsize ▸ hpos), layout_of_pos (h.size_pos hpos),
      layout_of_pos (hsize ▸ hpos), hloop]
    rfl

/-! ### Amounts that are not whole -/

theorem toNat?_eq_none_of_not_whole {x : Float} (hx : ∀ n, ¬ x.DenotesNat n) : x.toNat? = none :=
  Option.eq_none_iff_forall_ne_some.mpr fun n hn => hx n (Float.toNat?_eq_some_iff.mp hn)

/-- An amount that is not a whole number not below zero moves a store with cells to floats. -/
theorem layout_add_of_not_whole {x : Float} (s : Counts) (i : Nat) (hs : 0 < s.size)
    (hx : ∀ n, ¬ x.DenotesNat n) : (s.add i x).layout = .real := by
  rw [layout_of_pos ((size_add s i x).symm ▸ hs),
    kind_add_of_toNat?_eq_none s i (toNat?_eq_none_of_not_whole hx)]

/-- A factor that is not a whole number not below zero moves a store with cells to floats. -/
theorem layout_scale_of_not_whole {f : Float} (s : Counts) (hs : 0 < s.size)
    (hf : ∀ n, ¬ f.DenotesNat n) : (s.scale f).layout = .real := by
  rw [layout_of_pos ((size_scale s f).symm ▸ hs), scale, toNat?_eq_none_of_not_whole hf]
  exact kind_scaleReal s f

/-! ### Runs of whole additions -/

/-- The update is a merge. -/
def Op.isMerge : Op → Bool
  | .merge _ => true
  | _ => false

theorem foldr_max_modify {v : List Nat} {i : Nat} (hi : i < v.length) (n : Nat) :
    (v.modify i (· + n)).foldr max 0 = max (v.foldr max 0) (v[i] + n) := by
  induction v generalizing i with
  | nil => cases hi
  | cons x v ih =>
    cases i with
    | zero =>
      show max (x + n) _ = max (max x _) (x + n)
      omega
    | succ i =>
      simp only [List.length_cons, Nat.add_lt_add_iff_right] at hi
      simp [ih hi]

/-- An update that adds a whole amount to one cell of an integer store: the cell, the
amount, and the layout it leaves. -/
theorem Exact.layout_step {op : Op} {v' : List Nat} (h : s.Exact v) (hop : op.Adds v v')
    (hm : op.isMerge = false) :
    ∃ i n, ∃ hi : i < v.length, v' = v.modify i (· + n) ∧
      (s.step op).layout = max s.layout (.exact (Width.forCount (v[i] + n))) := by
  cases hop with
  | increment hi => exact ⟨_, 1, hi, rfl, h.layout_addCount hi 1⟩
  | addCount n hi => exact ⟨_, n, hi, rfl, h.layout_addCount hi n⟩
  | addBig n hi => exact ⟨_, n, hi, rfl, h.layout_addBig hi n⟩
  | add hi hx => exact ⟨_, _, hi, rfl, h.layout_add hi hx⟩
  | addValue hi hc => exact ⟨_, _, hi, rfl, h.layout_addValue hi hc⟩
  | merge => cases hm
  | mergeMismatch => cases hm

/-- Along a run of whole additions, a store whose layout is the least width of its largest
count keeps that invariant. -/
theorem Exact.layout_run {ops : List Op} {v' : List Nat} (h : s.Exact v) (hrun : Op.Runs v ops v')
    (hm : ∀ op ∈ ops, op.isMerge = false)
    (hlayout : s.layout = .exact (Width.forCount (v.foldr max 0))) :
    (s.run ops).layout = .exact (Width.forCount (v'.foldr max 0)) := by
  induction hrun generalizing s with
  | nil => exact hlayout
  | @cons v₀ op v₁ ops v₂ hop _ ih =>
    have hm₁ : op.isMerge = false := hm op (List.mem_cons_self ..)
    obtain ⟨i, a, hi, rfl, hstep⟩ := h.layout_step hop hm₁
    refine ih (h.step hop) (fun o ho => hm o (List.mem_cons_of_mem _ ho)) ?_
    rw [hstep, hlayout, Layout.max_exact, ← Width.forCount_mono.map_max, foldr_max_modify hi]

theorem foldr_max_replicate_zero (n : Nat) : (List.replicate n 0).foldr max 0 = 0 := by
  induction n with
  | zero => rfl
  | succ n ih => rw [List.replicate_succ, List.foldr_cons, ih]; rfl

/-- Along a run of whole additions from fresh cells, the layout is the least width that
holds the largest count. -/
theorem layout_run {n : Nat} {ops : List Op} {v : List Nat} (hn : 0 < n)
    (hrun : Op.Runs (List.replicate n 0) ops v) (hm : ∀ op ∈ ops, op.isMerge = false) :
    ((new n).run ops).layout = .exact (Width.forCount (v.foldr max 0)) := by
  refine (exact_new n).layout_run hrun hm ?_
  rw [layout_of_pos (by rw [size_new]; exact hn), foldr_max_replicate_zero n]
  rfl

/-! ### The ladder -/

/-- **The ladder of layouts.** No update narrows a store, so a store in floats stays there.
While a store and the amount are integers, adding to one cell leaves the wider of the old
layout and the least width of the new count, and a merge leaves the widest of the two layouts
and of the least widths of the sums. An amount or a factor that is not a whole number not below
zero moves a store with cells to floats. Along a run of whole additions from fresh cells, the
layout is the least width that holds the largest count. -/
theorem layout_ladder :
    (∀ (s : Counts) (op : Op), s.layout ≤ (s.step op).layout) ∧
    (∀ (s : Counts) (f : Float), s.layout ≤ (s.scale f).layout) ∧
    (∀ (s : Counts) (op : Op), s.layout = .real → (s.step op).layout = .real) ∧
    (∀ (s : Counts) (f : Float), s.layout = .real → (s.scale f).layout = .real) ∧
    (∀ (s : Counts) (v : List Nat) (i : Nat) (hi : i < v.length), s.Exact v →
      (∀ a, (s.addCount i a).layout = max s.layout (.exact (Width.forCount (v[i] + a)))) ∧
      (∀ a, (s.addBig i a).layout = max s.layout (.exact (Width.forCount (v[i] + a)))) ∧
      (∀ (x : Float) (n : Nat), x.DenotesNat n →
        (s.add i x).layout = max s.layout (.exact (Width.forCount (v[i] + n))))) ∧
    (∀ (s t : Counts) (v u : List Nat), s.Exact v → t.Exact u → u.length = v.length →
      ∃ r, s.merge t = .ok r ∧ r.layout = max (max s.layout t.layout)
        (Layout.widest ((List.zipWith (· + ·) v u).map fun n => .exact (Width.forCount n)))) ∧
    (∀ (s : Counts) (i : Nat) (x : Float), 0 < s.size → (∀ n, ¬ x.DenotesNat n) →
      (s.add i x).layout = .real) ∧
    (∀ (s : Counts) (f : Float), 0 < s.size → (∀ n, ¬ f.DenotesNat n) →
      (s.scale f).layout = .real) ∧
    (∀ (n : Nat) (ops : List Op) (v : List Nat), 0 < n → Op.Runs (List.replicate n 0) ops v →
      (∀ op ∈ ops, op.isMerge = false) →
      ((new n).run ops).layout = .exact (Width.forCount (v.foldr max 0))) :=
  ⟨layout_le_step, layout_le_scale,
    fun s op h => Layout.eq_real_of_real_le (h ▸ layout_le_step s op),
    fun s f h => Layout.eq_real_of_real_le (h ▸ layout_le_scale s f),
    fun _ _ _ hi h => ⟨h.layout_addCount hi, h.layout_addBig hi, fun _ _ hx => h.layout_add hi hx⟩,
    fun _ _ _ _ h ht hlen => h.layout_merge ht hlen,
    fun s i _ hs hx => layout_add_of_not_whole s i hs hx,
    fun s _ hs hf => layout_scale_of_not_whole s hs hf,
    fun _ _ _ hn hrun hm => layout_run hn hrun hm⟩

/-- Two eight-bit cells holding `255` and `5`: one more count in the first moves the store to
sixteen bits, and adding `-0.0`, which is worth `0`, to the second keeps eight bits. -/
theorem layout_ladder_two_cells :
    (Counts.exact .u8 #[255, 5] (by decide)).Exact [255, 5] ∧
      ((Counts.exact .u8 #[255, 5] (by decide)).addCount 0 1).layout = .exact .u16 ∧
      ((Counts.exact .u8 #[255, 5] (by decide)).add 1 (-0.0)).layout = .exact .u8 := by
  have hex : (Counts.exact .u8 #[255, 5] (by decide)).Exact [255, 5] :=
    ⟨.u8, #[255, 5], _, rfl, rfl⟩
  have hzero : (-0.0 : Float).DenotesNat 0 := Float.toNat?_eq_some_iff.mp (by decide +kernel)
  obtain ⟨hcount, -, hadd⟩ := layout_ladder.2.2.2.2.1 _ _ 0 (by decide) hex
  obtain ⟨-, -, hadd₁⟩ := layout_ladder.2.2.2.2.1 _ _ 1 (by decide) hex
  refine ⟨hex, ?_, ?_⟩
  · rw [hcount 1]
    decide
  · rw [hadd₁ _ _ hzero]
    decide

/-- A store without cells reports `empty` whatever it holds: scaling it by `0.5`, which is
not a whole number, leaves it reporting `empty` and not floats. -/
theorem layout_scale_without_cells :
    (∀ n, ¬ (0.5 : Float).DenotesNat n) ∧ ((Counts.new 0).scale 0.5).layout = .empty := by
  have hhalf : (0.5 : Float).toNat? = none := by decide
  refine ⟨fun n hn => ?_, layout_of_size_eq_zero (by rw [size_scale, size_new])⟩
  rw [Float.toNat?_eq_some_iff.mpr hn] at hhalf
  cases hhalf

end Counts

end Histograms
