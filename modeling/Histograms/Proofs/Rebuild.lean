import Histograms.Proofs.Ladder
import Histograms.Proofs.OrderFree
/-!
# Rebuilding a counting store from its counts

`Counts.ofCounts` builds a store from a list of counts by adding each, in order, to its zero
cell of a fresh store. The store has one cell per count, and its layout is the widest of what
the counts need one by one: the least width of a whole count, floats for any other
(`Count.need`). While no count needs floats, every cell reads back as the count it was built
from.

Reading a store's cells and rebuilding from them loses nothing: the rebuilt store equals the
store, count by count, and is no wider. For a store of floats this rests on the float model
being exact on whole numbers (`Float.ofNat_beq_of_toNat?`, `Float.zero_add_beq`): a cell that
moves to floats keeps its value, and a float added to a zero cell comes back unchanged.

Main statements:

* `Counts.ofCountsFrom_concat` — the build adds one count at a time.
* `Counts.exact_ofCountsFrom` — while every count is whole, the build is exact.
* `Counts.layout_ofCounts` — the layout is the widest need of the counts.
* `Counts.ofCountsFrom_reals` — a build from floats keeps `Counts.HoldsFloats` from the first
  float that is not whole on.
* `Counts.ofCounts_toList_beq` — rebuilding a store from its counts gives an equal store.
-/

namespace Histograms

namespace Count

/-- The narrowest layout that holds one count: the least width of a whole count, and floats
for any other. -/
def need (c : Count) : Layout :=
  match c.toNat? with
  | some n => .exact (Width.forCount n)
  | none => .real

/-- A float count that is NaN. -/
def isNaN : Count → Bool
  | .real x => x.isNaN
  | _ => false

theorem toNat?_eq_some_iff {c : Count} {n : Nat} : c.toNat? = some n ↔ c.DenotesNat n := by
  cases c with
  | int m => simp [toNat?, DenotesNat]
  | big m => simp [toNat?, DenotesNat]
  | real x => exact Float.toNat?_eq_some_iff

theorem need_of_toNat? {c : Count} {n : Nat} (h : c.toNat? = some n) :
    c.need = .exact (Width.forCount n) := by
  simp [need, h]

theorem need_of_toNat?_eq_none {c : Count} (h : c.toNat? = none) : c.need = .real := by
  simp [need, h]

theorem exact_u8_le_need (c : Count) : Layout.exact .u8 ≤ c.need := by
  unfold need
  split
  · exact Layout.exact_le_exact.mpr (Width.le_iff_rank_le.mpr (Nat.zero_le _))
  · exact Layout.le_real _

/-- Only a float can fail to be whole. -/
theorem eq_real_of_toNat?_eq_none {c : Count} (h : c.toNat? = none) :
    ∃ x, c = .real x ∧ x.toNat? = none := by
  cases c with
  | int m => cases h
  | big m => cases h
  | real x => exact ⟨x, rfl, h⟩

theorem whole_of_not_exists {p : List Count} (h : ¬∃ c ∈ p, c.toNat? = none) :
    ∀ c ∈ p, c.toNat?.isSome := by
  intro c hc
  rw [Option.isSome_iff_ne_none]
  exact fun hnone => h ⟨c, hc, hnone⟩

end Count

namespace Layout

theorem le_widest {l : Layout} {ls : List Layout} (h : l ∈ ls) : l ≤ widest ls := by
  induction ls with
  | nil => cases h
  | cons l' ls ih =>
    rw [widest_cons]
    rcases List.mem_cons.mp h with rfl | h
    · exact le_max_left _ _
    · exact le_trans (ih h) (le_max_right _ _)

theorem widest_le {ls : List Layout} {b : Layout} (h : ∀ l ∈ ls, l ≤ b) : widest ls ≤ b := by
  induction ls with
  | nil => exact empty_le b
  | cons l ls ih =>
    rw [widest_cons]
    exact max_le (h l (by simp)) (ih fun l' hl' => h l' (by simp [hl']))

end Layout

namespace Counts

/-! ### The build, one count at a time -/

/-- The store that `ofCounts` has built after the counts `p`, in a store of `n` cells. -/
def ofCountsFrom (n : Nat) (p : List Count) : Counts :=
  p.zipIdx.foldl (fun s q => s.addValue q.2 q.1) (new n)

theorem ofCounts_eq (cs : List Count) : ofCounts cs = ofCountsFrom cs.length cs := rfl

@[simp] theorem ofCountsFrom_nil (n : Nat) : ofCountsFrom n [] = new n := rfl

theorem ofCountsFrom_concat (n : Nat) (p : List Count) (c : Count) :
    ofCountsFrom n (p ++ [c]) = (ofCountsFrom n p).addValue p.length c := by
  simp [ofCountsFrom, List.zipIdx_append, List.foldl_append]

@[simp] theorem size_ofCountsFrom (n : Nat) (p : List Count) : (ofCountsFrom n p).size = n := by
  induction p using List.reverseRecOn with
  | nil => exact size_new n
  | append_singleton p c ih => rw [ofCountsFrom_concat, size_addValue, ih]

/-- The cells of a store of `n` cells built from the whole counts `p`: their values, then
zeros. -/
def wholeCells (n : Nat) (p : List Count) : List Nat :=
  (List.range n).map fun k => (p.map fun c => c.toNat?.getD 0).getD k 0

theorem wholeCells_concat (n : Nat) (p : List Count) (c : Count) :
    wholeCells n (p ++ [c]) = (wholeCells n p).modify p.length (· + c.toNat?.getD 0) := by
  rw [wholeCells, wholeCells, Histogram.map_range_modify]
  congr 1
  funext k
  rw [List.map_append, List.map_singleton]
  rcases Nat.lt_trichotomy k p.length with hk | rfl | hk
  · rw [List.getD_append _ _ _ _ (by simpa using hk)]
    simp [Nat.ne_of_gt hk]
  · simp
  · simp [List.getElem?_eq_none (Nat.le_of_lt hk), Nat.ne_of_lt hk,
      List.getElem?_eq_none (show (List.map (fun c => c.toNat?.getD 0) p ++
        [c.toNat?.getD 0]).length ≤ k by simpa using hk)]

theorem getElem_wholeCells {n k : Nat} {p : List Count} (hk : k < (wholeCells n p).length)
    (hkp : k < p.length) : (wholeCells n p)[k] = p[k].toNat?.getD 0 := by
  simp [wholeCells, hkp]

theorem getElem_wholeCells_of_le {n k : Nat} {p : List Count} (hk : k < (wholeCells n p).length)
    (hkp : p.length ≤ k) : (wholeCells n p)[k] = 0 := by
  simp [wholeCells, List.getElem?_eq_none hkp]

/-! ### While every count is whole -/

section Whole

variable {n : Nat} {p : List Count}

/-- **While every count is whole, the build is exact**: its first cells hold the counts'
values and the rest zero. -/
theorem exact_ofCountsFrom (hlen : p.length ≤ n) (hwhole : ∀ c ∈ p, c.toNat?.isSome) :
    (ofCountsFrom n p).Exact (wholeCells n p) := by
  induction p using List.reverseRecOn with
  | nil => simpa [wholeCells] using exact_new n
  | append_singleton p c ih =>
    obtain ⟨m, hm⟩ := Option.isSome_iff_exists.mp (hwhole c (by simp))
    have hp : p.length < n := by simp at hlen; omega
    have hprev := ih (by omega) fun c' hc' => hwhole c' (by simp [hc'])
    rw [ofCountsFrom_concat, wholeCells_concat, hm, Option.getD_some]
    exact hprev.addValue (by simpa [wholeCells] using hp) (Count.toNat?_eq_some_iff.mp hm)

theorem kind_ofCountsFrom_of_whole (hlen : p.length ≤ n) (hwhole : ∀ c ∈ p, c.toNat?.isSome) :
    (ofCountsFrom n p).kind = max (.exact .u8) (Layout.widest (p.map Count.need)) := by
  induction p using List.reverseRecOn with
  | nil => simp [new, kind]
  | append_singleton p c ih =>
    obtain ⟨m, hm⟩ := Option.isSome_iff_exists.mp (hwhole c (by simp))
    have hp : p.length < n := by simp at hlen; omega
    have hwhole' : ∀ c' ∈ p, c'.toNat?.isSome := fun c' hc' => hwhole c' (by simp [hc'])
    have hi : p.length < (wholeCells n p).length := by simpa [wholeCells] using hp
    rw [ofCountsFrom_concat, (exact_ofCountsFrom (by omega) hwhole').kind_addValue hi
      (Count.toNat?_eq_some_iff.mp hm), ih (by omega) hwhole', getElem_wholeCells_of_le hi le_rfl,
      Nat.zero_add, List.map_append, Layout.widest_append, List.map_singleton,
      Layout.widest_singleton, Count.need_of_toNat? hm, max_assoc]

/-- While every count is whole, each cell of the build reads back as its count. -/
theorem get_ofCountsFrom_beq (hlen : p.length ≤ n) (hwhole : ∀ c ∈ p, c.toNat?.isSome) {k : Nat}
    (hk : k < p.length) : ((ofCountsFrom n p).get k == p[k]) = true := by
  obtain ⟨m, hm⟩ := Option.isSome_iff_exists.mp (hwhole _ (List.getElem_mem hk))
  have hkn : k < (wholeCells n p).length := by simp [wholeCells]; omega
  have hget := (exact_ofCountsFrom hlen hwhole).toNat?_get hkn
  rw [getElem_wholeCells hkn hk, hm, Option.getD_some] at hget
  exact Count.beq_of_toNat? hget hm

end Whole

/-- Once a count needs floats, the build is in floats. -/
theorem kind_ofCountsFrom_of_not_whole {n : Nat} {p : List Count} (hlen : p.length ≤ n)
    (h : ∃ c ∈ p, c.toNat? = none) : (ofCountsFrom n p).kind = .real := by
  induction p using List.reverseRecOn with
  | nil => simp at h
  | append_singleton p c ih =>
    rw [ofCountsFrom_concat]
    by_cases hp : ∃ c' ∈ p, c'.toNat? = none
    · -- already in floats, and floats are the widest layout
      have hreal := ih (by simp at hlen; omega) hp
      exact Layout.eq_real_of_real_le (hreal ▸ kind_le_addValue _ _ _)
    · -- the first count that is not whole moves the store to floats
      have hc : c.toNat? = none := by
        obtain ⟨c', hc', hnone⟩ := h
        rcases List.mem_append.mp hc' with hc' | hc'
        · exact absurd ⟨c', hc', hnone⟩ hp
        · simpa [List.mem_singleton.mp hc'] using hnone
      obtain ⟨x, rfl, hx⟩ := Count.eq_real_of_toNat?_eq_none hc
      exact kind_add_of_toNat?_eq_none _ _ hx

/-- **The layout of a rebuilt store** is the widest need of its counts: `Empty` without
counts, floats as soon as one count is not whole. -/
theorem layout_ofCounts (cs : List Count) :
    (ofCounts cs).layout = Layout.widest (cs.map Count.need) := by
  cases cs with
  | nil => rfl
  | cons c cs =>
    rw [ofCounts_eq, layout_of_pos (by simp)]
    by_cases hnot : ∃ c' ∈ c :: cs, c'.toNat? = none
    · -- a count that is not whole needs floats, the widest layout
      obtain ⟨c', hc', hnone⟩ := hnot
      rw [kind_ofCountsFrom_of_not_whole (Nat.le_refl _) ⟨c', hc', hnone⟩]
      refine (Layout.eq_real_of_real_le ?_).symm
      rw [← Count.need_of_toNat?_eq_none hnone]
      exact Layout.le_widest (List.mem_map_of_mem hc')
    · -- every count's need is at least the narrowest width
      have hu8 : Layout.exact .u8 ≤ Layout.widest ((c :: cs).map Count.need) :=
        le_trans (Count.exact_u8_le_need c) (Layout.le_widest (by simp))
      rw [kind_ofCountsFrom_of_whole (Nat.le_refl _) (Count.whole_of_not_exists hnot),
        max_eq_right hu8]

/-! ### Reading cells -/

theorem length_toList (s : Counts) : s.toList.length = s.size := by
  simp [toList]

theorem getElem_toList {s : Counts} {k : Nat} (hk : k < s.toList.length) :
    s.toList[k] = s.get k := by
  simp [toList]

theorem get_real {cells : Array Float} {k : Nat} (hk : k < cells.size) :
    (real cells).get k = .real cells[k] := by
  simp [get, hk]

theorem toList_real (cells : Array Float) : (real cells).toList = cells.toList.map .real := by
  apply List.ext_getElem (by simp [toList, size])
  intro k h₁ h₂
  rw [getElem_toList, List.getElem_map, Array.getElem_toList,
    get_real (by simpa [length_toList, size] using h₁)]

/-! ### Adding to floats -/

/-- A whole amount lands in a store of floats as its own float. -/
theorem add_real_of_toNat? {cells : Array Float} {i m : Nat} {x : Float} (hi : i < cells.size)
    (hx : x.toNat? = some m) : (real cells).add i x = .real (cells.set i (cells[i] + Float.ofNat m)) := by
  unfold add
  rw [hx]
  dsimp only
  split
  · simp [addCount_eq, hi]
  · next hbig =>
    -- a count past `2 ^ 64` widens to unbounded cells first, which floats already are
    rw [addBig, if_neg hbig, promote_real]
    simp [hi]

theorem add_real_of_toNat?_eq_none {cells : Array Float} {i : Nat} {x : Float}
    (hi : i < cells.size) (hx : x.toNat? = none) :
    (real cells).add i x = .real (cells.set i (cells[i] + x)) := by
  simp [add, hx, promote, kind, hi]

theorem get_real_set {cells : Array Float} {i k : Nat} {y : Float} (hi : i < cells.size)
    (hk : k < cells.size) : (real (cells.set i y hi)).get k = .real (if i = k then y else cells[k]) := by
  rw [get_real (by simpa using hk), Array.getElem_set]

/-- An amount that is not whole moves an exact store to floats: each count becomes its own
float, and the amount is added to the float of its cell. -/
theorem Exact.get_add_of_toNat?_eq_none {s : Counts} {v : List Nat} {i k : Nat} {x : Float}
    (h : s.Exact v) (hi : i < v.length) (hk : k < v.length) (hx : x.toNat? = none) :
    (s.add i x).get k =
      .real (if i = k then Float.ofNat v[i] + x else Float.ofNat v[k]) := by
  obtain ⟨w, cells, fits, rfl, rfl⟩ := h
  -- inside `Exact` the name `add` is the lemma about exact stores
  simp only [Counts.add, hx, promote_exact_real]
  have hi' : i < (cells.map Float.ofNat).size := by simpa using hi
  rw [dif_pos hi', get_real_set hi' (by simpa using hk)]
  simp

theorem kind_add_real (cells : Array Float) (i : Nat) (x : Float) :
    ((real cells).add i x).kind = .real :=
  Layout.eq_real_of_real_le (kind_le_add (real cells) i x)

/-- In a store of floats, adding a float touches only its own cell. -/
theorem get_addValue_real_ne {cells : Array Float} {i k : Nat} {x : Float} (hk : k ≠ i) :
    ((real cells).addValue i (.real x)).get k = (real cells).get k := by
  show ((real cells).add i x).get k = _
  rw [get_add_ne hk, kind_add_real]
  exact congrArg (·.get k) (promote_self (s := real cells))

/-- A float added to a cell that holds `+0.0` reads back as itself, unless it is NaN: a whole
one lands as its own float, any other as the sum with zero. -/
theorem get_addValue_real_self {cells : Array Float} {i : Nat} {x : Float} (hi : i < cells.size)
    (hzero : cells[i] = Float.ofNat 0) (hnan : x.isNaN = false) :
    (((real cells).addValue i (.real x)).get i == .real x) = true := by
  show (((real cells).add i x).get i == .real x) = true
  cases hx : x.toNat? with
  | some m =>
    rw [add_real_of_toNat? hi hx, get_real_set hi hi, if_pos rfl, hzero]
    exact Float.zero_add_ofNat_beq hx
  | none =>
    rw [add_real_of_toNat?_eq_none hi hx, get_real_set hi hi, if_pos rfl, hzero]
    show (Float.ofNat 0 + x == x) = true
    rw [Float.zero_add_beq, hnan]
    rfl

theorem exists_real_of_kind {s : Counts} (h : s.kind = .real) : ∃ cells, s = .real cells := by
  cases s with
  | exact w cells => cases h
  | real cells => exact ⟨cells, rfl⟩

/-! ### Rebuilding a store of floats -/

/-- The invariant of a build from floats once it is in floats: the store of `n` cells holds
the floats `xs` in its first cells, and `+0.0` in every cell still to come. -/
structure HoldsFloats (n : Nat) (xs : List Float) (s : Counts) : Prop where
  kind_eq : s.kind = .real
  get_beq : ∀ k (hk : k < xs.length), (s.get k == .real xs[k]) = true
  get_rest : ∀ k, xs.length ≤ k → k < n → s.get k = .real (Float.ofNat 0)

section HoldsFloats

variable {n : Nat} {xs : List Float} {x : Float}

/-- A build already in floats adds the next float to a cell of `+0.0`. -/
theorem HoldsFloats.addValue {s : Counts} (h : HoldsFloats n xs s) (hlt : xs.length < n)
    (hsize : s.size = n) (hxnan : x.isNaN = false) :
    HoldsFloats n (xs ++ [x]) (s.addValue xs.length (.real x)) := by
  obtain ⟨cells, rfl⟩ := exists_real_of_kind h.kind_eq
  have hi : xs.length < cells.size := by rw [← hsize] at hlt; exact hlt
  have hcell : cells[xs.length] = Float.ofNat 0 := by
    have h0 := h.get_rest xs.length (Nat.le_refl _) hlt
    rw [get_real hi] at h0
    exact Count.real.inj h0
  refine ⟨kind_add_real cells xs.length x, fun k hk => ?_, fun k hk hkn => ?_⟩
  · rcases Nat.lt_succ_iff_lt_or_eq.mp (by simpa using hk) with hk | rfl
    · rw [get_addValue_real_ne (Nat.ne_of_lt hk), List.getElem_append_left hk]
      exact h.get_beq k hk
    · simpa using get_addValue_real_self hi hcell hxnan
  · rw [get_addValue_real_ne (by simp at hk; omega)]
    exact h.get_rest k (by simp at hk; omega) hkn

/-- The first float that is not whole moves the build to floats: each whole float before it
becomes its own float again, and it lands in a cell of `+0.0`. -/
theorem Exact.holdsFloats_addValue {s : Counts} (hex : s.Exact (wholeCells n (xs.map .real)))
    (hwhole : ∀ c ∈ xs.map Count.real, c.toNat?.isSome) (hlt : xs.length < n)
    (hx : x.toNat? = none) (hxnan : x.isNaN = false) :
    HoldsFloats n (xs ++ [x]) (s.addValue xs.length (.real x)) := by
  have hcells : (wholeCells n (xs.map .real)).length = n := by simp [wholeCells]
  refine ⟨kind_add_of_toNat?_eq_none _ _ hx, fun k hk => ?_, fun k hk hkn => ?_⟩
  · show ((s.add xs.length x).get k == _) = true
    rw [hex.get_add_of_toNat?_eq_none (by rw [hcells]; exact hlt)
      (by rw [hcells]; simp at hk; omega) hx]
    rcases Nat.lt_succ_iff_lt_or_eq.mp (by simpa using hk) with hk | rfl
    · -- a whole float before it, moved to its own float
      obtain ⟨m, hm⟩ := Option.isSome_iff_exists.mp (hwhole _ (List.getElem_mem (by simpa using hk)))
      rw [if_neg (Nat.ne_of_gt hk), getElem_wholeCells _ (by simpa using hk)]
      simp only [List.getElem_map] at hm
      simp only [List.getElem_map, hm, Option.getD_some, List.getElem_append_left hk]
      exact Float.ofNat_beq_of_toNat? hm
    · rw [if_pos rfl, getElem_wholeCells_of_le _ (by simp)]
      show (Float.ofNat 0 + x == (xs ++ [x])[xs.length]) = true
      simp only [List.getElem_concat_length, Float.zero_add_beq, hxnan, Bool.not_false]
  · show (s.add xs.length x).get k = _
    rw [hex.get_add_of_toNat?_eq_none (by rw [hcells]; exact hlt) (by rw [hcells]; exact hkn) hx,
      if_neg (by simp at hk; omega), getElem_wholeCells_of_le _ (by simp at hk ⊢; omega)]

/-- **Floats rebuild cell by cell.** Build from floats that are not NaN, one of which is not
whole: the store is in floats, each cell built so far equals its float, and the cells still
to come hold `+0.0`. -/
theorem ofCountsFrom_reals (hlen : xs.length ≤ n) (hnan : ∀ x ∈ xs, x.isNaN = false)
    (hfrac : ∃ x ∈ xs, x.toNat? = none) : HoldsFloats n xs (ofCountsFrom n (xs.map .real)) := by
  -- induction on the floats from the right; the build stays exact until the first float that
  -- is not whole, and holds floats from there on
  induction xs using List.reverseRecOn with
  | nil => simp at hfrac
  | append_singleton xs x ih =>
    have hlt : xs.length < n := by simp at hlen; omega
    have hxnan : x.isNaN = false := hnan x (by simp)
    rw [List.map_append, List.map_singleton, ofCountsFrom_concat, List.length_map]
    by_cases hprev : ∃ y ∈ xs, y.toNat? = none
    · exact (ih (by omega) (fun y hy => hnan y (by simp [hy])) hprev).addValue hlt
        (size_ofCountsFrom n _) hxnan
    · have hwhole : ∀ c ∈ xs.map Count.real, c.toNat?.isSome :=
        Count.whole_of_not_exists fun ⟨c, hc, hnone⟩ => by
          obtain ⟨y, hy, rfl⟩ := List.mem_map.mp hc
          exact hprev ⟨y, hy, hnone⟩
      have hx : x.toNat? = none := by
        obtain ⟨y, hy, hyn⟩ := hfrac
        rcases List.mem_append.mp hy with hy | hy
        · exact absurd ⟨y, hy, hyn⟩ hprev
        · simpa [List.mem_singleton.mp hy] using hyn
      exact (exact_ofCountsFrom (by simpa using Nat.le_of_lt hlt) hwhole).holdsFloats_addValue
        hwhole hlt hx hxnan

end HoldsFloats

/-! ### Reading back and rebuilding -/

/-- **While no count needs floats, each cell reads back as its count.** -/
theorem get_ofCounts_beq {cs : List Count} (hlayout : (ofCounts cs).layout ≠ .real) {i : Nat}
    (hi : i < cs.length) : ((ofCounts cs).get i == cs[i]) = true := by
  have hpos : 0 < (ofCounts cs).size := by
    rw [ofCounts_eq, size_ofCountsFrom]
    omega
  rw [layout_of_pos hpos, ofCounts_eq] at hlayout
  -- a count that is not whole would have moved the store to floats
  have hwhole := Count.whole_of_not_exists fun hnot =>
    hlayout (kind_ofCountsFrom_of_not_whole (Nat.le_refl _) hnot)
  exact get_ofCountsFrom_beq (Nat.le_refl _) hwhole hi

/-- A store of integer cells holds the counts of its cells; the width that holds them comes
with the store. -/
theorem exact_toList (w : Width) (cells : Array Nat) (fits : w.HoldsAll cells) :
    (exact w cells fits).Exact cells.toList :=
  ⟨w, cells, fits, rfl, rfl⟩

theorem size_ofCounts_toList {s : Counts} : (ofCounts s.toList).size = s.size := by
  rw [ofCounts_eq, size_ofCountsFrom, length_toList]

section Exact

variable {s : Counts} {v : List Nat}

theorem Exact.wholeCells_toList (h : s.Exact v) : wholeCells s.toList.length s.toList = v := by
  apply List.ext_getElem (by simp [wholeCells, length_toList, h.size_eq])
  intro k h₁ h₂
  have hk : k < s.toList.length := by simpa [length_toList, h.size_eq] using h₂
  rw [getElem_wholeCells h₁ hk, getElem_toList, h.toNat?_get h₂, Option.getD_some]

/-- Rebuilding an integer store from its counts gives an equal store, no wider. -/
theorem Exact.ofCounts_toList (h : s.Exact v) :
    (ofCounts s.toList == s) = true ∧ (ofCounts s.toList).layout ≤ s.layout := by
  have hwhole : ∀ c ∈ s.toList, c.toNat?.isSome := by
    intro c hc
    obtain ⟨k, hk, rfl⟩ := List.getElem_of_mem hc
    rw [getElem_toList, h.toNat?_get (by simpa [length_toList, h.size_eq] using hk)]
    rfl
  have hex : (ofCounts s.toList).Exact v := by
    have hfrom := exact_ofCountsFrom (Nat.le_refl _) hwhole
    rwa [h.wholeCells_toList, ← ofCounts_eq] at hfrom
  refine ⟨hex.beq_of_exact h, layout_le_of_kind_le size_ofCounts_toList.symm ?_⟩
  -- every count's need lies within the store's width
  obtain ⟨w, cells, fits, rfl, rfl⟩ := id h
  rw [ofCounts_eq, kind_ofCountsFrom_of_whole (Nat.le_refl _) hwhole]
  refine max_le (Layout.exact_le_exact.mpr (Width.le_iff_rank_le.mpr (Nat.zero_le _)))
    (Layout.widest_le fun l hl => ?_)
  obtain ⟨c, hc, rfl⟩ := List.mem_map.mp hl
  obtain ⟨k, hk, rfl⟩ := List.getElem_of_mem hc
  have hkv : k < cells.toList.length := by simpa [length_toList, size] using hk
  rw [getElem_toList, Count.need_of_toNat? (h.toNat?_get hkv)]
  exact h.forCount_le_kind (List.getElem_mem _)

end Exact

/-- Rebuilding a store of floats without NaN from its counts gives an equal store. -/
theorem ofCounts_toList_real {cells : Array Float} (hnan : ∀ x ∈ cells.toList, x.isNaN = false) :
    (ofCounts (real cells).toList == real cells) = true := by
  rw [toList_real, ofCounts_eq, List.length_map]
  have hsize : (ofCountsFrom cells.toList.length (cells.toList.map Count.real)).size =
      (real cells).size := by rw [size_ofCountsFrom, Array.length_toList]; rfl
  apply beq_of_get hsize
  intro k hk
  have hk' : k < cells.size := by rwa [size_ofCountsFrom, Array.length_toList] at hk
  rw [get_real hk']
  by_cases hfrac : ∃ x ∈ cells.toList, x.toNat? = none
  · have hget := (ofCountsFrom_reals (Nat.le_refl _) hnan hfrac).get_beq k (by simpa using hk')
    rwa [Array.getElem_toList] at hget
  · -- every float is whole: the rebuild holds their values as integers
    have hwhole : ∀ c ∈ cells.toList.map Count.real, c.toNat?.isSome :=
      Count.whole_of_not_exists fun ⟨c, hc, hnone⟩ => by
        obtain ⟨x, hx, rfl⟩ := List.mem_map.mp hc
        exact hfrac ⟨x, hx, hnone⟩
    have hget := get_ofCountsFrom_beq (n := cells.toList.length) (by simp) hwhole (k := k)
      (by simpa using hk')
    rwa [List.getElem_map, Array.getElem_toList] at hget

/-- **Rebuilding a store from its counts loses nothing.** A store with no NaN cell is equal to
the store rebuilt from its counts, and the rebuilt store is no wider. -/
theorem ofCounts_toList_beq {s : Counts} (hnan : ∀ c ∈ s.toList, c.isNaN = false) :
    (ofCounts s.toList == s) = true ∧ (ofCounts s.toList).layout ≤ s.layout := by
  cases s with
  | exact w cells fits => exact (exact_toList w cells fits).ofCounts_toList
  | real cells =>
    refine ⟨ofCounts_toList_real fun x hx => ?_, layout_le_of_kind_le size_ofCounts_toList.symm ?_⟩
    · simpa [Count.isNaN] using hnan (.real x) (by rw [toList_real]; exact List.mem_map_of_mem hx)
    · exact Layout.le_real _

end Counts

/-- **Rebuilding a counting store from its counts.** A store built from a list of counts has
one cell per count, and its layout is the widest need of the counts: `Empty` for no counts,
the least width of the largest whole count, floats once a count is not whole. While that
layout is not floats, every cell reads back as its count. Every store with no NaN cell, rebuilt
from its own counts, is equal to it and no wider. -/
theorem Counts.ofCounts_rebuilds :
    (∀ cs : List Count, (Counts.ofCounts cs).size = cs.length) ∧
    (∀ cs : List Count, (Counts.ofCounts cs).layout = Layout.widest (cs.map Count.need)) ∧
    (∀ cs : List Count, (Counts.ofCounts cs).layout ≠ .real →
      ∀ i (hi : i < cs.length), ((Counts.ofCounts cs).get i == cs[i]) = true) ∧
    (∀ s : Counts, (∀ c ∈ s.toList, c.isNaN = false) →
      (Counts.ofCounts s.toList == s) = true ∧ (Counts.ofCounts s.toList).layout ≤ s.layout) :=
  ⟨fun cs => Counts.size_ofCountsFrom _ cs, Counts.layout_ofCounts,
    fun _ h _ hi => Counts.get_ofCounts_beq h hi, fun _ hnan => Counts.ofCounts_toList_beq hnan⟩

/-- A 16-bit count beside a whole float rebuilds as a 16-bit store that reads both back;
a store of floats whose second cell is not whole, rebuilt from its counts, is equal to itself:
its first cell is rebuilt as an integer and moved to floats when the second arrives. -/
theorem Counts.ofCounts_rebuilds_floats :
    (Counts.ofCounts [.int 300, .real 2.0]).layout ≠ .real ∧
      ((Counts.ofCounts [.int 300, .real 2.0]).get 1 == .real 2.0) = true ∧
      (∀ c ∈ (Counts.real #[3.0, 0.5]).toList, c.isNaN = false) ∧
      (Counts.ofCounts (Counts.real #[3.0, 0.5]).toList == Counts.real #[3.0, 0.5]) = true ∧
      (Counts.ofCounts (Counts.real #[3.0, 0.5]).toList).layout ≤ (Counts.real #[3.0, 0.5]).layout := by
  have hlayout : (Counts.ofCounts [.int 300, .real 2.0]).layout ≠ .real := by decide
  exact ⟨hlayout, Counts.ofCounts_rebuilds.2.2.1 _ hlayout 1 (by decide), by decide,
    Counts.ofCounts_rebuilds.2.2.2 _ (by decide)⟩

end Histograms
