import Histograms.Counts.Basic
/-!
# Integer counting is exact

A counting store that holds natural numbers (`Counts.exact`) is read as its list of
counts. `Counts.Exact s v` says that `s` holds the counts `v`; its width holds every one
of them, as the width of every store of integer cells does, so the cells a fixed-width
store would have never wrapped. Every
update by a natural amount adds that amount to its cell and nothing else, whatever
widenings it goes through, and a merge adds two such lists cell by cell.

A float amount counts here when it is a whole float not below zero (`-0.0`
included); `Float.DenotesNat` says so on the exact value of its bits, and
`Float.toNat?_eq_some_iff` shows that the store's own reading agrees with it.

Main statements:

* `Counts.Exact.addCount`, `Counts.Exact.addBig`, `Counts.Exact.add`,
  `Counts.Exact.addValue` — one update through the list of counts.
* `Counts.Exact.merge` — merging adds the counts of the other store cell by cell.
* `Counts.Exact.run` — a run of such updates from `Counts.new` reads back the
  counts that plain addition on natural numbers gives.
-/

namespace Histograms.Binary64

/-! ### Whole floats -/

theorem wholePart_eq_iff {mant n : Nat} {exp : Int} :
    (IsWhole mant exp ∧ wholePart mant exp = n) ↔ mant * 2 ^ exp.toNat = n * 2 ^ (-exp).toNat := by
  by_cases hexp : 0 ≤ exp
  · have hneg : (-exp).toNat = 0 := by omega
    simp only [IsWhole, hexp, true_or, wholePart_of_nonneg hexp, true_and, hneg, Nat.pow_zero,
      Nat.mul_one]
  · have hpos : exp.toNat = 0 := by omega
    have hpow : 0 < 2 ^ (-exp).toNat := Nat.two_pow_pos _
    simp only [IsWhole, hexp, false_or, wholePart, ↓reduceIte, hpos, Nat.pow_zero, Nat.mul_one]
    constructor
    · rintro ⟨hdvd, rfl⟩
      exact (Nat.div_mul_cancel (Nat.dvd_of_mod_eq_zero hdvd)).symm
    · intro h
      subst h
      exact ⟨Nat.mul_mod_left _ _, Nat.mul_div_cancel _ hpow⟩

end Histograms.Binary64

open Histograms Histograms.Binary64

/-- `x` is finite, not below zero, and its exact value `mant * 2 ^ exp` is `n`; the equation
is cross-multiplied so that both sides stay natural numbers. `-0.0` denotes `0`. -/
def Float.DenotesNat (x : Float) (n : Nat) : Prop :=
  ∃ negative mant exp, ofFloat x = .finite negative mant exp ∧
    (negative = false ∨ mant = 0) ∧ mant * 2 ^ exp.toNat = n * 2 ^ (-exp).toNat

/-- The store's reading of a float as a count is exact: it gives `n` precisely when the
float is whole, not below zero, and worth `n`. -/
theorem Float.toNat?_eq_some_iff {x : Float} {n : Nat} : x.toNat? = some n ↔ x.DenotesNat n := by
  unfold Float.toNat? Float.DenotesNat
  cases ofFloat x with
  | nan => simp
  | infinite negative => simp
  | finite negative mant exp =>
    constructor
    · intro h
      dsimp only at h
      split at h
      · next hcond =>
        obtain ⟨hwhole, hsign⟩ := hcond
        exact ⟨negative, mant, exp, rfl, hsign, wholePart_eq_iff.mp ⟨hwhole, Option.some.inj h⟩⟩
      · cases h
    · rintro ⟨negative', mant', exp', heq, hsign, hval⟩
      cases heq
      obtain ⟨hwhole, hval⟩ := wholePart_eq_iff.mpr hval
      dsimp only
      rw [if_pos ⟨hwhole, hsign⟩, hval]

namespace Histograms


/-! ### Stores of exact counts -/

theorem List.modify_eq_set_of_lt {v : List Nat} {i : Nat} (f : Nat → Nat) (hi : i < v.length) :
    v.modify i f = v.set i (f v[i]) := by
  rw [List.modify_eq_set, List.getElem?_eq_getElem hi, Option.getD_some]

namespace Counts

/-- `s` holds the natural numbers `v`, one per cell; its width holds each of them, as every
store of integer cells does. -/
def Exact (s : Counts) (v : List Nat) : Prop :=
  ∃ w cells, ∃ fits : w.HoldsAll cells, s = .exact w cells fits ∧ cells.toList = v

variable {s : Counts} {v : List Nat} {i : Nat}

theorem exact_new (n : Nat) : (new n).Exact (List.replicate n 0) :=
  ⟨.u8, _, _, rfl, by simp⟩

theorem Exact.size_eq (h : s.Exact v) : s.size = v.length := by
  obtain ⟨w, cells, fits, rfl, rfl⟩ := h
  simp [size]

/-- A cell of an exact store reads as its count, tagged `big` in an unbounded store. -/
theorem Exact.get_eq (h : s.Exact v) (hi : i < v.length) :
    s.get i = .int v[i] ∨ s.get i = .big v[i] := by
  obtain ⟨w, cells, fits, rfl, rfl⟩ := h
  have hcell : cells.getD i 0 = cells.toList[i] := by
    have : i < cells.size := by simpa using hi
    simp [this]
  simp only [get, hcell]
  split
  · exact .inr rfl
  · exact .inl rfl

/-- A cell of an exact store reads as the whole number of its count. -/
theorem Exact.toNat?_get (h : s.Exact v) (hi : i < v.length) : (s.get i).toNat? = some v[i] := by
  rcases h.get_eq hi with hget | hget <;> rw [hget] <;> rfl

/-- Widening to a width keeps an exact store exact, with the same counts. -/
theorem Exact.promote (h : s.Exact v) (w : Width) : (s.promote (.exact w)).Exact v := by
  obtain ⟨w₀, cells, fits, rfl, rfl⟩ := h
  unfold Counts.promote
  split
  · exact ⟨w₀, cells, fits, rfl, rfl⟩
  · exact ⟨w, cells, _, rfl, rfl⟩

/-- Adding to a cell of an exact store, at whatever width holds the new counts. -/
theorem exact_set {w : Width} {cells : Array Nat} (hi : i < cells.size) (a : Nat)
    (fits : w.HoldsAll (cells.set i (cells[i] + a))) :
    (Counts.exact w (cells.set i (cells[i] + a)) fits).Exact (cells.toList.modify i (· + a)) := by
  have hi' : i < cells.toList.length := by simpa using hi
  exact ⟨w, _, fits, rfl, by rw [Array.toList_set, List.modify_eq_set_of_lt _ hi']; rfl⟩

theorem Exact.addCount (h : s.Exact v) (hi : i < v.length) (a : Nat) :
    (s.addCount i a).Exact (v.modify i (· + a)) := by
  obtain ⟨w, cells, fits, rfl, rfl⟩ := h
  have hi' : i < cells.size := by simpa using hi
  simp only [Counts.addCount_eq, hi', ↓reduceDIte]
  exact exact_set hi' a _

/-- Widening integer cells to unbounded ones gives unbounded cells. -/
theorem eq_big_of_promote_big (s : Counts) {w : Width} {cells : Array Nat}
    {fits : w.HoldsAll cells} (hp : s.promote (.exact .big) = .exact w cells fits) : w = .big := by
  cases s with
  | real c => simp [Counts.promote, kind, Layout.rank, Width.rank] at hp
  | exact v c f =>
    unfold Counts.promote at hp
    split at hp
    · next hle =>
      -- only the unbounded width is not below the unbounded width
      cases v <;> simp_all [kind, Layout.rank, Width.rank]
    · cases hp
      rfl

/-- Widening an exact store to unbounded cells. -/
theorem Exact.promote_big (h : s.Exact v) :
    ∃ cells fits, s.promote (.exact .big) = .exact .big cells fits ∧ cells.toList = v := by
  obtain ⟨w, cells, fits, hs, rfl⟩ := h.promote .big
  obtain rfl := eq_big_of_promote_big s hs
  exact ⟨cells, fits, hs, rfl⟩

theorem Exact.addBig (h : s.Exact v) (hi : i < v.length) (a : Nat) :
    (s.addBig i a).Exact (v.modify i (· + a)) := by
  unfold Counts.addBig
  split
  · exact h.addCount hi a
  · obtain ⟨cells, fits, hs, rfl⟩ := h.promote_big
    have hi' : i < cells.size := by simpa using hi
    simp only [hs, hi', ↓reduceDIte]
    exact exact_set hi' a _

theorem Exact.add (h : s.Exact v) (hi : i < v.length) {x : Float} {n : Nat}
    (hx : x.DenotesNat n) : (s.add i x).Exact (v.modify i (· + n)) := by
  unfold Counts.add
  rw [Float.toNat?_eq_some_iff.mpr hx]
  dsimp only
  split
  · exact h.addCount hi n
  · exact h.addBig hi n

end Counts

/-- The count is worth the natural number `n`: an integer count its number, a float count
when it is a whole float not below zero worth `n`. -/
def Count.DenotesNat : Count → Nat → Prop
  | .int m, n => m = n
  | .big m, n => m = n
  | .real x, n => x.DenotesNat n

namespace Counts

variable {s : Counts} {v : List Nat} {i : Nat}

theorem Exact.addValue (h : s.Exact v) (hi : i < v.length) {c : Count} {n : Nat}
    (hc : c.DenotesNat n) : (s.addValue i c).Exact (v.modify i (· + n)) := by
  cases c with
  | int m =>
    subst hc
    exact h.addCount hi m
  | big m =>
    subst hc
    exact h.addBig hi m
  | real x => exact h.add hi hc

/-! ### Merging exact stores -/

theorem merge_of_size_ne {t : Counts} (h : s.size ≠ t.size) :
    s.merge t = .error (.storageSize t.size s.size) := by
  simp [merge, h]

/-- The counts `v` with the first `k` counts of `u` added cell by cell. -/
def addedUpTo (v u : List Nat) (k : Nat) : List Nat :=
  (List.range v.length).map fun j => v.getD j 0 + if j < k then u.getD j 0 else 0

theorem addedUpTo_zero (v u : List Nat) : addedUpTo v u 0 = v := by
  apply List.ext_getElem
  · simp [addedUpTo]
  · intro j h₁ h₂
    simp [addedUpTo, List.getD_eq_getElem?_getD, List.getElem?_eq_getElem h₂]

theorem length_addedUpTo (v u : List Nat) (k : Nat) : (addedUpTo v u k).length = v.length := by
  simp [addedUpTo]

theorem addedUpTo_succ (v u : List Nat) (k : Nat) :
    (addedUpTo v u k).modify k (· + u.getD k 0) = addedUpTo v u (k + 1) := by
  apply List.ext_getElem
  · simp [addedUpTo]
  · intro j h₁ h₂
    simp only [List.getElem_modify, addedUpTo, List.getElem_map, List.getElem_range]
    split
    · next hj => subst hj; simp
    · next hj =>
      have : (j < k + 1) = (j < k) := propext (by omega)
      simp [this]

theorem addedUpTo_length {v u : List Nat} (hlen : u.length = v.length) :
    addedUpTo v u v.length = List.zipWith (· + ·) v u := by
  apply List.ext_getElem
  · simp [addedUpTo, hlen]
  · intro j h₁ h₂
    simp only [length_addedUpTo] at h₁
    simp [addedUpTo, h₁, List.getD_eq_getElem?_getD,
      List.getElem?_eq_getElem (hlen ▸ h₁ : j < u.length)]

/-- The merge loop after its first `k` cells: the first `k` counts of `t` are added. -/
theorem Exact.merge_loop {t : Counts} {u : List Nat} (h : s.Exact v) (ht : t.Exact u)
    (hlen : u.length = v.length) (k : Nat) (hk : k ≤ v.length) :
    ((List.range k).foldl
      (fun acc i => let c := t.get i; if c.isZero then acc else acc.addValue i c) s).Exact
      (addedUpTo v u k) := by
  induction k with
  | zero => simpa [addedUpTo_zero] using h
  | succ k ih =>
    have hk' : k < v.length := by omega
    have hku : k < u.length := by omega
    have hget : u.getD k 0 = u[k] := by simp [List.getD_eq_getElem?_getD, hku]
    rw [List.range_succ, List.foldl_append, List.foldl_cons, List.foldl_nil, ← addedUpTo_succ, hget]
    generalize List.foldl _ s (List.range k) = acc at ih ⊢
    have hacc := ih (by omega)
    have hlen' : k < (addedUpTo v u k).length := by rw [length_addedUpTo]; exact hk'
    dsimp only
    -- cell `k` of `t` reads as `u[k]`; a zero cell is skipped, any other is added
    have hskip : u[k] = 0 → acc.Exact ((addedUpTo v u k).modify k (· + u[k])) := by
      intro h0
      have hid : (addedUpTo v u k).modify k (· + 0) = addedUpTo v u k := List.modify_id k _
      rw [h0, hid]
      exact hacc
    rcases ht.get_eq hku with hc | hc <;> rw [hc] <;> simp only [Count.isZero, beq_iff_eq] <;> split
    · next h0 => exact hskip h0
    · exact hacc.addValue hlen' rfl
    · next h0 => exact hskip h0
    · exact hacc.addValue hlen' rfl

theorem Exact.merge {t : Counts} {u : List Nat} (h : s.Exact v) (ht : t.Exact u)
    (hlen : u.length = v.length) :
    ∃ r, s.merge t = .ok r ∧ r.Exact (List.zipWith (· + ·) v u) := by
  obtain ⟨wt, cells, fits, rfl, rfl⟩ := id ht
  have hsize : (Counts.exact wt cells fits).size = v.length := by simpa [size] using hlen
  have hsz : ¬ (s.size ≠ (Counts.exact wt cells fits).size) := by
    rw [h.size_eq, hsize]
    exact fun hne => hne rfl
  unfold Counts.merge
  rw [if_neg hsz]
  refine ⟨_, rfl, ?_⟩
  rw [← addedUpTo_length hlen, hsize]
  exact (h.promote wt).merge_loop ht hlen _ (Nat.le_refl _)

/-! ### Runs of updates -/

/-- One update of a counting store, with its operands. -/
inductive Op where
  | increment (i : Nat)
  | addCount (i n : Nat)
  | addBig (i n : Nat)
  | add (i : Nat) (x : Float)
  | addValue (i : Nat) (c : Count)
  | merge (t : Counts)

/-- Applies an update; a refused merge leaves the store as it was. -/
def step (s : Counts) : Op → Counts
  | .increment i => s.addCount i 1
  | .addCount i n => s.addCount i n
  | .addBig i n => s.addBig i n
  | .add i x => s.add i x
  | .addValue i c => s.addValue i c
  | .merge t =>
    match s.merge t with
    | .ok r => r
    | .error _ => s

/-- Applies updates in order. -/
def run (s : Counts) (ops : List Op) : Counts := ops.foldl step s

/-- What an update by a natural amount does to the counts `v`: the amount is added to its
cell, and a merge with a store of exact counts `u` adds `u` cell by cell, or changes
nothing when the lengths differ. -/
inductive Op.Adds : List Nat → Op → List Nat → Prop
  | increment {v : List Nat} {i : Nat} : i < v.length →
      Adds v (.increment i) (v.modify i (· + 1))
  | addCount {v : List Nat} {i : Nat} (n : Nat) : i < v.length →
      Adds v (.addCount i n) (v.modify i (· + n))
  | addBig {v : List Nat} {i : Nat} (n : Nat) : i < v.length →
      Adds v (.addBig i n) (v.modify i (· + n))
  | add {v : List Nat} {i : Nat} {x : Float} {n : Nat} : i < v.length → x.DenotesNat n →
      Adds v (.add i x) (v.modify i (· + n))
  | addValue {v : List Nat} {i : Nat} {c : Count} {n : Nat} : i < v.length → c.DenotesNat n →
      Adds v (.addValue i c) (v.modify i (· + n))
  | merge {v : List Nat} {t : Counts} {u : List Nat} : t.Exact u → u.length = v.length →
      Adds v (.merge t) (List.zipWith (· + ·) v u)
  | mergeMismatch {v : List Nat} {t : Counts} {u : List Nat} : t.Exact u → u.length ≠ v.length →
      Adds v (.merge t) v

/-- A run of updates by natural amounts, from the counts `v` to the counts `v'`. -/
inductive Op.Runs : List Nat → List Op → List Nat → Prop
  | nil (v : List Nat) : Runs v [] v
  | cons {v : List Nat} {op : Op} {v' : List Nat} {ops : List Op} {v'' : List Nat} :
      Adds v op v' → Runs v' ops v'' → Runs v (op :: ops) v''

/-- One update keeps a store exact and does to its counts what `Op.Adds` says. -/
theorem Exact.step {op : Op} {v' : List Nat} (h : s.Exact v) (hop : op.Adds v v') :
    (s.step op).Exact v' := by
  cases hop with
  | increment hi => exact h.addCount hi 1
  | addCount n hi => exact h.addCount hi n
  | addBig n hi => exact h.addBig hi n
  | add hi hx => exact h.add hi hx
  | addValue hi hc => exact h.addValue hi hc
  | merge ht hlen =>
    obtain ⟨r, hr, hexact⟩ := h.merge ht hlen
    simp only [Counts.step, hr]
    exact hexact
  | @mergeMismatch t u ht hlen =>
    have hne : s.size ≠ t.size := by rw [h.size_eq, ht.size_eq]; exact fun heq => hlen heq.symm
    simp only [Counts.step, merge_of_size_ne hne]
    exact h

/-- A run keeps a store exact, ending at the counts of the run. -/
theorem Exact.run {ops : List Op} {v' : List Nat} (h : s.Exact v) (hrun : Op.Runs v ops v') :
    (s.run ops).Exact v' := by
  induction hrun generalizing s with
  | nil => exact h
  | cons hop _ ih => exact ih (h.step hop)

/-- **Integer counting is exact.** Every update by a natural amount — a plain count, a
count, an unbounded count, a whole float not below zero, a count value, or a merge with an
exact store — keeps a store exact and adds its amount to its cell only; a merge of stores of
different lengths is refused; and along any run from fresh cells every cell reads as the
natural number that plain addition gives. -/
theorem counting_exact :
    (∀ (s : Counts) (v : List Nat) (op : Op) (v' : List Nat),
      s.Exact v → op.Adds v v' → (s.step op).Exact v') ∧
    (∀ s t : Counts, s.size ≠ t.size → s.merge t = .error (.storageSize t.size s.size)) ∧
    (∀ (n : Nat) (ops : List Op) (v : List Nat), Op.Runs (List.replicate n 0) ops v →
      ((new n).run ops).Exact v ∧
        ∀ i (hi : i < v.length),
          ((new n).run ops).get i = .int v[i] ∨ ((new n).run ops).get i = .big v[i]) :=
  ⟨fun _ _ _ _ h hop => h.step hop, fun _ _ h => merge_of_size_ne h,
    fun n _ _ hrun => ⟨(exact_new n).run hrun, fun _ hi => ((exact_new n).run hrun).get_eq hi⟩⟩

/-- Two fresh cells: `255` and one more in cell `0` climb past 8 bits, and `2 ^ 64` in cell `1`
needs unbounded cells; both cells still read exactly. -/
theorem counting_exact_past_two_rungs :
    ((new 2).run [.addCount 0 255, .increment 0, .addBig 1 (2 ^ 64)]).Exact [256, 2 ^ 64] ∧
      (((new 2).run [.addCount 0 255, .increment 0, .addBig 1 (2 ^ 64)]).get 1 = .int (2 ^ 64) ∨
        ((new 2).run [.addCount 0 255, .increment 0, .addBig 1 (2 ^ 64)]).get 1 = .big (2 ^ 64)) := by
  have hrun : Op.Runs (List.replicate 2 0) [.addCount 0 255, .increment 0, .addBig 1 (2 ^ 64)]
      [256, 2 ^ 64] :=
    .cons (.addCount 255 (by decide)) (.cons (.increment (by decide))
      (.cons (.addBig (2 ^ 64) (by decide)) (.nil _)))
  obtain ⟨hexact, hget⟩ := counting_exact.2.2 2 _ _ hrun
  exact ⟨hexact, hget 1 (by decide)⟩

end Counts

end Histograms
