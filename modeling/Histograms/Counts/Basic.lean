import Histograms.Counts.Count
/-!
# The counting store

A `Counts` store holds either natural numbers at a width (`exact`) or binary64
floats (`real`). Integer cells come with the proof that their width holds each of
them, as the cells of a fixed-width buffer do, so a store whose cells overflow its
width cannot be built; every operation below proves it of the store it returns.
It starts with 8-bit zeros and only ever widens:

* an integer amount that outgrows a cell moves the store to the least width that
  holds the new count; amounts from `2 ^ 64` up move it to unbounded cells;
* a float amount that is a whole number not below zero is added as an integer;
  any other float (negative, fractional, infinite, NaN) moves the store to floats;
* once in floats, integer amounts are added as their nearest floats.

An integer amount is added by attempts in place (`addInPlace`): an attempt that does
not fit names the least width that holds the new count, the store is promoted to it,
and the attempt is made again, which then fits.

Widening keeps every count; widening to floats replaces each count by its nearest
float. Reading a cell outside the store gives zero, and a write outside the store
changes nothing but the widening that came before it.

Main statements:

* `Counts.addCount`, `Counts.addBig`, `Counts.add` and `Counts.addValue` add to one cell;
  `Counts.addCount_eq` says in one step what `addCount` does.
* `Counts.scale` multiplies every cell; a whole factor below `2 ^ 64` keeps integers.
* `Counts.merge` adds a store of the same length cell by cell.
* `Counts.sum` adds all cells into one fresh cell.
-/

namespace Histograms

/-- A store of counts: natural numbers at a width that holds each of them, or floats. -/
inductive Counts where
  | exact (w : Width) (cells : Array Nat) (fits : w.HoldsAll cells)
  | real (cells : Array Float)

namespace Counts

/-- `n` zero cells of 8 bits. -/
def new (n : Nat) : Counts := .exact .u8 (Array.replicate n 0) (Width.holdsAll_replicate_zero _ n)

/-- The number of cells. -/
def size : Counts → Nat
  | .exact _ cells _ => cells.size
  | .real cells => cells.size

/-- The layout of the cells, whatever their number. -/
def kind : Counts → Layout
  | .exact w _ _ => .exact w
  | .real _ => .real

/-- The layout a store reports: `empty` without cells. -/
def layout (s : Counts) : Layout :=
  if s.size = 0 then .empty else s.kind

/-- Cell `i`, or zero outside the store. -/
def get (s : Counts) (i : Nat) : Count :=
  match s with
  | .exact w cells _ => if w = .big then .big (cells.getD i 0) else .int (cells.getD i 0)
  | .real cells => .real (cells.getD i 0.0)

/-- All cells in order. -/
def toList (s : Counts) : List Count :=
  (List.range s.size).map s.get

/-- Widens the store to layout `t`; a layout that is not wider changes nothing. -/
def promote (s : Counts) (t : Layout) : Counts :=
  if h : t.rank ≤ s.kind.rank then s
  else
    match s, t, h with
    | .exact _ cells fits, .exact w, h =>
      .exact w cells (fits.mono (Layout.rank_le_of_not_exact_le h))
    | .exact _ cells _, .real, _ => .real (cells.map Float.ofNat)
    | s, _, _ => s

/-- One attempt at adding the natural number `a` to cell `i` where it stands. An integer cell
takes the sum when its width holds it; otherwise nothing changes and the attempt names the
layout the sum needs, the least width that holds it. Unbounded and float cells take any
amount, and outside the store there is no cell to add to. -/
def addInPlace (s : Counts) (i a : Nat) : Except Layout Counts :=
  match s with
  | .exact w cells fits =>
    if h : i < cells.size then
      let sum := cells[i] + a
      if hsum : w.Holds sum then .ok (.exact w (cells.set i sum) (fits.set h hsum))
      else .error (.exact (Width.forCount sum))
    else .ok s
  | .real cells =>
    if h : i < cells.size then .ok (.real (cells.set i (cells[i] + Float.ofNat a))) else .ok s

/-- Adds `a` to cell `i` by attempts in place: when an attempt names a layout, the store is
promoted to it and the attempt is made again. At most `rungs` promotions are made, so the
recursion is structural and the function evaluates; `addCount` allows one per rung of the
ladder above the store, of which it never uses more than one. -/
def addCountWithin (s : Counts) (i a rungs : Nat) : Counts :=
  match s.addInPlace i a with
  | .ok t => t
  | .error need =>
    match rungs with
    | 0 => s
    | rungs + 1 => (s.promote need).addCountWithin i a rungs

/-- Adds the natural number `a` to cell `i`, widening integer cells to the least width
that holds the new count. -/
def addCount (s : Counts) (i a : Nat) : Counts :=
  s.addCountWithin i a (6 - s.kind.rank)

/-- Adds a natural number of any size to cell `i`: below `2 ^ 64` as `addCount`, from
there on after widening to unbounded cells (integer cells are unbounded once widened). -/
def addBig (s : Counts) (i a : Nat) : Counts :=
  if a < 2 ^ 64 then s.addCount i a
  else
    match s.promote (.exact .big) with
    | .exact _ cells _ =>
      if h : i < cells.size then .exact .big (cells.set i (cells[i] + a)) (Width.holdsAll_big _)
      else .exact .big cells (Width.holdsAll_big _)
    | .real cells =>
      if h : i < cells.size then .real (cells.set i (cells[i] + Float.ofNat a)) else .real cells

/-- Adds a float to cell `i`: a whole number not below zero is added exactly, anything
else after widening to floats. -/
def add (s : Counts) (i : Nat) (x : Float) : Counts :=
  match x.toNat? with
  | some n => if n < 2 ^ 64 then s.addCount i n else s.addBig i n
  | none =>
    match s.promote .real with
    | .real cells => if h : i < cells.size then .real (cells.set i (cells[i] + x)) else .real cells
    | t => t

/-- Adds a count to cell `i`. -/
def addValue (s : Counts) (i : Nat) : Count → Counts
  | .int n => s.addCount i n
  | .big n => s.addBig i n
  | .real x => s.add i x

/-- Multiplies every cell by the natural number `k`: the store first widens to hold
the largest cell times `k`. -/
def scaleCount (s : Counts) (k : Nat) : Counts :=
  let top := match s with
    | .exact w cells _ => if w = .big then 0 else cells.foldl max 0
    | .real _ => 0
  match s.promote (.exact (Width.forCount (top * k))) with
  | .exact w cells fits =>
    .exact w (cells.map fun n => if w.Holds (n * k) then n * k else n) (fits.map_of_holds (· * k))
  | .real cells => .real (cells.map (· * Float.ofNat k))

/-- Multiplies every cell by a float after widening to floats. -/
def scaleReal (s : Counts) (f : Float) : Counts :=
  match s.promote .real with
  | .real cells => .real (cells.map (· * f))
  | t => t

/-- Multiplies every cell by `f`. A whole factor not below zero and below `2 ^ 64` keeps
integer cells; any other factor moves the store to floats. -/
def scale (s : Counts) (f : Float) : Counts :=
  match f.toNat? with
  | some k => if k < 2 ^ 64 then s.scaleCount k else s.scaleReal f
  | none => s.scaleReal f

/-- Adds the cells of `t` to those of `s`: `s` first widens to the layout of `t`, then
every non-zero cell of `t` is added to its cell of `s`. Stores of different lengths
are refused. -/
def merge (s t : Counts) : Except HistError Counts :=
  if s.size ≠ t.size then .error (.storageSize t.size s.size)
  else
    .ok ((List.range t.size).foldl
      (fun acc i => let c := t.get i; if c.isZero then acc else acc.addValue i c)
      (s.promote t.kind))

/-- A store of the given counts, each added to a zero cell in turn. -/
def ofCounts (cs : List Count) : Counts :=
  (cs.zipIdx.foldl (fun s p => s.addValue p.2 p.1) (new cs.length))

/-- The sum of all cells, added one by one into a fresh one-cell store. -/
def sum (s : Counts) : Count :=
  ((List.range s.size).foldl (fun acc i => acc.addValue 0 (s.get i)) (new 1)).get 0

/-- Equality by value: the same length and equal counts cell by cell. -/
protected def beq (s t : Counts) : Bool :=
  s.size == t.size && (List.range s.size).all fun i => s.get i == t.get i

instance : BEq Counts := ⟨Counts.beq⟩

theorem size_new (n : Nat) : (new n).size = n := by
  simp [new, size]

/-- Integer stores are equal when their widths and cells are: the proof that the cells fit
plays no part. -/
theorem exact_congr {w w' : Width} {cells cells' : Array Nat} {fits : w.HoldsAll cells}
    {fits' : w'.HoldsAll cells'} (hw : w = w') (hcells : cells = cells') :
    exact w cells fits = exact w' cells' fits' := by
  subst hw hcells
  rfl

/-! ### Adding in place -/

section AddInPlace

variable {w : Width} {cells : Array Nat} {fits : w.HoldsAll cells} {i a : Nat}

theorem addInPlace_exact_of_holds (hi : i < cells.size) (h : w.Holds (cells[i] + a)) :
    (exact w cells fits).addInPlace i a =
      .ok (exact w (cells.set i (cells[i] + a)) (fits.set hi h)) := by
  simp [addInPlace, hi, h]

theorem addInPlace_exact_of_not_holds (hi : i < cells.size) (h : ¬ w.Holds (cells[i] + a)) :
    (exact w cells fits).addInPlace i a = .error (.exact (Width.forCount (cells[i] + a))) := by
  simp [addInPlace, hi, h]

/-- Promoting integer cells to a wider width relabels them. -/
theorem promote_exact_of_rank_lt {v : Width} (h : w.rank < v.rank) :
    (exact w cells fits).promote (.exact v) = exact v cells (fits.mono (Nat.le_of_lt h)) := by
  simp [promote, kind, Layout.rank, Nat.not_le.mpr h]

theorem addCountWithin_of_ok {s t : Counts} (h : s.addInPlace i a = .ok t) (rungs : Nat) :
    s.addCountWithin i a rungs = t := by
  rw [addCountWithin, h]

theorem addCountWithin_of_error {s : Counts} {need : Layout} (h : s.addInPlace i a = .error need)
    (rungs : Nat) :
    s.addCountWithin i a (rungs + 1) = (s.promote need).addCountWithin i a rungs := by
  rw [addCountWithin, h]

/-- A cell whose width is too narrow for the sum: the attempt names the least width that holds
it, the store is promoted there, and the second attempt takes the sum. -/
theorem addCountWithin_of_not_holds (hi : i < cells.size) (h : ¬ w.Holds (cells[i] + a))
    (rungs : Nat) :
    (exact w cells fits).addCountWithin i a (rungs + 1) =
      exact (Width.forCount (cells[i] + a)) (cells.set i (cells[i] + a))
        (fits.set_forCount hi h) := by
  rw [addCountWithin_of_error (addInPlace_exact_of_not_holds hi h),
    promote_exact_of_rank_lt (Width.rank_lt_forCount h)]
  exact addCountWithin_of_ok (addInPlace_exact_of_holds hi (Width.holds_forCount _)) rungs

/-- The rungs above integer cells whose width is too narrow for some count: at least one. -/
theorem rungs_of_not_holds {n : Nat} (h : ¬ w.Holds n) :
    6 - (exact w cells fits).kind.rank = (4 - w.rank) + 1 := by
  cases w <;> simp_all [kind, Layout.rank, Width.rank, Width.Holds, Width.limit]

/-- An addition too large for its cell's width: one promotion, to the least width that holds
the sum, and the sum in place. -/
theorem addCount_of_not_holds (hi : i < cells.size) (h : ¬ w.Holds (cells[i] + a)) :
    (exact w cells fits).addCount i a =
      exact (Width.forCount (cells[i] + a)) (cells.set i (cells[i] + a))
        (fits.set_forCount hi h) := by
  rw [addCount, rungs_of_not_holds h, addCountWithin_of_not_holds hi h]

end AddInPlace

/-- What an addition does, in one step: an integer cell takes the sum and the store widens to
the least width that holds it if its own does not; a float cell adds the amount's float. -/
theorem addCount_eq (s : Counts) (i a : Nat) : s.addCount i a =
    match s with
    | .exact w cells fits =>
      if h : i < cells.size then
        let sum := cells[i] + a
        .exact (if w.Holds sum then w else Width.forCount sum) (cells.set i sum)
          (fits.set_after h sum)
      else s
    | .real cells =>
      if h : i < cells.size then .real (cells.set i (cells[i] + Float.ofNat a)) else s := by
  cases s with
  | real cells => exact addCountWithin_of_ok (by simp only [addInPlace]; split <;> rfl) _
  | exact w cells fits =>
    by_cases hi : i < cells.size
    · simp only [hi, ↓reduceDIte]
      by_cases hw : w.Holds (cells[i] + a)
      -- the width is rewritten under the proof that the cells fit it, which `simp` carries along
      · simp only [if_pos hw]
        exact addCountWithin_of_ok (addInPlace_exact_of_holds hi hw) _
      · simp only [if_neg hw]
        exact addCount_of_not_holds hi hw
    · simp only [hi, ↓reduceDIte]
      exact addCountWithin_of_ok (by simp [addInPlace, hi]) _

end Counts

end Histograms
