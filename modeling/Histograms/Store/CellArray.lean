import Histograms.Store.Basic
import Histograms.Cell.Basic
/-!
# Fixed-capacity stores of cells

A `CellArray α capacity` has room for `capacity` cells, of which the first `len`
are in use. Resetting to more than `capacity` cells is refused and changes
nothing; a reset that succeeds empties every cell, so cells past `len` stay empty.
Fills, merges, scaling and equality look at the cells in use only.
-/

namespace Histograms

/-- A store with room for `capacity` cells, the first `len` of them in use. -/
structure CellArray (α : Type) (capacity : Nat) where
  cells : Vector α capacity
  len : Nat
  len_le : len ≤ capacity

namespace CellArray

variable {α : Type} [Cell α] {capacity : Nat}

/-- All cells empty, none in use. -/
def new : CellArray α capacity := ⟨Vector.replicate capacity Cell.empty, 0, Nat.zero_le _⟩

/-- The cells in use. -/
def used (s : CellArray α capacity) : List α := s.cells.toList.take s.len

/-- Updates cell `i` in use, unless `f` refuses it; outside them nothing changes. -/
def update (s : CellArray α capacity) (i : Nat) (f : α → Except HistError α) :
    Updated (CellArray α capacity) :=
  if h : i < s.len then
    match f (s.cells.get ⟨i, Nat.lt_of_lt_of_le h s.len_le⟩) with
    | .ok c => (⟨s.cells.set i c (Nat.lt_of_lt_of_le h s.len_le), s.len, s.len_le⟩, none)
    | .error e => (s, some e)
  else (s, none)

/-- Replaces cell `i` in use; outside them nothing changes. -/
def set (s : CellArray α capacity) (i : Nat) (c : α) : CellArray α capacity :=
  if h : i < s.len then ⟨s.cells.set i c (Nat.lt_of_lt_of_le h s.len_le), s.len, s.len_le⟩
  else s

/-- Applies `f` to every cell in use. -/
def mapUsed (s : CellArray α capacity) (f : Nat → α → α) : CellArray α capacity :=
  ⟨Vector.ofFn fun k => if k.val < s.len then f k.val (s.cells.get k) else s.cells.get k,
    s.len, s.len_le⟩

/-- Empties the store to `n` cells in use, if there is room for them. -/
def reset (_s : CellArray α capacity) (n : Nat) : Except HistError (CellArray α capacity) :=
  if h : n ≤ capacity then .ok ⟨Vector.replicate capacity Cell.empty, n, h⟩
  else .error (.capacity n capacity)

/-- Adds the cells in use of `t` pairwise; different numbers in use are refused. -/
def merge (s t : CellArray α capacity) : Except HistError (CellArray α capacity) :=
  if s.len ≠ t.len then .error (.storageSize t.len s.len)
  else .ok (s.mapUsed fun k c => Cell.merge c (t.cells.toArray.getD k Cell.empty))

instance : Store (CellArray α capacity) α where
  size s := s.len
  reset := reset
  get s i := if i < s.len then s.cells.toArray.getD i Cell.empty else Cell.empty
  increment s i := s.update i Cell.increment
  addWeight s i w := s.update i (Cell.addWeight · w)
  addSample s i xs := s.update i (Cell.addSample · xs)
  addWeightedSample s i w xs := s.update i (Cell.addWeightedSample · w xs)
  merge := merge
  scale s f := s.mapUsed fun _ c => Cell.scale c f
  beq s t := s.len == t.len && (s.used.zip t.used).all fun p => Cell.beq p.1 p.2

end CellArray

end Histograms
