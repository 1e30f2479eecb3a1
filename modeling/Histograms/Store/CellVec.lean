import Histograms.Store.Basic
import Histograms.Cell.Basic
/-!
# Growable stores of cells

A `CellVec` holds as many cells as it was last reset to. Every fill goes to the
cell it names; merging adds the cells of a store of the same length pairwise.
-/

namespace Histograms

/-- A store of any number of cells. -/
structure CellVec (α : Type) where
  cells : Array α

namespace CellVec

variable {α : Type} [Cell α]

/-- `n` empty cells. -/
def new (n : Nat) : CellVec α := ⟨Array.replicate n Cell.empty⟩

/-- Updates cell `i`, unless `f` refuses it; outside the store nothing changes. -/
def update (s : CellVec α) (i : Nat) (f : α → Except HistError α) : Updated (CellVec α) :=
  if h : i < s.cells.size then
    match f s.cells[i] with
    | .ok c => (⟨s.cells.set i c⟩, none)
    | .error e => (s, some e)
  else (s, none)

/-- Replaces cell `i`; outside the store nothing changes. -/
def set (s : CellVec α) (i : Nat) (c : α) : CellVec α :=
  ⟨s.cells.setIfInBounds i c⟩

/-- Adds the cells of `t` pairwise; stores of different lengths are refused. -/
def merge (s t : CellVec α) : Except HistError (CellVec α) :=
  if s.cells.size ≠ t.cells.size then .error (.storageSize t.cells.size s.cells.size)
  else .ok ⟨(s.cells.zip t.cells).map fun p => Cell.merge p.1 p.2⟩

instance : Store (CellVec α) α where
  size s := s.cells.size
  reset _ n := .ok (new n)
  get s i := s.cells.getD i Cell.empty
  increment s i := s.update i Cell.increment
  addWeight s i w := s.update i (Cell.addWeight · w)
  addSample s i xs := s.update i (Cell.addSample · xs)
  addWeightedSample s i w xs := s.update i (Cell.addWeightedSample · w xs)
  merge := merge
  scale s f := ⟨s.cells.map (Cell.scale · f)⟩
  beq s t := s.cells.size == t.cells.size && (s.cells.zip t.cells).all fun p => Cell.beq p.1 p.2

end CellVec

end Histograms
