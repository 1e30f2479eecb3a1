import Histograms.Error
/-!
# Stores

A `Store` holds the cells of a histogram, one per cell index. Fills reach a cell
in one of four roles (`increment`, `addWeight`, `addSample`,
`addWeightedSample`); each may be refused. A fill gives the store after it
together with the error it reported, if any (`Updated`): a refused fill leaves the
store as it was, and a fill that succeeds can update the store in place because
nothing else holds the store before it. A store can be reset to a number of
empty cells (which a fixed-capacity store may refuse), merged with a store of the
same kind and length, scaled, and compared.

Reading a cell outside the store gives the empty cell, and updating one changes
nothing: a histogram only ever reaches cells inside its store.
-/

namespace Histograms

/-- The state after an update, and the error the update reported if it failed. -/
abbrev Updated (σ : Type) := σ × Option HistError

/-- A store of cells of type `ν`. -/
class Store (σ : Type) (ν : outParam Type) where
  /-- The number of cells. -/
  size : σ → Nat
  /-- Replaces the content by `n` empty cells. -/
  reset : σ → Nat → Except HistError σ
  /-- Cell `i`; the empty cell outside the store. -/
  get : σ → Nat → ν
  /-- Counts one plain fill in cell `i`. -/
  increment : σ → Nat → Updated σ
  /-- Adds a weight to cell `i`. -/
  addWeight : σ → Nat → Float → Updated σ
  /-- Adds a sample to cell `i`. -/
  addSample : σ → Nat → List Float → Updated σ
  /-- Adds a weighted sample to cell `i`. -/
  addWeightedSample : σ → Nat → Float → List Float → Updated σ
  /-- Adds the cells of a store of the same length. -/
  merge : σ → σ → Except HistError σ
  /-- Multiplies every cell by a factor. -/
  scale : σ → Float → σ
  /-- Equality of content. -/
  beq : σ → σ → Bool

end Histograms
