import Histograms.Error
/-!
# Cell widths of a counting store

A counting store holds natural numbers in the narrowest of five widths that holds
them all: 8, 16, 32 or 64 bits, or unbounded. When a count outgrows its width the
whole store moves to `Width.forCount` of the new count, the least width that holds
it. A store can also hold binary64 floats instead; `Layout` names the seven states
a store reports, ordered `empty < u8 < u16 < u32 < u64 < big < f64`.

A store of integer cells carries the proof that each of its cells fits its width
(`Width.HoldsAll`), as the cells of a fixed-width buffer do; the lemmas below build
that proof for every way a store changes its cells.

Main statements:

* `Width.holds_forCount`: the width chosen for a count holds it.
* `Width.forCount_le`: it is the least such width.
* `Width.rank_lt_forCount`: a width that does not hold a count lies below it.
* `Width.HoldsAll.set`, `Width.HoldsAll.set_after`, `Width.HoldsAll.mono`: writing a cell
  or widening keeps every cell fitting.
-/

namespace Histograms

/-- The widths of integer cells. -/
inductive Width where
  | u8
  | u16
  | u32
  | u64
  | big
  deriving DecidableEq, Repr

namespace Width

/-- The position of a width on the ladder. -/
def rank : Width → Nat
  | .u8 => 0
  | .u16 => 1
  | .u32 => 2
  | .u64 => 3
  | .big => 4

/-- The largest count a width holds; an unbounded width has none. -/
def limit : Width → Option Nat
  | .u8 => some (2 ^ 8 - 1)
  | .u16 => some (2 ^ 16 - 1)
  | .u32 => some (2 ^ 32 - 1)
  | .u64 => some (2 ^ 64 - 1)
  | .big => none

/-- A width holds a count when the count is at most its limit. -/
def Holds (w : Width) (n : Nat) : Prop :=
  match w.limit with
  | some m => n ≤ m
  | none => True

instance (w : Width) (n : Nat) : Decidable (w.Holds n) :=
  match h : w.limit with
  | some m => decidable_of_iff (n ≤ m) (by simp [Holds, h])
  | none => isTrue (by simp [Holds, h])

/-- The least width that holds `n`. -/
def forCount (n : Nat) : Width :=
  if n < 2 ^ 8 then .u8
  else if n < 2 ^ 16 then .u16
  else if n < 2 ^ 32 then .u32
  else if n < 2 ^ 64 then .u64
  else .big

/-- The wider of two widths. -/
def widest (v w : Width) : Width :=
  if v.rank ≤ w.rank then w else v

/-- The name of a width. -/
def name : Width → String
  | .u8 => "U8"
  | .u16 => "U16"
  | .u32 => "U32"
  | .u64 => "U64"
  | .big => "Big"

theorem holds_forCount (n : Nat) : (forCount n).Holds n := by
  unfold forCount
  split
  · simp [Holds, limit]; omega
  split
  · simp [Holds, limit]; omega
  split
  · simp [Holds, limit]; omega
  split
  · simp [Holds, limit]; omega
  simp [Holds, limit]

theorem forCount_le (n : Nat) (w : Width) (h : w.Holds n) : (forCount n).rank ≤ w.rank := by
  cases w <;> simp only [Holds, limit] at h <;> unfold forCount <;> (repeat' split) <;>
    simp only [rank] <;> omega

/-- A width that does not hold `n` lies strictly below the least one that does. -/
theorem rank_lt_forCount {w : Width} {n : Nat} (h : ¬ w.Holds n) : w.rank < (forCount n).rank := by
  cases w <;> simp only [Holds, limit, not_true_eq_false] at h <;> unfold forCount <;>
    (repeat' split) <;> simp only [rank] <;> omega

theorem Holds.mono {v w : Width} {n : Nat} (hvw : v.rank ≤ w.rank) (h : v.Holds n) :
    w.Holds n := by
  cases v <;> cases w <;> simp_all [Holds, limit, rank] <;> omega

theorem holds_big (n : Nat) : Width.big.Holds n := trivial

theorem holds_zero (w : Width) : w.Holds 0 := by
  cases w <;> simp [Holds, limit]

/-- The width after a count `m` arrives in a store of width `w`: `w` if it holds `m`, else
the least width that does. -/
def after (w : Width) (m : Nat) : Width := if w.Holds m then w else forCount m

theorem holds_after_self (w : Width) (m : Nat) : (w.after m).Holds m := by
  unfold after
  split
  · assumption
  · exact holds_forCount m

/-- Widening for a new count keeps every count the old width held. -/
theorem Holds.after {w : Width} {n : Nat} (h : w.Holds n) (m : Nat) : (w.after m).Holds n := by
  unfold Width.after
  split
  · exact h
  · next hm =>
    -- a width that does not hold `m` lies below the least one that does
    exact h.mono (Nat.le_of_lt (rank_lt_forCount hm))

/-! ### Arrays of cells that fit -/

/-- Every cell of the array fits the width. -/
def HoldsAll (w : Width) (cells : Array Nat) : Prop := ∀ n ∈ cells.toList, w.Holds n

instance (w : Width) (cells : Array Nat) : Decidable (w.HoldsAll cells) :=
  inferInstanceAs (Decidable (∀ n ∈ cells.toList, w.Holds n))

section HoldsAll

variable {v w : Width} {cells : Array Nat} {i : Nat}

theorem holdsAll_replicate_zero (w : Width) (n : Nat) : w.HoldsAll (Array.replicate n 0) := by
  intro m hm
  rw [Array.toList_replicate, List.mem_replicate] at hm
  rw [hm.2]
  exact holds_zero w

theorem holdsAll_big (cells : Array Nat) : Width.big.HoldsAll cells := fun n _ => holds_big n

theorem HoldsAll.mono (hvw : v.rank ≤ w.rank) (h : v.HoldsAll cells) : w.HoldsAll cells :=
  fun n hn => (h n hn).mono hvw

/-- Writing a count the width holds keeps every cell fitting. -/
theorem HoldsAll.set {x : Nat} (h : w.HoldsAll cells) (hi : i < cells.size) (hx : w.Holds x) :
    w.HoldsAll (cells.set i x hi) := by
  intro n hn
  rw [Array.toList_set] at hn
  rcases List.mem_or_eq_of_mem_set hn with hold | rfl
  · exact h n hold
  · exact hx

/-- Writing a count at the width it widens the store to keeps every cell fitting. -/
theorem HoldsAll.set_after (h : w.HoldsAll cells) (hi : i < cells.size) (x : Nat) :
    (w.after x).HoldsAll (cells.set i x hi) :=
  HoldsAll.set (fun n hn => (h n hn).after x) hi (holds_after_self w x)

/-- Writing a count the width does not hold, at the least width that holds it. -/
theorem HoldsAll.set_forCount {x : Nat} (h : w.HoldsAll cells) (hi : i < cells.size)
    (hx : ¬ w.Holds x) : (forCount x).HoldsAll (cells.set i x hi) :=
  (h.mono (Nat.le_of_lt (rank_lt_forCount hx))).set hi (holds_forCount x)

/-- Mapping the cells fits the width when the map's value at every cell does. -/
theorem holdsAll_map {f : Nat → Nat} (h : ∀ n ∈ cells.toList, w.Holds (f n)) :
    w.HoldsAll (cells.map f) := by
  intro m hm
  rw [Array.toList_map, List.mem_map] at hm
  obtain ⟨n, hn, rfl⟩ := hm
  exact h n hn

/-- Changing a cell only where its new count fits keeps every cell fitting. -/
theorem HoldsAll.map_of_holds (h : w.HoldsAll cells) (f : Nat → Nat) :
    w.HoldsAll (cells.map fun n => if w.Holds (f n) then f n else n) :=
  holdsAll_map fun n hn => by
    split
    · assumption
    · exact h n hn

end HoldsAll

end Width

/-- The state a counting store reports: empty, one of the integer widths, or floats. -/
inductive Layout where
  | empty
  | exact (w : Width)
  | real
  deriving DecidableEq, Repr

namespace Layout

/-- The position of a layout in the order `empty < u8 < … < big < f64`. -/
def rank : Layout → Nat
  | .empty => 0
  | .exact w => w.rank + 1
  | .real => 6

/-- Integer layouts are ordered as their widths. -/
theorem rank_le_of_not_exact_le {v w : Width} (h : ¬ (exact w).rank ≤ (exact v).rank) :
    v.rank ≤ w.rank := by
  simp only [rank] at h
  omega

/-- The name of a layout. -/
def name : Layout → String
  | .empty => "Empty"
  | .exact w => w.name
  | .real => "F64"

end Layout

end Histograms
