import Histograms.Cell.Basic
/-!
# Sums

`CompensatedSum` adds floats with a running correction term: after each addition
the rounding error of the large part is recovered exactly (the larger operand in
magnitude absorbs the smaller) and kept in `small`, so the value `large + small`
stays accurate over many terms of different sizes.

`WeightedSum` keeps the sum of weights and the sum of their squares, the value and
the variance of a weighted count.
-/

namespace Histograms

/-- A float sum with an error-compensation term. -/
structure CompensatedSum where
  large : Float
  small : Float

namespace CompensatedSum

/-- A sum starting at `value`. -/
def new (value : Float) : CompensatedSum := ⟨value, 0.0⟩

/-- The value of the sum. -/
def value (s : CompensatedSum) : Float := s.large + s.small

/-- Adds `x`, keeping the rounding error of the large part. -/
def add (s : CompensatedSum) (x : Float) : CompensatedSum :=
  let total := s.large + x
  let error :=
    if x.abs ≤ s.large.abs then (s.large - total) + x else (x - total) + s.large
  ⟨total, s.small + error⟩

instance : Cell CompensatedSum where
  name := "sum"
  empty := ⟨0.0, 0.0⟩
  increment s := .ok (s.add 1.0)
  addWeight s w := .ok (s.add w)
  merge s t := let u := s.add t.large; ⟨u.large, u.small + t.small⟩
  scale s f := ⟨s.large * f, s.small * f⟩
  beq s t := s.large == t.large && s.small == t.small

end CompensatedSum

/-- The sum of weights and the sum of their squares. -/
structure WeightedSum where
  sum : Float
  sum2 : Float

namespace WeightedSum

/-- The value of the count. -/
def value (s : WeightedSum) : Float := s.sum

/-- The variance of the count. -/
def variance (s : WeightedSum) : Float := s.sum2

instance : Cell WeightedSum where
  name := "weighted sum"
  empty := ⟨0.0, 0.0⟩
  increment s := .ok ⟨s.sum + 1.0, s.sum2 + 1.0⟩
  addWeight s w := .ok ⟨s.sum + w, s.sum2 + w * w⟩
  merge s t := ⟨s.sum + t.sum, s.sum2 + t.sum2⟩
  scale s f := ⟨s.sum * f, s.sum2 * (f * f)⟩
  beq s t := s.sum == t.sum && s.sum2 == t.sum2

end WeightedSum

end Histograms
