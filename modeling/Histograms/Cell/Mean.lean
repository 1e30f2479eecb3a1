import Histograms.Cell.Basic
/-!
# Running means

`Mean` keeps the number of samples, their mean and the sum of squared
deviations from the mean, updated one sample at a time by Welford's method:
with `n` samples so far and a new sample `x`, the mean moves by
`(x - mean) / (n + 1)` and the squared deviations grow by
`(x - old mean) * (x - new mean)`. Two accumulators merge pairwise: the mean
moves toward the other mean by its share of the combined count, and the squared
deviations add up with `delta ^ 2 * n_a * n_b / n` for the gap `delta` between
the two means. `WeightedMean` does the same with weights, keeping the sum of
weights and the sum of their squares.

The updates are written over any number type with the field operations, so that
the same definitions run on floats and can be read in exact rationals.
-/

namespace Histograms

/-- The count, mean and sum of squared deviations of a sample. -/
structure Mean (α : Type) where
  count : α
  mean : α
  dsum2 : α

/-- The weight sum, squared-weight sum, mean and weighted sum of squared deviations
of a weighted sample. -/
structure WeightedMean (α : Type) where
  sum : α
  sum2 : α
  mean : α
  dsum2 : α

section Welford

variable {α : Type} [Add α] [Sub α] [Mul α] [Div α] [OfNat α 0] [OfNat α 1] [BEq α]

namespace Mean

/-- No samples. -/
def empty : Mean α := ⟨0, 0, 0⟩

/-- An accumulator of `count` samples with the given mean and (sample) variance. -/
def ofMoments (count mean variance : α) : Mean α := ⟨count, mean, variance * (count - 1)⟩

/-- The mean of the samples. -/
def value (m : Mean α) : α := m.mean

/-- The sample variance, `dsum2 / (count - 1)`. -/
def variance (m : Mean α) : α := m.dsum2 / (m.count - 1)

/-- The population variance, `dsum2 / count`. -/
def populationVariance (m : Mean α) : α := m.dsum2 / m.count

/-- Adds one sample. -/
def add (m : Mean α) (x : α) : Mean α :=
  let count := m.count + 1
  let delta := x - m.mean
  let mean := m.mean + delta / count
  ⟨count, mean, m.dsum2 + delta * (x - mean)⟩

/-- Adds the samples of another accumulator. -/
def merge (m o : Mean α) : Mean α :=
  if o.count == 0 then m
  else if m.count == 0 then o
  else
    let n := m.count + o.count
    let delta := o.mean - m.mean
    ⟨n, m.mean + delta * o.count / n, m.dsum2 + (o.dsum2 + delta * delta * m.count * o.count / n)⟩

/-- Multiplies every sample by `f`. -/
def scale (m : Mean α) (f : α) : Mean α := ⟨m.count, m.mean * f, m.dsum2 * (f * f)⟩

end Mean

namespace WeightedMean

/-- No samples. -/
def empty : WeightedMean α := ⟨0, 0, 0, 0⟩

/-- An accumulator with the given weight sums, mean and variance. -/
def ofMoments (sum sum2 mean variance : α) : WeightedMean α :=
  ⟨sum, sum2, mean, variance * (sum - sum2 / sum)⟩

/-- The weighted mean. -/
def value (m : WeightedMean α) : α := m.mean

/-- The variance, `dsum2 / (sum - sum2 / sum)`. -/
def variance (m : WeightedMean α) : α := m.dsum2 / (m.sum - m.sum2 / m.sum)

/-- Adds one sample with a weight. -/
def add (m : WeightedMean α) (w x : α) : WeightedMean α :=
  let sum := m.sum + w
  let delta := x - m.mean
  let mean := m.mean + w * delta / sum
  ⟨sum, m.sum2 + w * w, mean, m.dsum2 + w * delta * (x - mean)⟩

/-- Adds the samples of another accumulator. -/
def merge (m o : WeightedMean α) : WeightedMean α :=
  if o.sum == 0 then m
  else if m.sum == 0 then o
  else
    let w := m.sum + o.sum
    let delta := o.mean - m.mean
    ⟨w, m.sum2 + o.sum2, m.mean + delta * o.sum / w,
      m.dsum2 + (o.dsum2 + delta * delta * m.sum * o.sum / w)⟩

/-- Multiplies every sample by `f`. -/
def scale (m : WeightedMean α) (f : α) : WeightedMean α :=
  ⟨m.sum, m.sum2, m.mean * f, m.dsum2 * (f * f)⟩

end WeightedMean

end Welford

instance : Cell (Mean Float) where
  name := "mean"
  empty := Mean.empty
  addSample m xs := do
    let x ← Cell.scalar xs
    pure (m.add x)
  merge := Mean.merge
  scale := Mean.scale
  beq m o := m.count == o.count && m.mean == o.mean && m.dsum2 == o.dsum2

instance : Cell (WeightedMean Float) where
  name := "weighted mean"
  empty := WeightedMean.empty
  addSample m xs := do
    let x ← Cell.scalar xs
    pure (m.add 1.0 x)
  addWeightedSample m w xs := do
    let x ← Cell.scalar xs
    pure (m.add w x)
  merge := WeightedMean.merge
  scale := WeightedMean.scale
  beq m o := m.sum == o.sum && m.sum2 == o.sum2 && m.mean == o.mean && m.dsum2 == o.dsum2

end Histograms
