import Histograms.Store.Basic
import Histograms.Counts.Basic
/-!
# The counting store as a store

A counting store takes plain counts and weights (a weight is added as
`Counts.add` adds a float) and refuses samples in either role.
-/

namespace Histograms

/-- The name of the counting store in errors. -/
def Counts.cellName : String := "adaptive storage"

instance : Store Counts Count where
  size := Counts.size
  reset _ n := .ok (Counts.new n)
  get := Counts.get
  increment s i := (s.addCount i 1, none)
  addWeight s i w := (s.add i w, none)
  addSample s _ _ := (s, some (.unsupportedRole Counts.cellName .sample))
  addWeightedSample s _ _ _ := (s, some (.unsupportedRole Counts.cellName .weightedSample))
  merge := Counts.merge
  scale := Counts.scale
  beq s t := s == t

end Histograms
