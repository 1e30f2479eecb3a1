import Mathlib
import Histograms.Cell.Mean
/-!
# Welford's update computes the closed form

Read in exact rational arithmetic, the running accumulators `Mean` and `WeightedMean` hold,
after any list of samples, what the textbook formulas give for that list: the number of
samples (for weighted samples the sum of the weights and of their squares), the mean, and the
sum of squared deviations from that mean.

The update moves the mean first and then adds `delta * (x - new mean)`, so the sum of squared
deviations is never written in terms of one fixed mean. The proof goes through the power sums:
an accumulator is fixed by `n`, `∑ x` and `∑ x ^ 2` (`Mean.ofSums`), since the squared
deviations from the mean add up to `∑ x ^ 2 - (∑ x) ^ 2 / n`, and one update moves each power
sum by the new sample.

Main statements:

* `Mean.ofSamples_eq_ofSums`, `WeightedMean.ofSamples_eq_ofSums` — the closed form through the
  power sums.
* `Mean.addAll_ofSamples`, `WeightedMean.addAll_ofSamples` — updating the closed form of a
  list by more samples gives the closed form of the longer list (weights above zero).
* `WeightedMean.ofSamples_unit`, `WeightedMean.variance_unit` — unit weights give `Mean`'s
  mean, squared deviations and variance.
* `Mean.scale_ofSamples`, `WeightedMean.scale_ofSamples` — scaling is scaling the samples.
* `Mean.welford_closed_form` — the accumulators of every run are in closed form.
-/

namespace Histograms

section Runs

variable {α : Type} [Add α] [Sub α] [Mul α] [Div α]

/-- Adds the samples one at a time, in order. -/
def Mean.addAll [OfNat α 1] (m : Mean α) (xs : List α) : Mean α := xs.foldl Mean.add m

/-- Adds the samples `(w, x)`, each `x` with its weight `w`, one at a time, in order. -/
def WeightedMean.addAll (m : WeightedMean α) (ps : List (α × α)) : WeightedMean α :=
  ps.foldl (fun m p => m.add p.1 p.2) m

@[simp] theorem Mean.addAll_nil [OfNat α 1] (m : Mean α) : m.addAll [] = m := rfl

@[simp] theorem Mean.addAll_cons [OfNat α 1] (m : Mean α) (x : α) (xs : List α) :
    m.addAll (x :: xs) = (m.add x).addAll xs := rfl

@[simp] theorem WeightedMean.addAll_nil (m : WeightedMean α) : m.addAll [] = m := rfl

@[simp] theorem WeightedMean.addAll_cons (m : WeightedMean α) (p : α × α) (ps : List (α × α)) :
    m.addAll (p :: ps) = (m.add p.1 p.2).addAll ps := rfl

end Runs

/-! ### Samples -/

namespace Mean

/-- The mean of a list of samples; `0` for none. -/
def sampleMean (xs : List ℚ) : ℚ := xs.sum / xs.length

/-- The accumulator of `xs` by the closed formulas: the number of samples, their mean, and the
sum of squared deviations from the mean. -/
def ofSamples (xs : List ℚ) : Mean ℚ :=
  ⟨xs.length, sampleMean xs, (xs.map fun x => (x - sampleMean xs) ^ 2).sum⟩

/-- The accumulator of `n` samples with sum `s` and sum of squares `q`. -/
def ofSums (n s q : ℚ) : Mean ℚ := ⟨n, s / n, q - s ^ 2 / n⟩

/-- Squared deviations from any centre `c`, through the power sums. -/
theorem sum_sq_sub (xs : List ℚ) (c : ℚ) :
    (xs.map fun x => (x - c) ^ 2).sum =
      (xs.map (· ^ 2)).sum - 2 * c * xs.sum + xs.length * c ^ 2 := by
  induction xs with
  | nil => simp
  | cons x xs ih =>
    simp only [List.map_cons, List.sum_cons, ih, List.length_cons]
    push_cast
    ring

theorem ofSamples_nil : ofSamples [] = ⟨0, 0, 0⟩ := by
  simp [ofSamples, sampleMean]

/-- The closed form of a non-empty list is fixed by its power sums. -/
theorem ofSamples_eq_ofSums {xs : List ℚ} (hxs : xs ≠ []) :
    ofSamples xs = ofSums xs.length xs.sum (xs.map (· ^ 2)).sum := by
  have hn : (xs.length : ℚ) ≠ 0 := by simpa using hxs
  simp only [ofSamples, ofSums, sampleMean, sum_sq_sub, mk.injEq, true_and]
  field_simp
  ring

/-- **One Welford step.** A sample moves the power sums by itself, whatever the count before. -/
theorem add_ofSums {n : ℚ} (hn : 0 < n) (s q x : ℚ) :
    (ofSums n s q).add x = ofSums (n + 1) (s + x) (q + x ^ 2) := by
  have hn1 : n + 1 ≠ 0 := by positivity
  simp only [add, ofSums, mk.injEq, true_and]
  constructor
  · field_simp
    ring
  · field_simp
    ring

/-- Adding a sample to the closed form of a list gives the closed form of the longer list. -/
theorem add_ofSamples (xs : List ℚ) (x : ℚ) : (ofSamples xs).add x = ofSamples (xs ++ [x]) := by
  cases xs with
  | nil => simp [ofSamples, sampleMean, add]
  | cons y ys =>
    have hpos : (0 : ℚ) < (y :: ys).length := Nat.cast_pos.mpr (List.length_pos_of_ne_nil (by simp))
    rw [ofSamples_eq_ofSums (List.cons_ne_nil y ys), add_ofSums hpos,
      ofSamples_eq_ofSums (by simp)]
    simp [add_assoc, one_add_one_eq_two]

/-- **The run lemma.** Updating the closed form of `xs` by the samples `ys` gives the closed form
of `xs ++ ys`; the induction carries the prefix. -/
theorem addAll_ofSamples (xs ys : List ℚ) : (ofSamples xs).addAll ys = ofSamples (xs ++ ys) := by
  induction ys generalizing xs with
  | nil => simp
  | cons y ys ih => rw [addAll_cons, add_ofSamples, ih, List.append_assoc, List.singleton_append]

theorem empty_eq_ofSamples_nil : (empty : Mean ℚ) = ofSamples [] := by
  rw [ofSamples_nil]
  rfl

theorem addAll_empty (xs : List ℚ) : empty.addAll xs = ofSamples xs := by
  rw [empty_eq_ofSamples_nil, addAll_ofSamples, List.nil_append]

/-- Scaling the accumulator of `xs` by `f` gives the accumulator of the samples times `f`. -/
theorem scale_ofSamples (xs : List ℚ) (f : ℚ) :
    (ofSamples xs).scale f = ofSamples (xs.map (f * ·)) := by
  have hmean : sampleMean (xs.map (f * ·)) = sampleMean xs * f := by
    have hsum : (xs.map (f * ·)).sum = f * xs.sum := by simpa using List.sum_map_mul_left xs id f
    simp only [sampleMean, List.length_map, hsum]
    ring
  -- each squared deviation of a scaled sample is the old one times `f * f`
  have hdev : ((xs.map (f * ·)).map fun y => (y - sampleMean xs * f) ^ 2) =
      xs.map fun x => (x - sampleMean xs) ^ 2 * (f * f) := by
    rw [List.map_map]
    exact List.map_congr_left fun x _ => by simp only [Function.comp_apply]; ring
  simp only [scale, ofSamples, hmean, List.length_map, hdev, List.sum_map_mul_right]

end Mean

/-! ### Weighted samples -/

namespace WeightedMean

/-- The sum of the weights of samples `(w, x)`. -/
def weightSum (ps : List (ℚ × ℚ)) : ℚ := (ps.map Prod.fst).sum

/-- The weighted mean `∑ w x / ∑ w`; `0` for no samples. -/
def sampleMean (ps : List (ℚ × ℚ)) : ℚ := (ps.map fun p => p.1 * p.2).sum / weightSum ps

/-- The accumulator of weighted samples by the closed formulas: the sum of the weights and of
their squares, the weighted mean, and the weighted sum of squared deviations from it. -/
def ofSamples (ps : List (ℚ × ℚ)) : WeightedMean ℚ :=
  ⟨weightSum ps, (ps.map fun p => p.1 ^ 2).sum, sampleMean ps,
    (ps.map fun p => p.1 * (p.2 - sampleMean ps) ^ 2).sum⟩

/-- The accumulator of weighted samples with weight sum `s`, squared-weight sum `s2`, weighted
sum `b` and weighted sum of squares `q`. -/
def ofSums (s s2 b q : ℚ) : WeightedMean ℚ := ⟨s, s2, b / s, q - b ^ 2 / s⟩

theorem sum_mul_sq_sub (ps : List (ℚ × ℚ)) (c : ℚ) :
    (ps.map fun p => p.1 * (p.2 - c) ^ 2).sum =
      (ps.map fun p => p.1 * p.2 ^ 2).sum - 2 * c * (ps.map fun p => p.1 * p.2).sum +
        weightSum ps * c ^ 2 := by
  induction ps with
  | nil => simp [weightSum]
  | cons p ps ih =>
    simp only [List.map_cons, List.sum_cons, ih, weightSum]
    ring

theorem weightSum_pos {ps : List (ℚ × ℚ)} (hps : ∀ p ∈ ps, 0 < p.1) (hne : ps ≠ []) :
    0 < weightSum ps :=
  List.sum_pos _ (by simpa using hps) (by simpa using hne)

theorem ofSamples_nil : ofSamples [] = ⟨0, 0, 0, 0⟩ := by
  simp [ofSamples, sampleMean, weightSum]

theorem ofSamples_eq_ofSums {ps : List (ℚ × ℚ)} (hs : weightSum ps ≠ 0) :
    ofSamples ps = ofSums (weightSum ps) (ps.map fun p => p.1 ^ 2).sum
      (ps.map fun p => p.1 * p.2).sum (ps.map fun p => p.1 * p.2 ^ 2).sum := by
  simp only [ofSamples, ofSums, sampleMean, sum_mul_sq_sub, mk.injEq, true_and]
  field_simp
  ring

/-- **One weighted Welford step**, once some weight has arrived. -/
theorem add_ofSums {s w : ℚ} (hs : 0 < s) (hw : 0 < w) (s2 b q x : ℚ) :
    (ofSums s s2 b q).add w x = ofSums (s + w) (s2 + w ^ 2) (b + w * x) (q + w * x ^ 2) := by
  have hsw : s + w ≠ 0 := by positivity
  simp only [add, ofSums, mk.injEq, true_and]
  refine ⟨by ring, ?_, ?_⟩
  · field_simp
    ring
  · field_simp
    ring

theorem add_ofSamples {ps : List (ℚ × ℚ)} (hps : ∀ p ∈ ps, 0 < p.1) {w : ℚ} (hw : 0 < w) (x : ℚ) :
    (ofSamples ps).add w x = ofSamples (ps ++ [(w, x)]) := by
  have hsum : weightSum (ps ++ [(w, x)]) = weightSum ps + w := by simp [weightSum]
  cases ps with
  | nil =>
    simp only [add, ofSamples, sampleMean, weightSum, List.nil_append,
      List.map_cons, List.map_nil, List.sum_cons, List.sum_nil, mk.injEq]
    field_simp
    simp
  | cons p ps =>
    have hpos := weightSum_pos hps (List.cons_ne_nil p ps)
    rw [ofSamples_eq_ofSums hpos.ne', add_ofSums hpos hw,
      ofSamples_eq_ofSums (by rw [hsum]; positivity), hsum]
    simp [add_assoc]

theorem forall_mem_append_pos {ps qs : List (ℚ × ℚ)} (hps : ∀ p ∈ ps, 0 < p.1)
    (hqs : ∀ p ∈ qs, 0 < p.1) : ∀ p ∈ ps ++ qs, 0 < p.1 := by
  intro p hp
  rcases List.mem_append.mp hp with hp | hp
  · exact hps p hp
  · exact hqs p hp

/-- **The weighted run lemma**, for weights above zero. -/
theorem addAll_ofSamples {ps qs : List (ℚ × ℚ)} (hps : ∀ p ∈ ps, 0 < p.1)
    (hqs : ∀ p ∈ qs, 0 < p.1) : (ofSamples ps).addAll qs = ofSamples (ps ++ qs) := by
  induction qs generalizing ps with
  | nil => simp
  | cons q qs ih =>
    have hq := hqs q (List.mem_cons_self ..)
    have hpq := forall_mem_append_pos hps (List.forall_mem_singleton.mpr hq)
    rw [addAll_cons, add_ofSamples hps hq, ih hpq fun p hp => hqs p (List.mem_cons_of_mem _ hp),
      List.append_assoc, List.singleton_append]

theorem empty_eq_ofSamples_nil : (empty : WeightedMean ℚ) = ofSamples [] := by
  rw [ofSamples_nil]
  rfl

theorem addAll_empty {ps : List (ℚ × ℚ)} (hps : ∀ p ∈ ps, 0 < p.1) :
    empty.addAll ps = ofSamples ps := by
  rw [empty_eq_ofSamples_nil, addAll_ofSamples (by simp) hps, List.nil_append]

/-- Unit weights: the weight sums are the number of samples and the weighted mean and
squared deviations are `Mean`'s. -/
theorem ofSamples_unit (xs : List ℚ) :
    ofSamples (xs.map (1, ·)) =
      ⟨xs.length, xs.length, (Mean.ofSamples xs).mean, (Mean.ofSamples xs).dsum2⟩ := by
  have hw : weightSum (xs.map (1, ·)) = xs.length := by
    simp [weightSum, Function.comp_def, List.map_const']
  have hmean : sampleMean (xs.map (1, ·)) = Mean.sampleMean xs := by
    simp [sampleMean, Mean.sampleMean, hw, Function.comp_def]
  simp [ofSamples, Mean.ofSamples, hw, hmean, Function.comp_def]

/-- With unit weights the variance is `Mean`'s, `0` for no samples included. -/
theorem variance_unit (xs : List ℚ) :
    (ofSamples (xs.map (1, ·))).variance = (Mean.ofSamples xs).variance := by
  rw [ofSamples_unit]
  rcases eq_or_ne xs [] with rfl | hxs
  · simp [variance, Mean.variance, Mean.ofSamples]
  · have hn : (xs.length : ℚ) ≠ 0 := by simpa using hxs
    simp only [variance, Mean.variance, div_self hn, Mean.ofSamples]

theorem scale_ofSamples (ps : List (ℚ × ℚ)) (f : ℚ) :
    (ofSamples ps).scale f = ofSamples (ps.map fun p => (p.1, f * p.2)) := by
  have hw : weightSum (ps.map fun p => (p.1, f * p.2)) = weightSum ps := by
    simp [weightSum, Function.comp_def]
  have hmean : sampleMean (ps.map fun p => (p.1, f * p.2)) = sampleMean ps * f := by
    have hsum : ((ps.map fun p => (p.1, f * p.2)).map fun p => p.1 * p.2).sum =
        (ps.map fun p => p.1 * p.2).sum * f := by
      rw [← List.sum_map_mul_right, List.map_map]
      exact congrArg List.sum (List.map_congr_left fun p _ => by simp only [Function.comp_apply]; ring)
    rw [sampleMean, sampleMean, hw, hsum]
    ring
  -- each weighted squared deviation of a scaled sample is the old one times `f * f`
  have hdev : ((ps.map fun p => (p.1, f * p.2)).map fun p => p.1 * (p.2 - sampleMean ps * f) ^ 2) =
      ps.map fun p => p.1 * (p.2 - sampleMean ps) ^ 2 * (f * f) := by
    rw [List.map_map]
    exact List.map_congr_left fun p _ => by simp only [Function.comp_apply]; ring
  simp only [scale, ofSamples, hw, hmean, hdev, List.sum_map_mul_right, List.map_map,
    Function.comp_def]

end WeightedMean

/-! ### Every run is in closed form -/

/-- **Welford's update computes the closed form.** Read in exact rational arithmetic: after any
list of samples fed to an empty `Mean`, the count is their number, the mean is their mean and
`dsum2` is the sum of their squared deviations from it (all three `0` for no samples), so the
population and sample variances are that sum over `n` and over `n - 1`. After any list of
samples with weights above zero fed to an empty `WeightedMean`, the weight sums are `∑ w` and
`∑ w ^ 2`, the mean is `∑ w x / ∑ w` and `dsum2` is `∑ w (x - mean) ^ 2`. Unit weights give
`Mean`'s value and variance, and scaling either accumulator by `f` gives the accumulator of
the samples times `f`. -/
theorem Mean.welford_closed_form (xs : List ℚ) (ps : List (ℚ × ℚ)) (hps : ∀ p ∈ ps, 0 < p.1)
    (f : ℚ) :
    Mean.empty.addAll xs = Mean.ofSamples xs ∧
      (Mean.empty.addAll xs).populationVariance = (Mean.ofSamples xs).dsum2 / xs.length ∧
      (Mean.empty.addAll xs).variance = (Mean.ofSamples xs).dsum2 / (xs.length - 1) ∧
      WeightedMean.empty.addAll ps = WeightedMean.ofSamples ps ∧
      (WeightedMean.empty.addAll (xs.map (1, ·))).value = (Mean.empty.addAll xs).value ∧
      (WeightedMean.empty.addAll (xs.map (1, ·))).variance = (Mean.empty.addAll xs).variance ∧
      (Mean.empty.addAll xs).scale f = Mean.empty.addAll (xs.map (f * ·)) ∧
      (WeightedMean.empty.addAll ps).scale f =
        WeightedMean.empty.addAll (ps.map fun p => (p.1, f * p.2)) := by
  have hunit : ∀ p ∈ xs.map ((1 : ℚ), ·), 0 < p.1 := by simp
  have hscaled : ∀ p ∈ ps.map fun p => (p.1, f * p.2), 0 < p.1 := by
    intro p hp
    obtain ⟨q, hq, rfl⟩ := List.mem_map.mp hp
    exact hps q hq
  rw [Mean.addAll_empty, Mean.addAll_empty, WeightedMean.addAll_empty hps,
    WeightedMean.addAll_empty hunit, WeightedMean.addAll_empty hscaled]
  refine ⟨rfl, rfl, rfl, rfl, ?_, WeightedMean.variance_unit xs, Mean.scale_ofSamples xs f,
    WeightedMean.scale_ofSamples ps f⟩
  rw [WeightedMean.ofSamples_unit]
  rfl

/-- The eight samples `2, 4, 4, 4, 5, 5, 7, 9` have mean `5` and squared deviations `32`:
population variance `4`. The samples `1` with weight `1` and `2` with weight `2` have weight
sums `3` and `5`, mean `5 / 3` and variance `1 / 2`. -/
theorem Mean.welford_closed_form_eight_samples :
    (∀ p ∈ [((1 : ℚ), (1 : ℚ)), (2, 2)], 0 < p.1) ∧
      Mean.empty.addAll [(2 : ℚ), 4, 4, 4, 5, 5, 7, 9] = ⟨8, 5, 32⟩ ∧
      (Mean.empty.addAll [(2 : ℚ), 4, 4, 4, 5, 5, 7, 9]).populationVariance = 4 ∧
      WeightedMean.empty.addAll [((1 : ℚ), (1 : ℚ)), (2, 2)] = ⟨3, 5, 5 / 3, 2 / 3⟩ ∧
      (WeightedMean.empty.addAll [((1 : ℚ), (1 : ℚ)), (2, 2)]).variance = 1 / 2 := by
  have hps : ∀ p ∈ [((1 : ℚ), (1 : ℚ)), (2, 2)], 0 < p.1 := by simp
  obtain ⟨hmean, hpop, -, hweighted, -⟩ :=
    Mean.welford_closed_form [2, 4, 4, 4, 5, 5, 7, 9] _ hps 1
  have hsamples : Mean.ofSamples [(2 : ℚ), 4, 4, 4, 5, 5, 7, 9] = ⟨8, 5, 32⟩ := by
    norm_num [Mean.ofSamples, Mean.sampleMean]
  have hpairs : WeightedMean.ofSamples [((1 : ℚ), (1 : ℚ)), (2, 2)] = ⟨3, 5, 5 / 3, 2 / 3⟩ := by
    norm_num [WeightedMean.ofSamples, WeightedMean.sampleMean, WeightedMean.weightSum]
  refine ⟨hps, hmean.trans hsamples, ?_, hweighted.trans hpairs, ?_⟩
  · rw [hpop, hsamples]
    norm_num
  · rw [hweighted, hpairs]
    norm_num [WeightedMean.variance]

end Histograms
