import Histograms.Proofs.Welford
/-!
# Merging accumulators is accumulating the concatenation

Two accumulators merge pairwise: the mean moves toward the other side's mean in
proportion to its count (or weight), and the squared
deviations add up with the cross term `delta ^ 2 * n_a * n_b / n`. Read in exact rational
arithmetic, this adds the power sums of the two sides (`Mean.merge_ofSums`), which are the
power sums of the concatenated samples; a side without samples is returned or skipped by the
early returns, which agree with the same formula. So merging the accumulators of two lists is
the accumulator of the two lists one after the other, and, since the closed form does not
depend on the order of the samples, merging is associative and commutative on every
accumulator that a run reaches.

Main statements:

* `Mean.merge_ofSamples`, `WeightedMean.merge_ofSamples` — merging closed forms.
* `Mean.ofSamples_perm`, `WeightedMean.ofSamples_perm` — the closed form of a permutation.
* `Mean.merge_accumulates_concatenation` — merging accumulators is accumulating the
  concatenation; merging is associative and commutative on reachable accumulators.
-/

namespace Histograms

namespace Mean

/-- An accumulator that adding samples to the empty one reaches. -/
def Reachable (m : Mean ℚ) : Prop := ∃ xs, m = empty.addAll xs

theorem count_ofSamples_eq_zero_iff {xs : List ℚ} : (ofSamples xs).count = 0 ↔ xs = [] := by
  simp [ofSamples]

/-- **Chan's update adds the power sums** of two sides that both hold samples. -/
theorem merge_ofSums {n m : ℚ} (hn : 0 < n) (hm : 0 < m) (s q t r : ℚ) :
    (ofSums n s q).merge (ofSums m t r) = ofSums (n + m) (s + t) (q + r) := by
  have hnm : n + m ≠ 0 := by positivity
  simp only [merge, ofSums, beq_iff_eq, hn.ne', hm.ne', if_false, mk.injEq, true_and]
  constructor
  · field_simp
    ring
  · field_simp
    ring

/-- Merging the closed forms of two lists gives the closed form of their concatenation; an
empty side is skipped or taken over by the early returns. -/
theorem merge_ofSamples (xs ys : List ℚ) :
    (ofSamples xs).merge (ofSamples ys) = ofSamples (xs ++ ys) := by
  rcases eq_or_ne ys [] with rfl | hys
  · simp [merge, count_ofSamples_eq_zero_iff]
  rcases eq_or_ne xs [] with rfl | hxs
  · simp [merge, count_ofSamples_eq_zero_iff, hys]
  have hpos : ∀ zs : List ℚ, zs ≠ [] → (0 : ℚ) < zs.length :=
    fun zs hzs => Nat.cast_pos.mpr (List.length_pos_of_ne_nil hzs)
  rw [ofSamples_eq_ofSums hxs, ofSamples_eq_ofSums hys, merge_ofSums (hpos xs hxs) (hpos ys hys),
    ofSamples_eq_ofSums (by simp [hxs])]
  simp

/-- The closed form does not depend on the order of the samples. -/
theorem ofSamples_perm {xs ys : List ℚ} (h : xs.Perm ys) : ofSamples xs = ofSamples ys := by
  have hmean : sampleMean xs = sampleMean ys := by rw [sampleMean, sampleMean, h.sum_eq, h.length_eq]
  simp only [ofSamples, hmean, h.length_eq, (h.map _).sum_eq]

theorem merge_addAll (xs ys : List ℚ) :
    (empty.addAll xs).merge (empty.addAll ys) = empty.addAll (xs ++ ys) := by
  rw [addAll_empty, addAll_empty, addAll_empty, merge_ofSamples]

section Reachable

variable {a b c : Mean ℚ}

theorem Reachable.merge (ha : a.Reachable) (hb : b.Reachable) : (a.merge b).Reachable := by
  obtain ⟨xs, rfl⟩ := ha
  obtain ⟨ys, rfl⟩ := hb
  exact ⟨xs ++ ys, merge_addAll xs ys⟩

theorem merge_assoc_of_reachable (ha : a.Reachable) (hb : b.Reachable) (hc : c.Reachable) :
    (a.merge b).merge c = a.merge (b.merge c) := by
  obtain ⟨xs, rfl⟩ := ha
  obtain ⟨ys, rfl⟩ := hb
  obtain ⟨zs, rfl⟩ := hc
  rw [merge_addAll, merge_addAll, merge_addAll, merge_addAll, List.append_assoc]

theorem merge_comm_of_reachable (ha : a.Reachable) (hb : b.Reachable) : a.merge b = b.merge a := by
  obtain ⟨xs, rfl⟩ := ha
  obtain ⟨ys, rfl⟩ := hb
  rw [merge_addAll, merge_addAll, addAll_empty, addAll_empty, ofSamples_perm List.perm_append_comm]

end Reachable

end Mean

namespace WeightedMean

/-- An accumulator that adding samples with weights above zero to the empty one reaches. -/
def Reachable (m : WeightedMean ℚ) : Prop := ∃ ps : List (ℚ × ℚ), (∀ p ∈ ps, 0 < p.1) ∧ m = empty.addAll ps

/-- Weights above zero sum to zero only for no samples. -/
theorem weightSum_eq_zero_iff {ps : List (ℚ × ℚ)} (hps : ∀ p ∈ ps, 0 < p.1) :
    weightSum ps = 0 ↔ ps = [] := by
  constructor
  · intro h
    by_contra hne
    exact (weightSum_pos hps hne).ne' h
  · rintro rfl
    rfl

theorem merge_ofSums {s t : ℚ} (hs : 0 < s) (ht : 0 < t) (s2 b q t2 c r : ℚ) :
    (ofSums s s2 b q).merge (ofSums t t2 c r) = ofSums (s + t) (s2 + t2) (b + c) (q + r) := by
  have hst : s + t ≠ 0 := by positivity
  simp only [merge, ofSums, beq_iff_eq, hs.ne', ht.ne', if_false, mk.injEq, true_and]
  constructor
  · field_simp
    ring
  · field_simp
    ring

section Positive

variable {ps qs : List (ℚ × ℚ)} (hps : ∀ p ∈ ps, 0 < p.1) (hqs : ∀ p ∈ qs, 0 < p.1)
include hps hqs

theorem merge_ofSamples : (ofSamples ps).merge (ofSamples qs) = ofSamples (ps ++ qs) := by
  have hzero : ∀ {zs : List (ℚ × ℚ)}, (∀ p ∈ zs, 0 < p.1) → ((ofSamples zs).sum = 0 ↔ zs = []) :=
    fun hzs => weightSum_eq_zero_iff hzs
  rcases eq_or_ne qs [] with rfl | hqne
  · simp [merge, hzero hqs]
  rcases eq_or_ne ps [] with rfl | hpne
  · simp [merge, hzero hps, hzero hqs, hqne]
  have hpq := forall_mem_append_pos hps hqs
  have hsum : weightSum (ps ++ qs) = weightSum ps + weightSum qs := by
    simp [weightSum]
  rw [ofSamples_eq_ofSums (weightSum_pos hps hpne).ne', ofSamples_eq_ofSums (weightSum_pos hqs hqne).ne',
    merge_ofSums (weightSum_pos hps hpne) (weightSum_pos hqs hqne),
    ofSamples_eq_ofSums (weightSum_pos hpq (by simp [hpne])).ne', hsum]
  simp

theorem merge_addAll : (empty.addAll ps).merge (empty.addAll qs) = empty.addAll (ps ++ qs) := by
  rw [addAll_empty hps, addAll_empty hqs, addAll_empty (forall_mem_append_pos hps hqs),
    merge_ofSamples hps hqs]

end Positive

theorem ofSamples_perm {ps qs : List (ℚ × ℚ)} (h : ps.Perm qs) : ofSamples ps = ofSamples qs := by
  have hw : weightSum ps = weightSum qs := by rw [weightSum, weightSum, (h.map _).sum_eq]
  have hmean : sampleMean ps = sampleMean qs := by rw [sampleMean, sampleMean, hw, (h.map _).sum_eq]
  simp only [ofSamples, hw, hmean, (h.map _).sum_eq]

section Reachable

variable {a b c : WeightedMean ℚ}

theorem Reachable.merge (ha : a.Reachable) (hb : b.Reachable) : (a.merge b).Reachable := by
  obtain ⟨ps, hps, rfl⟩ := ha
  obtain ⟨qs, hqs, rfl⟩ := hb
  exact ⟨ps ++ qs, forall_mem_append_pos hps hqs, merge_addAll hps hqs⟩

theorem merge_assoc_of_reachable (ha : a.Reachable) (hb : b.Reachable) (hc : c.Reachable) :
    (a.merge b).merge c = a.merge (b.merge c) := by
  obtain ⟨ps, hps, rfl⟩ := ha
  obtain ⟨qs, hqs, rfl⟩ := hb
  obtain ⟨rs, hrs, rfl⟩ := hc
  rw [merge_addAll hps hqs, merge_addAll (forall_mem_append_pos hps hqs) hrs,
    merge_addAll hqs hrs, merge_addAll hps (forall_mem_append_pos hqs hrs), List.append_assoc]

theorem merge_comm_of_reachable (ha : a.Reachable) (hb : b.Reachable) : a.merge b = b.merge a := by
  obtain ⟨ps, hps, rfl⟩ := ha
  obtain ⟨qs, hqs, rfl⟩ := hb
  rw [merge_addAll hps hqs, merge_addAll hqs hps, addAll_empty (forall_mem_append_pos hps hqs),
    addAll_empty (forall_mem_append_pos hqs hps), ofSamples_perm List.perm_append_comm]

end Reachable

end WeightedMean

/-- **Merging accumulators is accumulating the concatenation.** Read in exact rational
arithmetic: merging the `Mean` of `ys` into the `Mean` of `xs` gives the `Mean` of `xs ++ ys`,
count, mean and squared deviations alike, also when either list is empty; merging the
`WeightedMean`s of two lists of samples with weights above zero gives the `WeightedMean` of
their concatenation, weight sums, mean and squared deviations alike. So on the accumulators
that runs reach, merging stays among them and is associative and commutative. -/
theorem Mean.merge_accumulates_concatenation :
    (∀ xs ys : List ℚ, (empty.addAll xs).merge (empty.addAll ys) = empty.addAll (xs ++ ys)) ∧
      (∀ ps qs : List (ℚ × ℚ), (∀ p ∈ ps, 0 < p.1) → (∀ p ∈ qs, 0 < p.1) →
        (WeightedMean.empty.addAll ps).merge (WeightedMean.empty.addAll qs) =
          WeightedMean.empty.addAll (ps ++ qs)) ∧
      (∀ a b c : Mean ℚ, a.Reachable → b.Reachable → c.Reachable →
        (a.merge b).Reachable ∧ (a.merge b).merge c = a.merge (b.merge c) ∧
          a.merge b = b.merge a) ∧
      (∀ a b c : WeightedMean ℚ, a.Reachable → b.Reachable → c.Reachable →
        (a.merge b).Reachable ∧ (a.merge b).merge c = a.merge (b.merge c) ∧
          a.merge b = b.merge a) :=
  ⟨Mean.merge_addAll, fun _ _ hps hqs => WeightedMean.merge_addAll hps hqs,
    fun _ _ _ ha hb hc => ⟨ha.merge hb, Mean.merge_assoc_of_reachable ha hb hc,
      Mean.merge_comm_of_reachable ha hb⟩,
    fun _ _ _ ha hb hc => ⟨ha.merge hb, WeightedMean.merge_assoc_of_reachable ha hb hc,
      WeightedMean.merge_comm_of_reachable ha hb⟩⟩

/-- The samples `2, 4, 4` and `4, 5, 5, 7, 9` merge into the accumulator of all eight (mean
`5`, squared deviations `32`); the samples `2` with weight `1` and `4` with weight `3` merge
into weight sums `4` and `10`, mean `7 / 2` and squared deviations `3`. -/
theorem Mean.merge_accumulates_concatenation_split_samples :
    (∀ p ∈ [((1 : ℚ), (2 : ℚ))], 0 < p.1) ∧ (∀ p ∈ [((3 : ℚ), (4 : ℚ))], 0 < p.1) ∧
      (empty.addAll [(2 : ℚ), 4, 4]).merge (empty.addAll [4, 5, 5, 7, 9]) = ⟨8, 5, 32⟩ ∧
      (WeightedMean.empty.addAll [((1 : ℚ), (2 : ℚ))]).merge
        (WeightedMean.empty.addAll [((3 : ℚ), (4 : ℚ))]) = ⟨4, 10, 7 / 2, 3⟩ := by
  have hps : ∀ p ∈ [((1 : ℚ), (2 : ℚ))], 0 < p.1 := by simp
  have hqs : ∀ p ∈ [((3 : ℚ), (4 : ℚ))], 0 < p.1 := by simp
  obtain ⟨hmean, hweighted, -⟩ := Mean.merge_accumulates_concatenation
  refine ⟨hps, hqs, ?_, ?_⟩
  · rw [hmean, addAll_empty]
    norm_num [ofSamples, sampleMean]
  · rw [hweighted _ _ hps hqs, WeightedMean.addAll_empty (by simp)]
    norm_num [WeightedMean.ofSamples, WeightedMean.sampleMean, WeightedMean.weightSum]

end Histograms
