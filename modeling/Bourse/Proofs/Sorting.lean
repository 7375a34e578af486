import Bourse.Order

/-!
# Sorting orders by a key

Two places sort orders by a word key with `List.mergeSort`: a release hands its stops over by
ascending id (`byId`), and a daily summary lists the orders of its day by timestamp.  Both rely
on the sort being stable.  `SortedByKey` says what a stable sort by a key returns, and
`sortedByKey_mergeSort` that the merge sort returns it:

* a permutation of its input;
* in ascending key;
* with the orders of each key in the order the input has them.
-/

namespace Bourse

/-- `out` lists the orders of `os` by ascending key, the orders of one key in their order in
`os`: what a stable sort by the key returns. -/
structure SortedByKey (key : Order → UInt64) (out os : List Order) : Prop where
  perm : out.Perm os
  sorted : out.Pairwise fun a b => key a ≤ key b
  stable : ∀ k, out.filter (key · == k) = os.filter (key · == k)

section

variable (key : Order → UInt64)

theorem key_le_trans (a b c : Order) (hab : decide (key a ≤ key b) = true)
    (hbc : decide (key b ≤ key c) = true) : decide (key a ≤ key c) = true := by
  simp only [decide_eq_true_eq] at hab hbc ⊢
  exact UInt64.le_trans hab hbc

theorem key_le_total (a b : Order) : (decide (key a ≤ key b) || decide (key b ≤ key a)) = true := by
  simp only [Bool.or_eq_true, decide_eq_true_eq]
  exact UInt64.le_total _ _

/-- **Sorting by a key is stable.**  The orders of one key form a sorted sublist of the input,
so the sort keeps them in that order, and it holds as many of them as the input. -/
theorem sortedByKey_mergeSort (os : List Order) :
    SortedByKey key (os.mergeSort fun a b => key a ≤ key b) os where
  perm := List.mergeSort_perm os _
  sorted := by simpa using List.pairwise_mergeSort (key_le_trans key) (key_le_total key) os
  stable k := by
    have hclass : (os.filter (key · == k)).Pairwise fun a b => decide (key a ≤ key b) = true := by
      refine List.pairwise_of_forall_mem_list fun a ha b hb => ?_
      simp only [List.mem_filter, beq_iff_eq] at ha hb
      simp [ha.2, hb.2]
    -- the class of `k` is a sublist of the sort; filtering the sort keeps no more of it
    have hsub := (List.sublist_mergeSort (key_le_trans key) (key_le_total key) hclass
      List.filter_sublist).filter (key · == k)
    rw [List.filter_filter] at hsub
    simp only [Bool.and_self] at hsub
    exact (hsub.eq_of_length ((List.mergeSort_perm os _).filter _).length_eq.symm).symm

end

end Bourse
