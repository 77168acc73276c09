import Mathlib.Data.BitVec

/-! Runs of equal bits.

A mask is a word that begins with ones and goes on with zeros only. The lengths of the run
of ones at its high end and of the run of zeros at its low end then add up to the width of
the word, and only the masks have this property (`sum_eq_iff`): in any other word a zero
that ends the first run and a one that ends the second leave a gap between them. -/
namespace RustyRouter.Bits

/-- The first `k` positions satisfy `p`, and the one after them, if there is one, does not. -/
theorem takeWhile_range_length {n k : Nat} {p : Nat → Bool} :
    ((List.range n).takeWhile p).length = k ↔
      k ≤ n ∧ (∀ i < k, p i = true) ∧ (k < n → p k = false) := by
  induction n generalizing k p with
  | zero =>
    simp only [List.range_zero, List.takeWhile_nil, List.length_nil]
    refine ⟨fun h => ⟨by omega, fun i hi => by omega, fun hlt => by omega⟩, fun h => by omega⟩
  | succ n ih =>
    rw [List.range_succ_eq_map]
    cases hp : p 0 with
    | false =>
      rw [List.takeWhile_cons_of_neg (by simp [hp]), List.length_nil]
      constructor
      · intro h
        subst h
        exact ⟨Nat.zero_le _, fun i hi => by omega, fun _ => hp⟩
      · intro h
        by_contra hk
        have htrue := h.2.1 0 (by omega)
        rw [hp] at htrue
        contradiction
    | true =>
      rw [List.takeWhile_cons_of_pos hp, List.length_cons, List.takeWhile_map, List.length_map]
      cases k with
      | zero =>
        refine ⟨fun h => by omega, fun h => ?_⟩
        have hfalse := h.2.2 (by omega)
        rw [hp] at hfalse
        contradiction
      | succ k =>
        rw [Nat.add_right_cancel_iff, ih]
        refine ⟨fun h => ⟨by omega, fun i hi => ?_, fun hlt => h.2.2 (by omega)⟩,
          fun h => ⟨by omega, fun i hi => h.2.1 (i + 1) (by omega), fun hlt => h.2.2 (by omega)⟩⟩
        cases i with
        | zero => exact hp
        | succ i => exact h.2.1 i (by omega)

variable {w : Nat} {x : BitVec w} {n : Nat}

/-- The length of the run of ones at the high end. -/
def leadingOnes (x : BitVec w) : Nat := ((List.range w).takeWhile fun i => x.getMsbD i).length

/-- The length of the run of zeros at the low end. -/
def trailingZeros (x : BitVec w) : Nat := ((List.range w).takeWhile fun i => !x.getLsbD i).length

/-- `n` ones, followed by zeros. -/
def IsMask (x : BitVec w) (n : Nat) : Prop := n ≤ w ∧ ∀ i < w, x.getMsbD i = decide (i < n)

theorem IsMask.leadingOnes_eq (h : IsMask x n) : leadingOnes x = n := by
  apply takeWhile_range_length.mpr
  refine ⟨h.1, fun i hi => ?_, fun hlt => ?_⟩
  · rw [h.2 i (Nat.lt_of_lt_of_le hi h.1), decide_eq_true hi]
  · rw [h.2 n hlt, decide_eq_false (Nat.lt_irrefl n)]

theorem IsMask.trailingZeros_eq (h : IsMask x n) : trailingZeros x = w - n := by
  have hbit : ∀ i < w, x.getLsbD i = decide (w - 1 - i < n) := by
    intro i hi
    rw [BitVec.getLsbD_eq_getMsbD, decide_eq_true hi, Bool.true_and]
    exact h.2 _ (by omega)
  have hle := h.1
  apply takeWhile_range_length.mpr
  refine ⟨Nat.sub_le _ _, fun i hi => ?_, fun hlt => ?_⟩
  · rw [hbit i (by omega), decide_eq_false (by omega), Bool.not_false]
  · rw [hbit _ hlt, decide_eq_true (by omega), Bool.not_true]

/-- Two runs that fill the word leave no room for a hole. -/
theorem isMask_of_sum_eq (h : leadingOnes x + trailingZeros x = w) : IsMask x (leadingOnes x) := by
  obtain ⟨hle, hones, -⟩ := takeWhile_range_length.mp (show leadingOnes x = leadingOnes x from rfl)
  obtain ⟨-, hzeros, -⟩ := takeWhile_range_length.mp (show trailingZeros x = trailingZeros x from rfl)
  refine ⟨hle, fun i hi => ?_⟩
  by_cases hlt : i < leadingOnes x
  · rw [hones i hlt, decide_eq_true hlt]
  · have hzero := hzeros (w - 1 - i) (by omega)
    rw [decide_eq_false hlt, BitVec.getMsbD, decide_eq_true hi, Bool.true_and]
    simpa using hzero

/-- **Only masks are filled by their two runs.** -/
theorem sum_eq_iff : leadingOnes x + trailingZeros x = w ↔ ∃ n, IsMask x n := by
  constructor
  · intro h
    exact ⟨_, isMask_of_sum_eq h⟩
  · intro ⟨n, h⟩
    have hle := h.1
    rw [h.leadingOnes_eq, h.trailingZeros_eq]
    omega

/-- The mask of `n` ones, as a shift. -/
theorem isMask_allOnes_shiftLeft (hle : n ≤ w) : IsMask (BitVec.allOnes w <<< (w - n)) n := by
  refine ⟨hle, fun i hi => ?_⟩
  rw [BitVec.getMsbD_shiftLeft, BitVec.getMsbD_allOnes]
  apply decide_eq_decide.mpr
  omega

end RustyRouter.Bits
