import Mathlib.Algebra.BigOperators.Group.List.Basic
import Mathlib.Algebra.GroupWithZero.Nat

/-! One's complement sums.

Words are numbers up to `m`, all ones. A sum that is too large for a word has its carry
brought round and added at the low end. That is arithmetic modulo `m` in which zero has two
representations, and a sum is the zero word only where all words are: `residue` picks the
word that stands for a number. So the carries may be brought round after each addition, as
`sum` does, or all at the end, as `fold` does; and a word list is completed to the sum `m`
by the complement of its sum, wherever the complement is put. -/
namespace RustyRouter.OnesComplement

variable (m : Nat)

/-- The carry, added at the low end. -/
def carry (s : Nat) : Nat := s / (m + 1) + s % (m + 1)

def add (a b : Nat) : Nat := carry m (a + b)

def sum (ws : List Nat) : Nat := ws.foldl (add m) 0

def complement (a : Nat) : Nat := m - a

/-- Carries brought round until the number is a word, `fuel` times at most. -/
def fold : Nat → Nat → Nat
  | 0, s => s
  | fuel + 1, s => if s ≤ m then s else fold fuel (carry m s)

/-- The word that stands for a number. -/
def residue (s : Nat) : Nat := if s = 0 then 0 else (s - 1) % m + 1

variable {m} {s a b : Nat} {ws : List Nat}

theorem residue_le (hm : 0 < m) : residue m s ≤ m := by
  unfold residue
  split
  · exact Nat.zero_le m
  · exact Nat.mod_lt _ hm

theorem residue_pos (hs : 0 < s) : 0 < residue m s := by
  rw [residue, if_neg (Nat.pos_iff_ne_zero.mp hs)]
  exact Nat.succ_pos _

theorem residue_of_le (hs : s ≤ m) : residue m s = s := by
  unfold residue
  split
  · rename_i hzero
    exact hzero.symm
  · rw [Nat.mod_eq_of_lt (by omega)]
    omega

/-- Multiples of `m` do not count, except that they turn no other number to zero. -/
theorem residue_add_mul (hs : 0 < s) (q : Nat) : residue m (s + m * q) = residue m s := by
  have hpred : s + m * q - 1 = s - 1 + m * q := by omega
  rw [residue, residue, if_neg (by omega), if_neg (by omega), hpred, Nat.add_mul_mod_self_left]

theorem eq_residue_add_mul (hs : 0 < s) : s = residue m s + m * ((s - 1) / m) := by
  have hdiv := Nat.mod_add_div (s - 1) m
  rw [residue, if_neg (by omega)]
  omega

theorem residue_residue_add : residue m (residue m s + b) = residue m (s + b) := by
  rcases Nat.eq_zero_or_pos s with rfl | hs
  · rfl
  · have hsplit : s + b = residue m s + b + m * ((s - 1) / m) := by
      have heq := eq_residue_add_mul (m := m) hs
      omega
    have hpos := residue_pos (m := m) hs
    rw [hsplit, residue_add_mul (by omega)]

/-! ### Sums -/

theorem residue_carry : residue m (carry m s) = residue m s := by
  rcases Nat.eq_zero_or_pos s with rfl | hs
  · simp [carry]
  · have hdiv := Nat.div_add_mod s (m + 1)
    have hsplit : s = carry m s + m * (s / (m + 1)) := by
      rw [Nat.add_mul, Nat.one_mul] at hdiv
      rw [carry]
      omega
    have hpos : 0 < carry m s := by
      by_contra hzero
      have hquot : s / (m + 1) = 0 := (Nat.add_eq_zero_iff.mp (Nat.eq_zero_of_not_pos hzero)).1
      rw [hquot, Nat.mul_zero] at hsplit
      omega
    have hresidue := residue_add_mul (m := m) hpos (s / (m + 1))
    rw [← hsplit] at hresidue
    exact hresidue.symm

/-- The carry of two words leaves a word. -/
theorem add_le (ha : a ≤ m) (hb : b ≤ m) : add m a b ≤ m := by
  rw [add, carry]
  by_cases hlt : a + b < m + 1
  · rw [Nat.div_eq_of_lt hlt, Nat.mod_eq_of_lt hlt]
    omega
  · have hquot : (a + b) / (m + 1) = 1 := Nat.div_eq_of_lt_le (by omega) (by omega)
    have hdiv := Nat.div_add_mod (a + b) (m + 1)
    rw [hquot] at hdiv ⊢
    omega

theorem add_eq_residue (ha : a ≤ m) (hb : b ≤ m) : add m a b = residue m (a + b) := by
  rw [← residue_of_le (add_le ha hb), add, residue_carry]

theorem foldl_add (hm : 0 < m) (hws : ∀ w ∈ ws, w ≤ m) :
    ws.foldl (add m) (residue m s) = residue m (s + ws.sum) := by
  induction ws generalizing s with
  | nil => rfl
  | cons w ws ih =>
    rw [List.foldl_cons, add_eq_residue (residue_le hm) (hws w List.mem_cons_self), residue_residue_add,
      ih fun w' hw' => hws w' (List.mem_cons_of_mem w hw'), List.sum_cons, Nat.add_assoc]

/-- Carries brought round at each addition. -/
theorem sum_eq_residue (hm : 0 < m) (hws : ∀ w ∈ ws, w ≤ m) : sum m ws = residue m ws.sum := by
  have h := foldl_add (s := 0) hm hws
  rw [Nat.zero_add] at h
  exact h

/-- Carries brought round at the end. -/
theorem fold_eq_residue (hm : 0 < m) {fuel : Nat} (hfuel : s ≤ fuel) : fold m fuel s = residue m s := by
  induction fuel generalizing s with
  | zero =>
    obtain rfl : s = 0 := Nat.le_zero.mp hfuel
    rfl
  | succ fuel ih =>
    unfold fold
    split
    · rename_i hle
      exact (residue_of_le hle).symm
    · rename_i hgt
      have hdiv := Nat.div_add_mod s (m + 1)
      have hquot : 0 < s / (m + 1) := Nat.div_pos (by omega) (Nat.succ_pos m)
      have hmul : s / (m + 1) ≤ m * (s / (m + 1)) := Nat.le_mul_of_pos_left _ hm
      have hless : carry m s ≤ fuel := by
        rw [Nat.add_mul, Nat.one_mul] at hdiv
        rw [carry]
        omega
      rw [ih hless, residue_carry]

/-- **The complement completes the sum.** -/
theorem residue_add_complement (hm : 0 < m) (hs : 0 < s) :
    residue m (s + complement m (residue m s)) = m := by
  have hle := residue_le (s := s) hm
  have heq := eq_residue_add_mul (m := m) hs
  have htotal : s + complement m (residue m s) = m + m * ((s - 1) / m) := by
    rw [complement]
    omega
  rw [htotal, residue_add_mul hm, residue_of_le (Nat.le_refl m)]

end RustyRouter.OnesComplement
