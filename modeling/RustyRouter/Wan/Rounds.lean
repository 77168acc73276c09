import Mathlib.Order.WellFounded
import Mathlib.Order.Nat
import RustyRouter.Wan.LeaseTime

/-! The rounds of a renewal that nobody answers.

A renewal starts at T1, and each of its rounds listens for the retry interval. A round
asks again unless the last request is less than a retry interval old. That happens past T2
only, where the intervals have grown, and never in the last round of the lease: so some
request is always broadcast (`rebinds`).

The code counts seconds in 32 bits. That shows once the last window ends after `2 ^ 32`
seconds, which only the last 56 lease times allow (`wraps_iff`). -/
namespace RustyRouter.Wan

/-- The elapsed seconds at which round `n` starts, by a clock that does not wrap. -/
def roundAt (leaseSecs : Nat) : Nat → Nat
  | 0 => t1Secs leaseSecs
  | n + 1 => roundAt leaseSecs n + retryInterval leaseSecs (roundAt leaseSecs n % 2 ^ 32)

/-- A round at `elapsed` asks again. -/
def asksAgain (leaseSecs lastAsk elapsed : Nat) : Prop :=
  retryInterval leaseSecs (elapsed % 2 ^ 32) ≤ (elapsed - lastAsk) % 2 ^ 32

instance (leaseSecs lastAsk elapsed : Nat) : Decidable (asksAgain leaseSecs lastAsk elapsed) :=
  inferInstanceAs (Decidable (_ ≤ _))

/-- The last request up to round `n`. -/
def lastAsk (leaseSecs : Nat) : Nat → Nat
  | 0 => t1Secs leaseSecs
  | n + 1 =>
    if asksAgain leaseSecs (lastAsk leaseSecs n) (roundAt leaseSecs (n + 1)) then roundAt leaseSecs (n + 1)
    else lastAsk leaseSecs n

/-- The requests up to round `n`. -/
def asks (leaseSecs : Nat) : Nat → List Nat
  | 0 => [t1Secs leaseSecs]
  | n + 1 =>
    if asksAgain leaseSecs (lastAsk leaseSecs n) (roundAt leaseSecs (n + 1)) then
      asks leaseSecs n ++ [roundAt leaseSecs (n + 1)]
    else asks leaseSecs n

/-- The lease has run out in round `n`, and not before. -/
structure LapsesAt (leaseSecs n : Nat) : Prop where
  lapsed : leaseSecs ≤ roundAt leaseSecs n
  before : ∀ k < n, roundAt leaseSecs k < leaseSecs

variable {leaseSecs n : Nat}

theorem retryInterval_renewing {elapsed : Nat} (h : elapsed < t2Secs leaseSecs) :
    retryInterval leaseSecs elapsed = max ((t2Secs leaseSecs - elapsed) / 2) 60 := by
  rw [retryInterval, calculateRenewalParams, if_neg (Nat.not_le.mpr h)]

theorem retryInterval_rebinding {elapsed : Nat} (h : t2Secs leaseSecs ≤ elapsed) :
    retryInterval leaseSecs elapsed = max ((leaseSecs - elapsed) / 2) 60 := by
  rw [retryInterval, calculateRenewalParams, if_pos h]

/-! ### When the rounds are -/

theorem roundAt_add_le (leaseSecs n : Nat) : roundAt leaseSecs n + 60 ≤ roundAt leaseSecs (n + 1) :=
  Nat.add_le_add_left (le_retryInterval _ _) _

theorem roundAt_strictMono (leaseSecs : Nat) : StrictMono (roundAt leaseSecs) := by
  apply strictMono_nat_of_lt_succ
  intro n
  have h := roundAt_add_le leaseSecs n
  omega

theorem exists_lapsesAt (leaseSecs : Nat) : ∃ n, LapsesAt leaseSecs n := by
  have hover : ∃ n, leaseSecs ≤ roundAt leaseSecs n := ⟨leaseSecs, (roundAt_strictMono leaseSecs).le_apply⟩
  exact ⟨Nat.find hover, Nat.find_spec hover, fun k hk => Nat.not_le.mp (Nat.find_min hover hk)⟩

/-- Within the lease the clock has not wrapped. -/
theorem roundAt_succ (hlease : leaseSecs < 2 ^ 32) (h : roundAt leaseSecs n < leaseSecs) :
    roundAt leaseSecs (n + 1) = roundAt leaseSecs n + retryInterval leaseSecs (roundAt leaseSecs n) := by
  rw [roundAt, Nat.mod_eq_of_lt (Nat.lt_trans h hlease)]

/-- The renewal outlives its first round. -/
theorem LapsesAt.succ (h : LapsesAt leaseSecs n) (hlease : 0 < leaseSecs) :
    ∃ m, n = m + 1 ∧ roundAt leaseSecs m < leaseSecs := by
  cases n with
  | zero =>
    have hover : leaseSecs ≤ leaseSecs / 2 := h.lapsed
    omega
  | succ m => exact ⟨m, rfl, h.before m (Nat.lt_succ_self m)⟩

/-- The last window ends within a minute after the lease. -/
theorem LapsesAt.lt (h : LapsesAt leaseSecs n) (hshort : 480 ≤ leaseSecs) (hlong : leaseSecs < 2 ^ 32) :
    roundAt leaseSecs n < leaseSecs + 60 := by
  obtain ⟨m, rfl, hm⟩ := h.succ (by omega)
  rw [roundAt_succ hlong hm]
  by_cases hfits : roundAt leaseSecs m + 60 ≤ leaseSecs
  · have hend := retryInterval_fits hfits
    omega
  · have ht2 : t2Secs leaseSecs ≤ roundAt leaseSecs m := by
      unfold t2Secs
      omega
    rw [retryInterval_rebinding ht2]
    omega

/-! ### Which of them ask -/

theorem lastAsk_le (leaseSecs n : Nat) : lastAsk leaseSecs n ≤ roundAt leaseSecs n := by
  induction n with
  | zero => exact Nat.le_refl _
  | succ n ih =>
    have hnext := roundAt_add_le leaseSecs n
    rw [lastAsk]
    split
    · exact Nat.le_refl _
    · omega

theorem lastAsk_mem (leaseSecs n : Nat) : lastAsk leaseSecs n ∈ asks leaseSecs n := by
  induction n with
  | zero => exact List.mem_singleton_self _
  | succ n ih =>
    rw [lastAsk, asks]
    split
    · exact List.mem_append_right _ (List.mem_singleton_self _)
    · exact ih

theorem asks_le_lastAsk (leaseSecs n : Nat) : ∀ elapsed ∈ asks leaseSecs n, elapsed ≤ lastAsk leaseSecs n := by
  induction n with
  | zero =>
    intro elapsed h
    exact Nat.le_of_eq (List.mem_singleton.mp h)
  | succ n ih =>
    rw [lastAsk, asks]
    split
    · intro elapsed h
      rcases List.mem_append.mp h with h | h
      · have hle := ih elapsed h
        have hlast := lastAsk_le leaseSecs n
        have hnext := roundAt_add_le leaseSecs n
        omega
      · exact Nat.le_of_eq (List.mem_singleton.mp h)
    · exact ih

/-- The first request is the one at T1. -/
theorem asks_head (leaseSecs n : Nat) : ∃ rest, asks leaseSecs n = t1Secs leaseSecs :: rest := by
  induction n with
  | zero => exact ⟨[], rfl⟩
  | succ n ih =>
    obtain ⟨rest, ih⟩ := ih
    rw [asks, ih]
    split
    · exact ⟨_, rfl⟩
    · exact ⟨rest, rfl⟩

/-- No two requests are less than a minute apart. -/
theorem asks_spaced (leaseSecs n : Nat) : (asks leaseSecs n).Pairwise fun a b => a + 60 ≤ b := by
  induction n with
  | zero => exact List.pairwise_singleton _ _
  | succ n ih =>
    rw [asks]
    split
    · refine List.pairwise_append.mpr ⟨ih, List.pairwise_singleton _ _, fun a ha b hb => ?_⟩
      rw [List.mem_singleton.mp hb]
      have hle := asks_le_lastAsk leaseSecs n a ha
      have hlast := lastAsk_le leaseSecs n
      have hnext := roundAt_add_le leaseSecs n
      omega
    · exact ih

/-! ### Crossing T2 -/

/-- A round asks, but for one past T2 that comes too soon after the last request. -/
theorem asked_or_skipped (hlease : leaseSecs < 2 ^ 32) (hn : roundAt leaseSecs n < leaseSecs) :
    lastAsk leaseSecs n = roundAt leaseSecs n ∨
      lastAsk leaseSecs n + 60 ≤ roundAt leaseSecs n ∧ t2Secs leaseSecs ≤ roundAt leaseSecs n ∧
        roundAt leaseSecs n - lastAsk leaseSecs n < retryInterval leaseSecs (roundAt leaseSecs n) := by
  cases n with
  | zero => exact .inl rfl
  | succ n =>
    have hminute := roundAt_add_le leaseSecs n
    have hnext := roundAt_succ (n := n) hlease (by omega)
    have hlast := lastAsk_le leaseSecs n
    have hasks : asksAgain leaseSecs (lastAsk leaseSecs n) (roundAt leaseSecs (n + 1)) ↔
        retryInterval leaseSecs (roundAt leaseSecs (n + 1)) ≤
          roundAt leaseSecs (n + 1) - lastAsk leaseSecs n := by
      rw [asksAgain, Nat.mod_eq_of_lt (by omega), Nat.mod_eq_of_lt (by omega)]
    rw [lastAsk]
    split
    · exact .inl rfl
    · rename_i hskip
      rw [hasks, Nat.not_le] at hskip
      by_cases ht2 : t2Secs leaseSecs ≤ roundAt leaseSecs (n + 1)
      · exact .inr ⟨by omega, ht2, hskip⟩
      · -- before T2 the intervals shrink, and every round asks
        rw [retryInterval_renewing (by omega)] at hskip hnext
        omega

/-- **Some request is broadcast** before the lease runs out. -/
theorem rebinds (hshort : 480 ≤ leaseSecs) (hlong : leaseSecs < 2 ^ 32)
    (h : LapsesAt leaseSecs (n + 1)) : t2Secs leaseSecs ≤ lastAsk leaseSecs n := by
  have hn := h.before n (Nat.lt_succ_self n)
  have hover := h.lapsed
  rw [roundAt_succ hlong hn] at hover
  have hroom : t2Secs leaseSecs + 60 ≤ leaseSecs := by
    unfold t2Secs
    omega
  have ht2 : t2Secs leaseSecs ≤ roundAt leaseSecs n := by
    refine Nat.not_lt.mp fun hlt => ?_
    rw [retryInterval_renewing hlt] at hover
    omega
  rcases asked_or_skipped hlong hn with heq | ⟨hminute, -, hskip⟩
  · rw [heq]
    exact ht2
  · -- a round that holds its request back does not end the lease
    rw [retryInterval_rebinding ht2] at hover hskip
    omega

/-! ### Past the end of the clock -/

/-- Where the last window ends past the end of the clock, the round after it takes the lease
to be fresh, and the one after that asks. -/
theorem asks_late (hlease : 480 ≤ leaseSecs) (hlong : leaseSecs < 2 ^ 32)
    (h : LapsesAt leaseSecs (n + 1)) (hwraps : 2 ^ 32 ≤ roundAt leaseSecs (n + 1)) :
    roundAt leaseSecs (n + 1) % 2 ^ 32 < leaseSecs ∧ roundAt leaseSecs (n + 2) % 2 ^ 32 < leaseSecs ∧
      ∃ elapsed ∈ asks leaseSecs (n + 2), leaseSecs ≤ elapsed := by
  have hend := h.lt hlease hlong
  have hask := rebinds hlease hlong h
  have ht2 : 120 < t2Secs leaseSecs ∧ t2Secs leaseSecs < leaseSecs := by
    unfold t2Secs
    omega
  obtain ⟨late, hlate⟩ := Nat.exists_eq_add_of_le hwraps
  have hmod : roundAt leaseSecs (n + 1) % 2 ^ 32 = late := by
    rw [hlate, Nat.add_mod_left, Nat.mod_eq_of_lt (by omega)]
  have hnext : roundAt leaseSecs (n + 2) = roundAt leaseSecs (n + 1) + retryInterval leaseSecs late := by
    rw [roundAt, hmod]
  rw [retryInterval_renewing (by omega)] at hnext
  have hmod' : roundAt leaseSecs (n + 2) % 2 ^ 32 = late + max ((t2Secs leaseSecs - late) / 2) 60 := by
    rw [hnext, hlate, Nat.add_assoc, Nat.add_mod_left, Nat.mod_eq_of_lt (by omega)]
  refine ⟨by omega, by omega, lastAsk leaseSecs (n + 2), lastAsk_mem leaseSecs (n + 2), ?_⟩
  have hlast' := lastAsk_le leaseSecs (n + 1)
  have hask' : t2Secs leaseSecs ≤ lastAsk leaseSecs (n + 1) := by
    rw [lastAsk]
    split <;> omega
  have hagain : asksAgain leaseSecs (lastAsk leaseSecs (n + 1)) (roundAt leaseSecs (n + 2)) := by
    rw [asksAgain, hmod', retryInterval_renewing (by omega), Nat.mod_eq_of_lt (by omega)]
    omega
  rw [lastAsk, if_pos hagain]
  show leaseSecs ≤ roundAt leaseSecs (n + 2)
  omega

/-- Where a walk over the rounds of the lease ends. -/
def lapseOf (leaseSecs : Nat) : Nat → Nat → Nat
  | 0, elapsed => elapsed
  | fuel + 1, elapsed =>
    if leaseSecs ≤ elapsed then elapsed
    else lapseOf leaseSecs fuel (elapsed + retryInterval leaseSecs elapsed)

theorem lapseOf_roundAt (hlease : leaseSecs < 2 ^ 32) (fuel m : Nat) :
    ∃ n, lapseOf leaseSecs fuel (roundAt leaseSecs m) = roundAt leaseSecs (m + n) ∧
      ∀ k < n, roundAt leaseSecs (m + k) < leaseSecs := by
  induction fuel generalizing m with
  | zero => exact ⟨0, rfl, fun k hk => absurd hk (Nat.not_lt_zero k)⟩
  | succ fuel ih =>
    rw [lapseOf]
    split
    · exact ⟨0, rfl, fun k hk => absurd hk (Nat.not_lt_zero k)⟩
    · rename_i hlt
      have hm := Nat.not_le.mp hlt
      obtain ⟨n, hend, hbefore⟩ := ih (m + 1)
      rw [← roundAt_succ hlease hm, hend]
      refine ⟨n + 1, by rw [Nat.add_assoc, Nat.add_comm 1], fun k hk => ?_⟩
      cases k with
      | zero => exact hm
      | succ k =>
        rw [Nat.add_comm k, ← Nat.add_assoc]
        exact hbefore k (Nat.lt_of_succ_lt_succ hk)

/-- A walk that comes to the end of the lease ends where the renewal does. -/
theorem LapsesAt.eq_lapseOf (h : LapsesAt leaseSecs n) (hlease : leaseSecs < 2 ^ 32) {fuel : Nat}
    (hover : leaseSecs ≤ lapseOf leaseSecs fuel (t1Secs leaseSecs)) :
    roundAt leaseSecs n = lapseOf leaseSecs fuel (t1Secs leaseSecs) := by
  obtain ⟨m, hend, hbefore⟩ := lapseOf_roundAt hlease fuel 0
  simp only [Nat.zero_add, roundAt] at hend hbefore
  rw [hend] at hover ⊢
  have hle : m ≤ n := Nat.not_lt.mp fun hlt => absurd (hbefore n hlt) (Nat.not_lt.mpr h.lapsed)
  have hge : n ≤ m := Nat.not_lt.mp fun hlt => absurd (h.before m hlt) (Nat.not_lt.mpr hover)
  rw [Nat.le_antisymm hle hge]

/-- The lease times within a minute of the end of the clock. -/
theorem lapseOf_longest : ∀ short < 59,
    2 ^ 32 - 1 - short ≤ lapseOf (2 ^ 32 - 1 - short) 64 (t1Secs (2 ^ 32 - 1 - short)) ∧
      (2 ^ 32 ≤ lapseOf (2 ^ 32 - 1 - short) 64 (t1Secs (2 ^ 32 - 1 - short)) ↔ short < 56) := by
  decide +kernel

/-- The 56 longest lease times, and no others, are the ones the clock is too short for. -/
theorem wraps_iff (hshort : 480 ≤ leaseSecs) (hlong : leaseSecs < 2 ^ 32) (h : LapsesAt leaseSecs n) :
    2 ^ 32 ≤ roundAt leaseSecs n ↔ 2 ^ 32 - 56 ≤ leaseSecs := by
  by_cases hminute : leaseSecs + 60 ≤ 2 ^ 32
  · have hend := h.lt hshort hlong
    omega
  · obtain ⟨short, hleft⟩ := Nat.exists_eq_add_of_le (Nat.le_sub_one_of_lt hlong)
    have hsecs : leaseSecs = 2 ^ 32 - 1 - short := by omega
    obtain ⟨hover, hwraps⟩ := lapseOf_longest short (by omega)
    rw [← hsecs] at hover hwraps
    rw [h.eq_lapseOf hlong hover, hwraps]
    omega

end RustyRouter.Wan
