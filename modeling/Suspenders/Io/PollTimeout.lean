import Mathlib.Data.Int.DivMod
import Mathlib.Tactic.Ring
import Suspenders.Base

/-!
# Timeouts of `poll`

`poll` and `io_uring` take their timeout as an `int` of milliseconds, and a negative one means to wait forever.
The remaining time is a number of nanoseconds in 64 bits, and two places turn it into a timeout.  `s_io_block_poll`
tests whether the milliseconds fit and adds one; the idle path of `s_worker_loop` converts first and tests
afterwards.

The conversion `(int)` takes a number modulo `2 ^ 32`, and the sum of two `int`s must not overflow.
-/

namespace Suspenders.Io

/-- `INT_MAX` -/
def intMax : ℕ := 2147483647

/-- `(int)x` -/
def toInt (x : UInt64) : ℤ := Int.bmod x.toNat (2 ^ 32)

/-- The sum of two `int`s, `none` if it overflows. -/
def addInt (a b : ℤ) : Option ℤ :=
  if -(intMax + 1 : ℤ) ≤ a + b ∧ a + b ≤ intMax then some (a + b) else none

/-- The `timeout` of `s_io_block_poll`; a deadline of `0` is none. -/
def blockTimeout (dl now : UInt64) : Option ℤ :=
  if dl = 0 then some (-1)
  else
    let ms := (dl - now) / 1000000
    if ms > UInt64.ofNat intMax then some intMax else addInt (toInt ms) 1

/-- `s_io_block_poll` with deadline `dl`, where `poll` returns `n` for each timeout; `none` if a sum overflows. -/
def ioBlockPoll (dl now : UInt64) (poll : ℤ → ℤ) : Option Code :=
  if dl ≠ 0 ∧ dl ≤ now then some .timedout
  else
    (blockTimeout dl now).map fun timeout =>
      let n := poll timeout
      if n = 0 then .timedout
      else if n < 0 then .error
      else .ok

/-- The `timeout_ms` of the idle path of `s_worker_loop`; `next` is the first deadline in the timer heap. -/
def idleTimeout (next : Option UInt64) (now : UInt64) : ℤ :=
  match next with
  | none => -1
  | some next =>
    if next ≤ now then 0
    else
      let timeout := toInt ((next - now) / 1000000)
      if timeout < 1 then 1 else timeout

/-! ## Conversions -/

lemma toInt_of_le {x : UInt64} (h : x.toNat ≤ intMax) : toInt x = x.toNat := by
  unfold intMax at h
  have hlo : -(2 ^ 32 : ℤ) ≤ x.toNat * 2 := by omega
  have hhi : (x.toNat : ℤ) * 2 < 2 ^ 32 := by omega
  exact Int.bmod_eq_of_le_mul_two hlo hhi

lemma toInt_le (x : UInt64) : toInt x ≤ intMax := by
  have h : toInt x < (2 ^ 32 + 1) / 2 := Int.bmod_lt (Nat.two_pow_pos 32)
  unfold intMax
  omega

/-- A conversion does not make a number larger. -/
lemma toInt_le_toNat (x : UInt64) : toInt x ≤ x.toNat := by
  by_cases h : x.toNat ≤ intMax
  · exact (toInt_of_le h).le
  · have := toInt_le x
    omega

/-- The milliseconds that remain. -/
lemma toNat_div_sub {now dl : UInt64} (h : now < dl) :
    ((dl - now) / 1000000).toNat = (dl.toNat - now.toNat) / 1000000 := by
  rw [UInt64.toNat_div, UInt64.toNat_sub_of_le _ _ (UInt64.le_of_lt h)]
  rfl

/-! ## The timeout of a blocking wait -/

/-- The timeout covers the remaining time. -/
def Covers (t : ℤ) (rest : ℕ) : Prop :=
  (rest ≤ t * 1000000 ∧ t * 1000000 ≤ rest + 1000000) ∨ (t = intMax ∧ intMax * 1000000 < rest)

/-- A timeout that `poll` does not take for no timeout. -/
def Positive (t : ℤ) : Prop := 1 ≤ t ∧ t ≤ intMax

variable {now dl : UInt64}

lemma blockTimeout_of_lt (h : now < dl) :
    blockTimeout dl now =
      if intMax < (dl.toNat - now.toNat) / 1000000 then some (intMax : ℤ)
      else addInt ((dl.toNat - now.toNat) / 1000000 : ℕ) 1 := by
  have hdl : dl ≠ 0 := by
    rintro rfl
    exact absurd h (UInt64.not_lt_zero)
  have hcmp : UInt64.ofNat intMax < (dl - now) / 1000000 ↔ intMax < (dl.toNat - now.toNat) / 1000000 := by
    rw [UInt64.lt_iff_toNat_lt, toNat_div_sub h]
    rfl
  simp only [blockTimeout, if_neg hdl, gt_iff_lt, hcmp]
  split
  · rfl
  · next hle =>
    rw [← toNat_div_sub h] at hle ⊢
    rw [toInt_of_le (Nat.not_lt.mp hle)]

/-- The timeout is good unless the remaining milliseconds are exactly `INT_MAX`. -/
lemma blockTimeout_spec (h : now < dl) :
    (∃ t, blockTimeout dl now = some t ∧ Positive t ∧ Covers t (dl.toNat - now.toNat)) ↔
      (dl.toNat - now.toNat) / 1000000 ≠ intMax := by
  have hmod := Nat.div_add_mod (dl.toNat - now.toNat) 1000000
  have hlt := Nat.mod_lt (dl.toNat - now.toNat) (show 0 < 1000000 by decide)
  rw [blockTimeout_of_lt h]
  generalize dl.toNat - now.toNat = rest at *
  generalize rest / 1000000 = ms at *
  unfold addInt Positive Covers intMax
  constructor
  · rintro ⟨t, ht, -, -⟩ rfl
    simp at ht
  · intro hne
    by_cases hms : 2147483647 < ms
    · exact ⟨2147483647, if_pos hms, by omega, .inr (by omega)⟩
    · exact ⟨ms + 1, by rw [if_neg hms, if_pos (by omega)], by omega, .inl (by omega)⟩

/-- A blocking wait overflows for one number of remaining milliseconds only. -/
lemma ioBlockPoll_eq_none (poll : ℤ → ℤ) :
    ioBlockPoll dl now poll = none ↔ now < dl ∧ (dl.toNat - now.toNat) / 1000000 = intMax := by
  by_cases h : now < dl
  · have hpast : ¬ (dl ≠ 0 ∧ dl ≤ now) := fun hp => absurd hp.2 (UInt64.not_le.mpr h)
    have hspec := blockTimeout_spec h
    rw [ioBlockPoll, if_neg hpast, Option.map_eq_none_iff]
    constructor
    · intro hnone
      exact ⟨h, not_ne_iff.mp fun hne => by simpa [hnone] using hspec.mpr hne⟩
    · rintro ⟨-, hms⟩
      rw [blockTimeout_of_lt h, hms]
      rfl
  · have hpast : dl ≤ now := UInt64.not_lt.mp h
    simp only [h, false_and, iff_false]
    by_cases hdl : dl = 0
    · simp [ioBlockPoll, blockTimeout, hdl]
    · simp [ioBlockPoll, hdl, hpast]

/-! ## The timeout of an idle worker -/

/-- The timeout of an idle worker is positive and not late, for every deadline. -/
lemma idleTimeout_spec {next : UInt64} (h : now < next) :
    Positive (idleTimeout (some next) now) ∧
      (idleTimeout (some next) now * 1000000 ≤ (next.toNat - now.toNat : ℕ) ∨
        idleTimeout (some next) now = 1) := by
  have hnat := toNat_div_sub h
  have hle := toInt_le ((next - now) / 1000000)
  have hnot := toInt_le_toNat ((next - now) / 1000000)
  simp only [idleTimeout, UInt64.not_le.mpr h, if_false]
  generalize toInt ((next - now) / 1000000) = t at *
  unfold Positive intMax at *
  split <;> omega

/-- Both timeouts are positive and not late if and only if the remaining time is not `INT_MAX` milliseconds. -/
theorem poll_timeouts_positive (h : now < dl) :
    ((∃ t, blockTimeout dl now = some t ∧ Positive t ∧ Covers t (dl.toNat - now.toNat)) ∧
      Positive (idleTimeout (some dl) now) ∧
      (idleTimeout (some dl) now * 1000000 ≤ (dl.toNat - now.toNat : ℕ) ∨ idleTimeout (some dl) now = 1)) ↔
    (dl.toNat - now.toNat) / 1000000 ≠ intMax := by
  have hidle := idleTimeout_spec h
  rw [blockTimeout_spec h]
  exact and_iff_left hidle

/-- A millisecond and a half remains: `poll` waits for two and the idle worker for one. -/
theorem poll_timeouts_positive_short :
    (blockTimeout 1500000 0 = some 2 ∧ idleTimeout (some 1500000) 0 = 1) ∧
      ∃ t, blockTimeout 1500000 0 = some t ∧ Positive t ∧ Covers t 1500000 := by
  have h : (0 : UInt64) < 1500000 := by decide
  exact ⟨by decide, ((poll_timeouts_positive h).mpr (by decide)).1⟩

/-- `INT_MAX` milliseconds remain, and one more does not fit. -/
theorem block_poll_overflows :
    ¬ ∀ now dl : UInt64, now < dl →
      ∃ t, blockTimeout dl now = some t ∧ Positive t ∧ Covers t (dl.toNat - now.toNat) := by
  intro h
  obtain ⟨t, ht, -, -⟩ := h 0 2147483647000000 (by decide)
  have hnone : blockTimeout 2147483647000000 0 = none := by decide
  rw [hnone] at ht
  cases ht

end Suspenders.Io
