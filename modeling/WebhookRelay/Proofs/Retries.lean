import WebhookRelay.Proofs.Attempts

/-!
# When a job is tried again

Points in time are ordered by second and then by fraction, leap seconds included.  A delay
of the backoff is never zero unless the base delay is, so a point in time and a delay have a
later sum, also where that stops at the last point that is supported.  A failed attempt
therefore puts the job off until after the time of the attempt.
-/

set_option autoImplicit false

namespace WebhookRelay

namespace Timestamp

variable {a b c : Timestamp}

theorem eq_iff : a = b ↔ a.seconds = b.seconds ∧ a.nanos = b.nanos := by
  cases a
  cases b
  simp

theorem before_iff : a.before b = true ↔
    a.seconds < b.seconds ∨ a.seconds = b.seconds ∧ a.nanos < b.nanos := by
  simp [before]

theorem atMost_iff : a.atMost b = true ↔
    a.seconds < b.seconds ∨ a.seconds = b.seconds ∧ a.nanos ≤ b.nanos := by
  simp only [atMost, Bool.not_eq_true', ← Bool.not_eq_true, before_iff]
  omega

theorem before_of_atMost_of_before (first : a.atMost b = true) (second : b.before c = true) :
    a.before c = true := by
  rw [atMost_iff] at first
  rw [before_iff] at *
  omega

theorem atMost_trans (first : a.atMost b = true) (second : b.atMost c = true) :
    a.atMost c = true := by
  rw [atMost_iff] at *
  omega

theorem not_atMost_of_before (earlier : a.before b = true) : b.atMost a = false := by
  simp [atMost, earlier]

theorem plusParts_eq_some {seconds : Int} {nanos spanSeconds spanNanos : Nat}
    (sum : plusParts seconds nanos spanSeconds spanNanos = some c) :
    (nanos + spanNanos < nanosPerSecond ∧ c.seconds = seconds + spanSeconds ∧
      c.nanos = nanos + spanNanos) ∨
    (nanosPerSecond ≤ nanos + spanNanos ∧ c.seconds = seconds + spanSeconds + 1) := by
  simp only [plusParts, checked] at sum
  split at sum
  · rename_i below
    split at sum
    · cases sum
      exact Or.inl ⟨below, rfl, rfl⟩
    · cases sum
  · rename_i notBelow
    split at sum
    · cases sum
      exact Or.inr ⟨Nat.not_lt.mp notBelow, rfl⟩
    · cases sum

/-- A sum is later, wherever in a second or a leap second it starts. -/
theorem before_plus? {span : Duration} (positive : 0 < span.nanos)
    (sum : a.plus? span = some c) : a.before c = true := by
  have parts : 0 < span.seconds ∨ 0 < span.subsecond := by
    simp only [Duration.seconds, Duration.subsecond, nanosPerSecond]
    omega
  have whole : nanosPerSecond = 1000000000 := rfl
  rw [before_iff]
  unfold plus? at sum
  by_cases leap : a.isLeap = true
  · rw [if_pos leap] at sum
    simp only [isLeap, decide_eq_true_eq] at leap
    split at sum
    · rename_i leaves
      rcases plusParts_eq_some sum with ⟨_, seconds, _⟩ | ⟨_, seconds⟩ <;> omega
    · rename_i stays
      cases sum
      exact Or.inr ⟨rfl, show a.nanos < a.nanos + span.subsecond by omega⟩
  · rw [if_neg leap] at sum
    simp only [isLeap, decide_eq_true_eq] at leap
    rcases plusParts_eq_some sum with ⟨_, seconds, nanos⟩ | ⟨_, seconds⟩ <;> omega

/-- A point in time before the last one has a later sum with any delay, saturated or not. -/
theorem before_plusSaturating {delay : Duration} (positive : 0 < delay.nanos)
    (early : a.before latest = true) : a.before (a.plusSaturating delay) = true := by
  have span : 0 < (delay.shorter longestSpan).nanos := by
    unfold Duration.shorter
    split
    · exact positive
    · exact Nat.lt_of_lt_of_eq (by decide : 0 < longestSpan.nanos) rfl
  unfold plusSaturating
  cases sum : a.plus? (delay.shorter longestSpan) with
  | none => exact early
  | some later => exact before_plus? span sum

end Timestamp

namespace Backoff

variable {policy : Backoff}

theorem scaled_pos (positive : 0 < policy.baseDelay.nanos) (exponent : Nat) :
    0 < (policy.scaled exponent).nanos := by
  have factored : 0 < factor exponent := by
    unfold factor
    split
    · exact Nat.pow_pos (by decide)
    · decide
  have product := Nat.mul_pos positive factored
  have most : 0 < Duration.maxNanos := by decide
  simp only [scaled, Duration.scale, Duration.saturating]
  omega

theorem delay_pos (positive : 0 < policy.baseDelay.nanos) (attempt : UInt32) :
    0 < (policy.delay attempt).nanos := by
  have longest : 0 < policy.maxDelay.nanos := scaled_pos positive _
  have doubled := scaled_pos positive (attempt.toNat - 1)
  unfold delay Duration.shorter
  split <;> split <;> assumption

end Backoff

/-- A job is no longer due after an attempt, and does not become due before the time of the
attempt is over. -/
theorem Processor.not_isDue_attempted {processor : Processor}
    (positive : 0 < processor.backoff.baseDelay.nanos) {time now : Timestamp}
    (since : time.atMost now = true) (early : now.before .latest = true) (job : Job)
    (result : Except QueueError Unit) :
    (processor.attempted now job result).isDue time = false := by
  cases result with
  | ok done => rfl
  | error error =>
      simp only [attempted, Job.recordFailure, Job.isDue]
      split
      · rfl
      · have later := Timestamp.before_plusSaturating
          (Backoff.delay_pos positive job.beginAttempt.attempts) early
        have putOff := Timestamp.not_atMost_of_before
          (Timestamp.before_of_atMost_of_before since later)
        simp only [putOff, Bool.and_false]

end WebhookRelay
