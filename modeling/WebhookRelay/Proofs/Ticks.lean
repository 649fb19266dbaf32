import WebhookRelay.Proofs.Retries

/-!
# Time counted in nanoseconds

Outside leap seconds a point in time is a number of nanoseconds.  Points are ordered as their
numbers are, and a sum or a difference with a duration is the exact one unless it leaves the
supported range, where it stops at the last point or at the first.  Durations that are longer
than the time arithmetic allows leave that range wherever they start, so that their being cut
off changes nothing.
-/

set_option autoImplicit false

namespace WebhookRelay

theorem Duration.nanos_shorter (d other : Duration) :
    (d.shorter other).nanos = min d.nanos other.nanos := by
  unfold shorter
  split
  · rename_i within
    exact (Nat.min_eq_left within).symm
  · rename_i longer
    exact (Nat.min_eq_right (Nat.le_of_not_le longer)).symm

namespace Timestamp

/-- Nanoseconds since 1970, leap seconds left out. -/
def ticks (t : Timestamp) : Int :=
  t.seconds * nanosPerSecond + t.nanos

def ofTicks (count : Int) : Timestamp :=
  ⟨count / nanosPerSecond, (count % nanosPerSecond).toNat⟩

def supported? (count : Int) : Option Timestamp :=
  if earliest.ticks ≤ count ∧ count ≤ latest.ticks then some (ofTicks count) else none

/-- A supported point in time that is not inside a leap second. -/
structure Plain (t : Timestamp) : Prop where
  supported : t.inRange = true
  ordinary : t.isLeap = false

instance (t : Timestamp) : Decidable t.Plain :=
  decidable_of_iff (t.inRange = true ∧ t.isLeap = false)
    ⟨fun both => ⟨both.1, both.2⟩, fun plain => ⟨plain.supported, plain.ordinary⟩⟩

variable {a b t : Timestamp}

theorem plain_iff :
    t.Plain ↔ (minSeconds ≤ t.seconds ∧ t.seconds ≤ maxSeconds) ∧ t.nanos < nanosPerSecond := by
  constructor
  · rintro ⟨supported, ordinary⟩
    simp only [inRange, Bool.and_eq_true, decide_eq_true_eq] at supported
    simp only [isLeap, decide_eq_false_iff_not, Nat.not_le] at ordinary
    exact ⟨supported.1, ordinary⟩
  · rintro ⟨seconds, nanos⟩
    have whole : nanosPerSecond = 1000000000 := rfl
    refine ⟨?_, ?_⟩
    · simp only [inRange, Bool.and_eq_true, decide_eq_true_eq]
      exact ⟨seconds, by omega⟩
    · simp only [isLeap, decide_eq_false_iff_not, Nat.not_le]
      exact nanos

theorem ticks_ofTicks (count : Int) : (ofTicks count).ticks = count := by
  simp only [ofTicks, ticks, nanosPerSecond]
  omega

theorem plain_ofTicks {count : Int} (low : earliest.ticks ≤ count)
    (high : count ≤ latest.ticks) : (ofTicks count).Plain := by
  rw [plain_iff]
  simp only [ofTicks, ticks, earliest, latest, minSeconds, maxSeconds, nanosPerSecond] at *
  omega

theorem plain_earliest : earliest.Plain := by decide

theorem plain_latest : latest.Plain := by decide

theorem Plain.before_iff_ticks (first : a.Plain) (second : b.Plain) :
    a.before b = true ↔ a.ticks < b.ticks := by
  rw [plain_iff] at first second
  rw [before_iff]
  simp only [ticks, nanosPerSecond] at *
  omega

theorem Plain.atMost_iff_ticks (first : a.Plain) (second : b.Plain) :
    a.atMost b = true ↔ a.ticks ≤ b.ticks := by
  rw [atMost, Bool.not_eq_true', ← Bool.not_eq_true, second.before_iff_ticks first, Int.not_lt]

theorem Plain.earliest_le (plain : t.Plain) : earliest.ticks ≤ t.ticks := by
  rw [plain_iff] at plain
  simp only [ticks, earliest, minSeconds, nanosPerSecond] at *
  omega

theorem Plain.le_latest (plain : t.Plain) : t.ticks ≤ latest.ticks := by
  rw [plain_iff] at plain
  simp only [ticks, latest, maxSeconds, nanosPerSecond] at *
  omega

theorem checked_eq {seconds : Int} {nanos : Nat} (ordinary : nanos < nanosPerSecond) :
    checked seconds nanos = supported? (seconds * nanosPerSecond + nanos) := by
  have same : ofTicks (seconds * nanosPerSecond + nanos) = ⟨seconds, nanos⟩ := by
    rw [eq_iff]
    simp only [ofTicks, nanosPerSecond] at *
    omega
  have range : (minSeconds ≤ seconds ∧ seconds ≤ maxSeconds) ↔
      earliest.ticks ≤ seconds * nanosPerSecond + nanos ∧
        seconds * nanosPerSecond + nanos ≤ latest.ticks := by
    simp only [ticks, earliest, latest, minSeconds, maxSeconds, nanosPerSecond] at *
    omega
  simp only [checked, supported?, same, range]

theorem Plain.plus?_eq (plain : t.Plain) (span : Duration) :
    t.plus? span = supported? (t.ticks + span.nanos) := by
  have nanos := (plain_iff.mp plain).2
  have subsecond : span.subsecond < nanosPerSecond := Nat.mod_lt _ (by decide)
  rw [plus?, plain.ordinary, if_neg Bool.false_ne_true]
  unfold plusParts
  by_cases below : t.nanos + span.subsecond < nanosPerSecond
  · rw [if_pos below, checked_eq below]
    congr 1
    simp only [ticks, Duration.seconds, Duration.subsecond, nanosPerSecond] at *
    omega
  · rw [if_neg below, checked_eq (by omega)]
    congr 1
    simp only [ticks, Duration.seconds, Duration.subsecond, nanosPerSecond] at *
    omega

theorem Plain.minus?_eq (plain : t.Plain) (span : Duration) :
    t.minus? span = supported? (t.ticks - span.nanos) := by
  have nanos := (plain_iff.mp plain).2
  have subsecond : span.subsecond < nanosPerSecond := Nat.mod_lt _ (by decide)
  rw [minus?, plain.ordinary, if_neg Bool.false_ne_true, minusParts]
  by_cases enough : span.subsecond ≤ t.nanos
  · rw [if_pos enough, checked_eq (by omega)]
    congr 1
    simp only [ticks, Duration.seconds, Duration.subsecond, nanosPerSecond] at *
    omega
  · rw [if_neg enough, checked_eq (by omega)]
    congr 1
    simp only [ticks, Duration.seconds, Duration.subsecond, nanosPerSecond] at *
    omega

theorem longestSpan_exceeds : latest.ticks - earliest.ticks < longestSpan.nanos := by decide

/-- A sum is the exact one, up to the last point in time. -/
theorem Plain.plusSaturating (plain : t.Plain) (d : Duration) :
    (t.plusSaturating d).Plain ∧
      (t.plusSaturating d).ticks = min (t.ticks + d.nanos) latest.ticks := by
  have cut := d.nanos_shorter longestSpan
  have wide := longestSpan_exceeds
  have low := plain.earliest_le
  rw [Timestamp.plusSaturating, plain.plus?_eq, supported?]
  split
  · rename_i supported
    refine ⟨plain_ofTicks supported.1 supported.2, ?_⟩
    rw [Option.getD_some, ticks_ofTicks]
    omega
  · refine ⟨plain_latest, ?_⟩
    rw [Option.getD_none]
    omega

theorem Plain.minusSaturating (plain : t.Plain) (d : Duration) :
    (t.minusSaturating d).Plain ∧
      (t.minusSaturating d).ticks = max (t.ticks - d.nanos) earliest.ticks := by
  have cut := d.nanos_shorter longestSpan
  have wide := longestSpan_exceeds
  have high := plain.le_latest
  rw [Timestamp.minusSaturating, plain.minus?_eq, supported?]
  split
  · rename_i supported
    refine ⟨plain_ofTicks supported.1 supported.2, ?_⟩
    rw [Option.getD_some, ticks_ofTicks]
    omega
  · refine ⟨plain_earliest, ?_⟩
    rw [Option.getD_none]
    omega

end Timestamp

end WebhookRelay
