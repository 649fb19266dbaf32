import WebhookRelay.Proofs.Days
import WebhookRelay.Proofs.Numerals
import WebhookRelay.Time.Rfc3339

/-!
# Written times

Every supported point in time is written so that reading gives it back, a leap second
included: it is written as second 60, and second 60 stands behind second 59.  A fraction
that runs on behind another second of a minute cannot be told from the next second, and
reads as that one.
-/

set_option autoImplicit false

namespace WebhookRelay

/-! ## Numbers at the head of a text -/

namespace Rfc3339

theorem longNumber?_append {digits rest : List Char}
    (all : ∀ c ∈ digits, Decimal.isDigit c = true) (nonempty : digits ≠ [])
    (ended : Decimal.EndsNumber rest) :
    longNumber? (digits ++ rest) = some (Decimal.ofDigits digits, rest) := by
  simp [longNumber?, Decimal.takeWhile_append all ended, nonempty]

/-- A number ends where its width is used up or the digits are. -/
theorem number?_append {width : Nat} {digits rest : List Char}
    (all : ∀ c ∈ digits, Decimal.isDigit c = true) (nonempty : digits ≠ [])
    (fits : digits.length ≤ width) (ended : digits.length = width ∨ Decimal.EndsNumber rest) :
    number? width (digits ++ rest) = some (Decimal.ofDigits digits, rest) := by
  have head : ((digits ++ rest).take width).takeWhile Decimal.isDigit = digits := by
    rw [List.take_append, List.take_of_length_le fits]
    apply Decimal.takeWhile_append all
    obtain full | ended := ended
    · intro c member
      simp [full] at member
    · intro c member
      cases gap : width - digits.length with
      | zero => simp [gap] at member
      | succ gap =>
          rw [‹width - digits.length = _›] at member
          apply ended c
          cases rest with
          | nil => simp at member
          | cons c rest => simpa using member
  simp [number?, head, nonempty]

theorem trimStartChars_append {digits : List Char} (rest : List Char)
    (all : ∀ c ∈ digits, Decimal.isDigit c = true) (nonempty : digits ≠ []) :
    Text.trimStartChars (digits ++ rest) = digits ++ rest := by
  cases digits with
  | nil => exact absurd rfl nonempty
  | cons c digits =>
      have visible := Decimal.isBlank_of_isDigit (all c (List.mem_cons_self ..))
      simp [Text.trimStartChars, visible]

theorem field?_padded {bound n : Nat} (rest : List Char) (bounded : n ≤ bound) (two : n < 100) :
    field? bound (Decimal.padded 2 n ++ rest) = some (n, rest) := by
  have digits : ∀ c ∈ Decimal.padded 2 n, Decimal.isDigit c = true :=
    fun c member => Decimal.isDigit_of_mem_padded member
  have width : (Decimal.padded 2 n).length = 2 := Decimal.length_padded (by decide) two
  rw [field?, trimStartChars_append rest digits (Decimal.padded_ne_nil 2 n),
    number?_append digits (Decimal.padded_ne_nil 2 n) (Nat.le_of_eq width) (Or.inl width),
    Decimal.ofDigits_padded]
  simp [bounded]

/-! ## Years -/

theorem year?_of_digits {digits rest : List Char}
    (all : ∀ c ∈ digits, Decimal.isDigit c = true) (width : digits.length = 4) :
    year? (digits ++ rest) = some ((Decimal.ofDigits digits : Int), rest) := by
  have nonempty : digits ≠ [] := List.ne_nil_of_length_pos (by omega)
  have read : number? 4 (digits ++ rest) = some (Decimal.ofDigits digits, rest) :=
    number?_append all nonempty (Nat.le_of_eq width) (Or.inl width)
  rw [year?, trimStartChars_append rest all nonempty]
  obtain ⟨c, tail, rfl⟩ := List.exists_cons_of_ne_nil nonempty
  have first := all c (List.mem_cons_self ..)
  split
  · rename_i sign
    cases sign
    cases first
  · rename_i sign
    cases sign
    cases first
  · rw [read]
    rfl

theorem year?_yearChars {year : Int} {rest : List Char} (ended : Decimal.EndsNumber rest) :
    year? (yearChars year ++ rest) = some (year, rest) := by
  have digits (n : Nat) : ∀ c ∈ Decimal.padded 4 n, Decimal.isDigit c = true :=
    fun c member => Decimal.isDigit_of_mem_padded member
  rw [yearChars]
  split
  · have width : (Decimal.padded 4 year.toNat).length = 4 :=
      Decimal.length_padded (by decide) (by omega)
    rw [year?_of_digits (digits _) width, Decimal.ofDigits_padded]
    congr 2
    omega
  · have long := longNumber?_append (digits year.natAbs) (Decimal.padded_ne_nil 4 _) ended
    rw [Decimal.ofDigits_padded] at long
    by_cases negative : year < 0
    · have value : -(year.natAbs : Int) = year := by omega
      rw [if_pos negative]
      show (longNumber? (Decimal.padded 4 year.natAbs ++ rest)).map _ = _
      simp only [long, Option.map_some, value]
    · have value : (year.natAbs : Int) = year := by omega
      rw [if_neg negative]
      show (longNumber? (Decimal.padded 4 year.natAbs ++ rest)).map _ = _
      simp only [long, Option.map_some, value]

/-! ## Fractions -/

theorem nanos?_padded {width n : Nat} (some_width : 0 < width) (small : n < 10 ^ width)
    (fits : width ≤ 9) :
    nanos? ('.' :: (Decimal.padded width n ++ ['Z'])) = some (n * 10 ^ (9 - width), ['Z']) := by
  have digits : ∀ c ∈ Decimal.padded width n, Decimal.isDigit c = true :=
    fun c member => Decimal.isDigit_of_mem_padded member
  have length : (Decimal.padded width n).length = width := Decimal.length_padded some_width small
  have ended : Decimal.EndsNumber ['Z'] := Decimal.endsNumber_cons [] rfl
  have read := number?_append digits (Decimal.padded_ne_nil width n)
    (Nat.le_trans (Nat.le_of_eq length) fits) (Or.inr ended)
  rw [Decimal.ofDigits_padded] at read
  have used : (Decimal.padded width n ++ ['Z']).length - ['Z'].length = width := by
    simp [length]
  rw [nanos?, read]
  simp only [Option.bind_eq_bind, Option.bind_some, used]
  rfl

theorem nanos?_fractionChars {nanos : Nat} (small : nanos < nanosPerSecond) :
    nanos? (fractionChars nanos ++ ['Z']) = some (nanos, ['Z']) := by
  unfold nanosPerSecond at small
  rw [fractionChars]
  split
  · rename_i none
    rw [none]
    rfl
  · split
    · rw [List.cons_append, nanos?_padded (by decide) (by omega) (by decide)]
      congr 2
      omega
    · split
      · rw [List.cons_append, nanos?_padded (by decide) (by omega) (by decide)]
        congr 2
        omega
      · rw [List.cons_append, nanos?_padded (by decide) (by omega) (by decide)]
        simp

/-! ## Whole times -/

theorem separator?_mark (rest : List Char) : separator? ('T' :: rest) = some rest := by
  simp [separator?]

theorem fields?_written (year : Int) {month day hour minute second nanos : Nat}
    (monthBound : month ≤ 12) (dayBound : day ≤ 31) (hourBound : hour ≤ 23)
    (minuteBound : minute ≤ 59) (secondBound : second ≤ 60)
    (nanosBound : nanos < nanosPerSecond) :
    fields? (yearChars year ++ '-' :: (Decimal.padded 2 month ++
        '-' :: (Decimal.padded 2 day ++ 'T' :: (Decimal.padded 2 hour ++
          ':' :: (Decimal.padded 2 minute ++ ':' :: (Decimal.padded 2 second ++
            (fractionChars nanos ++ ['Z']))))))) =
      some ({ date := ⟨year, month, day⟩, hour, minute, second, nanos, offset := 0 }, []) := by
  have mark (c : Char) (rest : List Char) (visible : Text.isBlank c = false) :
      mark? c (c :: rest) = some rest := by
    simp [mark?, Text.trimStartChars, visible]
  unfold fields?
  refine Option.bind_eq_some_iff.mpr ⟨_, year?_yearChars (Decimal.endsNumber_cons _ rfl), ?_⟩
  refine Option.bind_eq_some_iff.mpr ⟨_, mark '-' _ rfl, ?_⟩
  refine Option.bind_eq_some_iff.mpr ⟨_, field?_padded _ monthBound (by omega), ?_⟩
  refine Option.bind_eq_some_iff.mpr ⟨_, mark '-' _ rfl, ?_⟩
  refine Option.bind_eq_some_iff.mpr ⟨_, field?_padded _ dayBound (by omega), ?_⟩
  refine Option.bind_eq_some_iff.mpr ⟨_, separator?_mark _, ?_⟩
  refine Option.bind_eq_some_iff.mpr ⟨_, field?_padded _ hourBound (by omega), ?_⟩
  refine Option.bind_eq_some_iff.mpr ⟨_, mark ':' _ rfl, ?_⟩
  refine Option.bind_eq_some_iff.mpr ⟨_, field?_padded _ minuteBound (by omega), ?_⟩
  refine Option.bind_eq_some_iff.mpr ⟨_, mark ':' _ rfl, ?_⟩
  refine Option.bind_eq_some_iff.mpr ⟨_, field?_padded _ secondBound (by omega), ?_⟩
  exact Option.bind_eq_some_iff.mpr ⟨_, nanos?_fractionChars nanosBound, rfl⟩

open Calendar in
theorem chars_eq (t : Timestamp) {date : Date} {second : Nat}
    (day : Date.ofDayNumber (t.seconds / Timestamp.secondsPerDay) = date)
    (time : (t.seconds % Timestamp.secondsPerDay).toNat = second) :
    chars t =
      yearChars date.year ++ '-' :: (Decimal.padded 2 date.month ++
        '-' :: (Decimal.padded 2 date.day ++ 'T' :: (Decimal.padded 2 (second / 3600) ++
          ':' :: (Decimal.padded 2 (second / 60 % 60) ++
            ':' :: (Decimal.padded 2 (second % 60 + t.nanos / nanosPerSecond) ++
              (fractionChars (t.nanos % nanosPerSecond) ++ ['Z'])))))) := by
  simp only [chars, day, time, List.append_assoc, List.cons_append]

end Rfc3339

namespace Timestamp

/-- Whether a clock can show a point in time: a leap second comes behind the last second of
a minute and nowhere else. -/
def onClock (t : Timestamp) : Bool :=
  !t.isLeap || t.seconds % 60 = 59

theorem onClock_iff (t : Timestamp) :
    t.onClock = true ↔ t.nanos < nanosPerSecond ∨ t.seconds % 60 = 59 := by
  simp [onClock, isLeap]

theorem eq_of_parts {a b : Timestamp} (seconds : a.seconds = b.seconds)
    (nanos : a.nanos = b.nanos) : a = b := by
  cases a
  cases b
  simp_all

/-- The point in time that the written form shows. -/
def shown (t : Timestamp) : Timestamp :=
  if t.onClock then t else ⟨t.seconds + 1, t.nanos - nanosPerSecond⟩

@[simp] theorem shown_eq_self_iff (t : Timestamp) : t.shown = t ↔ t.onClock = true := by
  rw [shown]
  split
  · rename_i clock
    exact ⟨fun _ => clock, fun _ => rfl⟩
  · rename_i hidden
    refine ⟨fun same => ?_, fun clock => absurd clock hidden⟩
    have seconds := congrArg Timestamp.seconds same
    simp only at seconds
    omega

@[simp] theorem map_shown_eq_self_iff (past : Option Timestamp) :
    past.map shown = past ↔ ∀ t ∈ past, t.onClock = true := by
  cases past <;> simp

end Timestamp

namespace Rfc3339

open Calendar

theorem Fields.timestamp?_of_ordinary {date : Date} {hour minute second nanos : Nat}
    (valid : date.isValid = true) (ordinary : second ≠ 60) :
    Fields.timestamp? { date, hour, minute, second, nanos, offset := 0 } =
      Timestamp.checked
        (date.dayNumber * Timestamp.secondsPerDay + (hour * 3600 + minute * 60 + second : Nat))
        nanos := by
  simp [Fields.timestamp?, valid, ordinary]

theorem Fields.timestamp?_of_leap {date : Date} {hour minute nanos : Nat}
    (valid : date.isValid = true) :
    Fields.timestamp? { date, hour, minute, second := 60, nanos, offset := 0 } =
      Timestamp.checked
        (date.dayNumber * Timestamp.secondsPerDay + (hour * 3600 + minute * 60 + 59 : Nat))
        (nanosPerSecond + nanos) := by
  simp [Fields.timestamp?, valid]

theorem timestamp?_fields {t : Timestamp} (supported : t.inRange = true) {date : Date}
    {second : Nat} (day : Date.ofDayNumber (t.seconds / Timestamp.secondsPerDay) = date)
    (time : (t.seconds % Timestamp.secondsPerDay).toNat = second) :
    Fields.timestamp?
      { date
        hour := second / 3600
        minute := second / 60 % 60
        second := second % 60 + t.nanos / nanosPerSecond
        nanos := t.nanos % nanosPerSecond
        offset := 0 } = some t.shown := by
  obtain ⟨seconds, nanos⟩ := t
  simp only [Timestamp.inRange, Bool.and_eq_true, decide_eq_true_eq] at supported
  obtain ⟨⟨lower, upper⟩, fraction⟩ := supported
  unfold Timestamp.minSeconds at lower
  unfold Timestamp.maxSeconds at upper
  unfold nanosPerSecond at fraction
  unfold Timestamp.secondsPerDay at day time
  dsimp only at day time
  have valid : date.isValid = true := by
    rw [← day]
    apply isValid_ofDayNumber <;> simp only [firstDay, lastDay] <;> omega
  have number : date.dayNumber = seconds / 86400 := by
    rw [← day, dayNumber_ofDayNumber]
  have clock := Timestamp.onClock_iff ⟨seconds, nanos⟩
  have check {s : Int} {n : Nat} (lower : -8334601228800 ≤ s) (upper : s ≤ 8210266876799) :
      Timestamp.checked s n = some ⟨s, n⟩ := if_pos ⟨lower, upper⟩
  rw [Timestamp.shown]
  unfold nanosPerSecond at clock ⊢
  dsimp only at clock ⊢
  by_cases full : second % 60 + nanos / 1000000000 = 60
  · -- second 60 is read as second 59 with a fraction beyond one second
    rw [full, Fields.timestamp?_of_leap valid, number, if_pos (clock.mpr (by omega))]
    unfold Timestamp.secondsPerDay nanosPerSecond
    rw [check (by omega) (by omega)]
    refine congrArg some (Timestamp.eq_of_parts ?_ ?_) <;> dsimp only <;> omega
  · rw [Fields.timestamp?_of_ordinary valid full, number]
    unfold Timestamp.secondsPerDay
    rw [check (by omega) (by omega)]
    by_cases leap : 1000000000 ≤ nanos
    · -- the whole second of the fraction has become part of the seconds
      rw [if_neg (fun shown => by have := clock.mp shown; omega)]
      refine congrArg some (Timestamp.eq_of_parts ?_ ?_) <;> dsimp only <;> omega
    · rw [if_pos (clock.mpr (by omega))]
      refine congrArg some (Timestamp.eq_of_parts ?_ ?_) <;> dsimp only <;> omega

theorem parse?_render {t : Timestamp} (supported : t.inRange = true) :
    parse? (render t) = some t.shown := by
  generalize day : Date.ofDayNumber (t.seconds / Timestamp.secondsPerDay) = date
  generalize time : (t.seconds % Timestamp.secondsPerDay).toNat = second
  have put := timestamp?_fields supported day time
  simp only [Timestamp.inRange, Bool.and_eq_true, decide_eq_true_eq] at supported
  have fraction := supported.2
  unfold nanosPerSecond at fraction
  have within : second < 86400 := by
    unfold Timestamp.secondsPerDay at time
    omega
  obtain ⟨_, month, _, dayOfMonth⟩ := ofDayNumber_bounds (t.seconds / Timestamp.secondsPerDay)
  rw [day] at month dayOfMonth
  have seconds : second % 60 + t.nanos / nanosPerSecond ≤ 60 := by
    unfold nanosPerSecond
    omega
  have read := fields?_written date.year month
    (Nat.le_trans dayOfMonth (daysInMonth_le ..))
    (show second / 3600 ≤ 23 by omega) (show second / 60 % 60 ≤ 59 by omega) seconds
    (Nat.mod_lt t.nanos (by decide))
  rw [parse?, render, String.toList_ofList, chars_eq t day time]
  exact Option.bind_eq_some_iff.mpr ⟨_, read, put⟩

end Rfc3339

end WebhookRelay
