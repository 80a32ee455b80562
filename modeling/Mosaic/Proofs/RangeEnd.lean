import Mosaic.Proofs.Calendar

/-!
# The end of a range of time

The end of a range that is written as a date alone stands for the last nanosecond of its day.
Whether it is one is looked up in the text, and the grammars that read the end are not asked. They
also read times of day without a `T` or a blank in front and dates with blanks before a field, and
there the range ends a day too late or at the beginning of the day (`parse_stop`). At the end of the
calendar there is no next day to step back from, and reading the range aborts.
-/

namespace Mosaic

namespace Instant

/-- The last nanosecond of the day in which an instant lies. -/
def lastOfDay (t : Instant) : Instant := ⟨(t.dayNumber + 1) * daySeconds - 1, 999999999⟩

/-- Whether a text is read as a date with a time of day. -/
def hasTime (s : String) : Bool :=
  (strict? (Text.trim s).toList).isSome || (lenientDateTime? (Text.trim s).toList).isSome

theorem assemble?_midnight {date : CivilDate} {t : Instant}
    (h : assemble? date 0 0 0 0 0 = some t) : t = t.startOfDay := by
  have hordinary : ¬(0 : Nat) = 60 := by decide
  simp only [assemble?, hordinary, if_false] at h
  split at h
  · cases h
  · split at h
    · cases h
      unfold startOfDay dayNumber ofClock daySeconds
      simp
    · cases h

theorem lenientDay?_midnight {cs : List Char} {t : Instant} (h : lenientDay? cs = some t) :
    t = t.startOfDay := by
  unfold lenientDay? at h
  obtain ⟨⟨date, _⟩, -, h⟩ := Option.bind_eq_some_iff.mp h
  dsimp only at h
  split at h
  · exact assemble?_midnight h
  · cases h

/-- A text without a time of day is read as the midnight of its date. -/
theorem parse_midnight {s : String} {t : Instant} (h : parse s = .ok t)
    (htime : hasTime s = false) : t = t.startOfDay := by
  simp only [hasTime, Bool.or_eq_false_iff, Option.isSome_eq_false_iff, Option.isNone_iff_eq_none]
    at htime
  simp only [parse, parse?, htime.1, htime.2] at h
  split at h
  · next t' hday =>
    cases h
    exact lenientDay?_midnight hday
  · cases h

/-! ## A day later -/

theorem shift_day {t : Instant} (ht : (t.nanos : Int) < 2 * second) :
    t.shift (daySeconds * second) =
      ⟨t.seconds + daySeconds, if t.inLeapSecond then t.nanos - 1000000000 else t.nanos⟩ := by
  have hwhole : (daySeconds * second).tdiv second = daySeconds := by decide
  have hpart : (daySeconds * second).tmod second = 0 := by decide
  have hpos : 0 < daySeconds := by decide
  have hleap : t.inLeapSecond = decide (second ≤ (t.nanos : Int)) := rfl
  simp only [shift, hwhole, hpart, hpos, true_or, if_true, carry, hleap, decide_eq_true_eq]
  unfold second at *
  split_ifs <;> simp only [Instant.mk.injEq, true_and] <;> omega

theorem shift_back (seconds : Int) {nanos : Nat} (h : (nanos : Int) < second) :
    (⟨seconds, nanos⟩ : Instant).shift (-1) =
      if nanos = 0 then ⟨seconds - 1, 999999999⟩ else ⟨seconds, nanos - 1⟩ := by
  have hwhole : (-1 : Int).tdiv second = 0 := by decide
  have hpart : (-1 : Int).tmod second = -1 := by decide
  have hleap : (⟨seconds, nanos⟩ : Instant).inLeapSecond = false := decide_eq_false (not_le.mpr h)
  simp only [shift, hwhole, hpart, hleap, Bool.false_eq_true, if_false, carry]
  unfold second at *
  split_ifs <;> simp only [Instant.mk.injEq] <;> omega

end Instant

namespace TimeRange

open Instant

/-- What stands a day and a nanosecond less after an instant, whether the calendar has it or not. -/
def widened (t : Instant) : Instant := (t.shift (daySeconds * second)).shift (-1)

theorem widened_seconds {t : Instant} (ht : (t.nanos : Int) < 2 * second) :
    t.seconds + daySeconds - 1 ≤ (widened t).seconds ∧
      (widened t).seconds ≤ t.seconds + daySeconds := by
  have hordinary : (((if t.inLeapSecond then t.nanos - 1000000000 else t.nanos : Nat)) : Int) <
      second := by
    have hleap : t.inLeapSecond = decide (second ≤ (t.nanos : Int)) := rfl
    rw [hleap]
    simp only [decide_eq_true_eq]
    unfold second at *
    split_ifs <;> omega
  rw [widened, shift_day ht, shift_back _ hordinary]
  split_ifs <;> simp only <;> omega

/-- From the midnight of a day its last nanosecond is reached. -/
theorem widened_midnight {t : Instant} (h : t = t.startOfDay) : widened t = t.lastOfDay := by
  have hnanos : t.nanos = 0 := congrArg Instant.nanos h
  have hseconds : t.seconds = t.dayNumber * daySeconds := congrArg Instant.seconds h
  have hleap : t.inLeapSecond = false := by
    rw [inLeapSecond, hnanos]
    rfl
  have hpos : ((0 : Nat) : Int) < second := by decide
  rw [widened, shift_day (by rw [hnanos]; decide), hleap, hnanos, hseconds]
  simp only [Bool.false_eq_true, if_false]
  rw [shift_back _ hpos, if_pos rfl, lastOfDay]
  simp only [Instant.mk.injEq, and_true]
  ring

/-- Stepping to the end of the day goes over the next day, which the calendar has unless it ends
with this one. -/
theorem endOfDay_eq {t : Instant} (h : t.OnCalendar) : endOfDay t =
    if t.dayNumber = lastDay then .error .timeOutOfRange else .ok (widened t) := by
  obtain ⟨hfirst, hlast⟩ := (inRange_iff t).mp h.inRange
  have hnext : (t.shift (daySeconds * second)).inRange = true ↔ t.dayNumber ≠ lastDay := by
    rw [inRange_iff, shift_day h.nanos]
    unfold firstSecond lastSecond dayNumber daySeconds at *
    simp only
    omega
  unfold endOfDay add
  by_cases hday : t.dayNumber = lastDay
  · rw [if_pos hday, if_neg (hnext.not.mpr (not_not.mpr hday))]
    rfl
  · have hwidened : ((t.shift (daySeconds * second)).shift (-1)).inRange = true := by
      obtain ⟨hlower, hupper⟩ := widened_seconds h.nanos
      obtain ⟨-, hend⟩ := (inRange_iff _).mp (hnext.mpr hday)
      rw [shift_day h.nanos] at hend
      rw [inRange_iff]
      unfold widened at hlower hupper
      unfold daySeconds at *
      simp only at hend
      omega
    rw [if_neg hday, if_pos (hnext.mpr hday), ok_bind, if_pos hwidened]
    rfl

/-- The end that a range is meant to have: as it is written when it has a time of day, else the end
of its day. -/
def meantStop (stop : String) (last : Instant) : Instant :=
  if hasTime stop then last else last.lastOfDay

theorem between_eq_ok {first last : Instant} {r : TimeRange} (h : between first last = .ok r) :
    r = ⟨first, last⟩ ∧ first ≤ last := by
  unfold between at h
  split at h
  · cases h
  · next hordered =>
    cases h
    exact ⟨rfl, le_iff_not_lt.mpr hordered⟩

/-- The end of a range after its text has been read: what is taken for a bare date is moved to the
end of its day. -/
def movedStop (stop : String) (last : Instant) : Except (Stop RequestError) Instant :=
  if isBareDate stop then Stop.liftAbort (endOfDay last) else .ok last

/-- The steps of reading a range whose end is written apart. -/
theorem parse_eq {s start stop : String} (hs : Text.splitFirst? '/' s = some (start, stop)) :
    parse s = Stop.liftError (Instant.parse start) >>= fun first =>
      Stop.liftError (Instant.parse stop) >>= fun last =>
      movedStop stop last >>= fun moved =>
      Stop.liftError (between first moved) := by
  unfold parse
  rw [hs]
  refine bind_congr fun first => bind_congr fun last => ?_
  unfold movedStop
  split <;> rfl

theorem movedStop_eq_aborted {stop : String} {last : Instant} (hlast : last.OnCalendar) :
    (∃ cause, movedStop stop last = .error (.aborted cause)) ↔
      isBareDate stop = true ∧ last.dayNumber = lastDay := by
  unfold movedStop
  rw [endOfDay_eq hlast]
  by_cases hbare : isBareDate stop = true
  · by_cases hday : last.dayNumber = lastDay
    · rw [if_pos hbare, if_pos hday]
      exact iff_of_true ⟨_, rfl⟩ ⟨hbare, hday⟩
    · rw [if_pos hbare, if_neg hday]
      exact iff_of_false nofun fun h => hday h.2
  · rw [if_neg hbare]
    exact iff_of_false nofun fun h => hbare h.1

theorem movedStop_eq_ok {stop : String} {last moved : Instant} (hlast : last.OnCalendar)
    (h : movedStop stop last = .ok moved) :
    moved = if isBareDate stop then widened last else last := by
  unfold movedStop at h
  rw [endOfDay_eq hlast] at h
  split at h
  · next hbare =>
    rw [if_pos hbare]
    have h := Stop.liftAbort_eq_ok.mp h
    split at h
    · cases h
    · exact (Except.ok.inj h).symm
  · next hbare =>
    rw [if_neg hbare]
    exact (Except.ok.inj h).symm

/-- The end is moved or not as its form says, and this is right when the form says what it is. -/
theorem stop_eq_meantStop_iff {stop : String} {last : Instant} (h : Instant.parse stop = .ok last) :
    (if isBareDate stop then widened last else last) = meantStop stop last ↔
      isBareDate stop = !hasTime stop := by
  have hnanos := (onCalendar_of_parse h).nanos
  obtain ⟨hlater, -⟩ := widened_seconds hnanos
  unfold meantStop
  cases htime : hasTime stop with
  | true =>
    cases isBareDate stop with
    | true =>
      refine iff_of_false (fun heq => ?_) Bool.noConfusion
      rw [if_pos rfl, if_pos rfl] at heq
      rw [heq] at hlater
      unfold daySeconds at hlater
      omega
    | false => exact iff_of_true rfl rfl
  | false =>
    have hmidnight := parse_midnight h htime
    cases isBareDate stop with
    | true => exact iff_of_true (widened_midnight hmidnight) rfl
    | false =>
      refine iff_of_false (fun heq => ?_) Bool.noConfusion
      rw [if_neg Bool.false_ne_true, if_neg Bool.false_ne_true] at heq
      have hzero : last.nanos = 0 := congrArg Instant.nanos hmidnight
      have hend : last.nanos = 999999999 := congrArg Instant.nanos heq
      omega

/-- Reading a range whose end is written apart. It aborts exactly when both ends are read, the end
is taken for a bare date and it lies on the last day of the calendar. A range that comes back begins
with its start, which is not after its end. Its end is the one it is meant to have exactly when the
form of the text tells whether it has a time of day. -/
theorem parse_stop {s start stop : String} (hs : Text.splitFirst? '/' s = some (start, stop)) :
    ((∃ cause, parse s = .error (.aborted cause)) ↔
      ∃ first last, Instant.parse start = .ok first ∧ Instant.parse stop = .ok last ∧
        isBareDate stop = true ∧ last.dayNumber = lastDay) ∧
    ∀ r, parse s = .ok r →
      Instant.parse start = .ok r.start ∧ r.start ≤ r.stop ∧
        ∃ last, Instant.parse stop = .ok last ∧
          (r.stop = meantStop stop last ↔ isBareDate stop = !hasTime stop) := by
  rw [parse_eq hs]
  constructor
  · constructor
    · rintro ⟨cause, h⟩
      obtain h | ⟨first, hfirst, h⟩ := bind_eq_error.mp h
      · exact absurd h Stop.liftError_ne_aborted
      obtain h | ⟨last, hlast, h⟩ := bind_eq_error.mp h
      · exact absurd h Stop.liftError_ne_aborted
      obtain h | ⟨moved, -, h⟩ := bind_eq_error.mp h
      · have hlast := Stop.liftError_eq_ok.mp hlast
        exact ⟨first, last, Stop.liftError_eq_ok.mp hfirst, hlast,
          (movedStop_eq_aborted (onCalendar_of_parse hlast)).mp ⟨cause, h⟩⟩
      · exact absurd h Stop.liftError_ne_aborted
    · rintro ⟨first, last, hfirst, hlast, hmoved⟩
      obtain ⟨cause, hcause⟩ := (movedStop_eq_aborted (onCalendar_of_parse hlast)).mpr hmoved
      rw [hfirst, hlast, Stop.liftError_ok, Stop.liftError_ok, ok_bind, ok_bind, hcause]
      exact ⟨cause, rfl⟩
  · intro r h
    obtain ⟨first, hfirst, h⟩ := bind_eq_ok.mp h
    obtain ⟨last, hlast, h⟩ := bind_eq_ok.mp h
    obtain ⟨moved, hmoved, h⟩ := bind_eq_ok.mp h
    have hlast := Stop.liftError_eq_ok.mp hlast
    obtain ⟨rfl, hordered⟩ := between_eq_ok (Stop.liftError_eq_ok.mp h)
    refine ⟨Stop.liftError_eq_ok.mp hfirst, hordered, last, hlast, ?_⟩
    rw [movedStop_eq_ok (onCalendar_of_parse hlast) hmoved]
    exact stop_eq_meantStop_iff hlast

/-- A plain date as the end covers its whole day. -/
theorem parse_stop_january : ∃ r, parse "2016-01-01/2016-01-31" = .ok r ∧
    r.stop = ⟨1454284799, 999999999⟩ := by
  have hsplit : Text.splitFirst? '/' "2016-01-01/2016-01-31" =
      some ("2016-01-01", "2016-01-31") := by decide +kernel
  have hparse : parse "2016-01-01/2016-01-31" =
      .ok ⟨⟨1451606400, 0⟩, ⟨1454284799, 999999999⟩⟩ := eq_ok_of_test (by decide +kernel)
  have hdate : Instant.parse "2016-01-31" = .ok ⟨1454198400, 0⟩ := by rfl
  obtain ⟨-, -, last, hlast, hstop⟩ := (parse_stop hsplit).2 _ hparse
  obtain rfl := Except.ok.inj (hdate.symm.trans hlast)
  exact ⟨_, hparse, (hstop.mpr (by decide +kernel)).trans (by decide +kernel)⟩

/-- The last day of the calendar aborts as an end. A time of day behind a small `t` is moved to the
next day, and a date with a blank before its month ends at its midnight. -/
theorem parse_stop_misjudged :
    parse "2016-01-01/+262142-12-31" = .error (.aborted .timeOutOfRange) ∧
    (hasTime "2016-01-31t10:00:00z" = true ∧
      Instant.parse "2016-01-31t10:00:00z" = .ok ⟨1454234400, 0⟩ ∧
      parse "2016-01-01/2016-01-31t10:00:00z" =
        .ok ⟨⟨1451606400, 0⟩, ⟨1454320799, 999999999⟩⟩) ∧
    hasTime "2016- 1-31" = false ∧ Instant.parse "2016- 1-31" = .ok ⟨1454198400, 0⟩ ∧
      parse "2016-01-01/2016- 1-31" = .ok ⟨⟨1451606400, 0⟩, ⟨1454198400, 0⟩⟩ :=
  ⟨by rfl, ⟨by decide +kernel, by rfl, eq_ok_of_test (by decide +kernel)⟩, by decide +kernel,
    by rfl, by rfl⟩

end TimeRange

end Mosaic
