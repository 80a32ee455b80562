import Mosaic.Proofs.Calendar

/-!
# The middle of a span of time

The middle of a span is its beginning moved by half the difference of its ends, and the difference
and the sum do not count the same leap seconds. From the ordinary part of a second into its leap
second the sum may go past the leap second and so past the end. From the leap second at the end of a
day to the second after it the difference may come out negative, and the sum goes back. In every
other span of the calendar the middle lies between the ends, and its day between their days
(`TimeSpan.center_between`).
-/

namespace Mosaic

open Instant

namespace Instant

/-- The nanoseconds since the beginning of 1970 without leap seconds. -/
def clockNanos (t : Instant) : Int := t.seconds * second + t.nanos

/-- A short step back from a leap second stays in it. -/
theorem shift_lt_of_leap {t : Instant} {nanos : Int} (ht : second ≤ (t.nanos : Int))
    (hlt : (t.nanos : Int) < 2 * second) (h : -second < nanos) (hneg : nanos < 0) :
    t.shift nanos < t := by
  have hstays : t.nanos + nanos < 2 * second := by omega
  rw [shift_leap ht hlt h, if_pos hstays, lt_iff]
  refine .inr ⟨rfl, ?_⟩
  unfold second at *
  dsimp only
  omega

/-- A duration that is not negative does not lead back. -/
theorem le_shift {t : Instant} {nanos : Int} (ht : (t.nanos : Int) < 2 * second)
    (h : 0 ≤ nanos) : t ≤ t.shift nanos := by
  rw [le_iff_not_lt, lt_iff]
  rcases lt_or_ge (t.nanos : Int) second with hordinary | hleap
  · rw [shift_ordinary hordinary h]
    unfold second at *
    simp only
    omega
  · rw [shift_leap hleap ht (by unfold second; omega)]
    unfold second at *
    split <;> simp only <;> omega

theorem startOfDay_dayNumber (t : Instant) : t.startOfDay.dayNumber = t.dayNumber :=
  Int.mul_ediv_cancel _ (by decide)

theorem startOfDay_startOfDay (t : Instant) : t.startOfDay.startOfDay = t.startOfDay :=
  congrArg (fun day : Int => Instant.mk (day * daySeconds) 0) (startOfDay_dayNumber t)

end Instant

namespace TimeSpan

/-- Whether the difference of the ends comes out negative: the span begins in the leap second at the
end of a day and ends in the second after it, at a smaller fraction. -/
def FallsBack (s : TimeSpan) : Prop :=
  s.first.secondOfDay = daySeconds - 1 ∧ s.last.seconds = s.first.seconds + 1 ∧
    s.last.nanos + (if s.last.inLeapSecond then 0 else second) < (s.first.nanos : Int)

theorem since_neg_iff {s : TimeSpan} (h : s.OnCalendar) :
    s.last.since s.first < 0 ↔ s.FallsBack := by
  obtain ⟨first, last⟩ := s
  have hfirst := h.first.nanos
  have hlast := h.last.nanos
  have hordered := h.ordered
  rw [lt_iff] at hordered
  simp only [FallsBack, since, secondOfDay, inLeapSecond, decide_eq_true_eq] at *
  unfold second daySeconds at *
  split_ifs <;> omega

theorem middle_lt_first_iff {s : TimeSpan} (h : s.OnCalendar) :
    s.middle < s.first ↔ s.FallsBack := by
  rw [← since_neg_iff h]
  constructor
  · intro hback
    by_contra hsince
    have hhalf : 0 ≤ s.last.since s.first / 2 := by omega
    exact le_iff_not_lt.mp (le_shift h.first.nanos hhalf) hback
  · intro hsince
    obtain ⟨-, hnext, hfraction⟩ := (since_neg_iff h).mp hsince
    have hleap : second ≤ (s.first.nanos : Int) := by
      simp only [inLeapSecond, decide_eq_true_eq] at hfraction
      split at hfraction <;> omega
    -- the ends are a second and two fractions apart, so the half step back is shorter than a second
    have hbound : -second < s.last.since s.first / 2 := by
      obtain ⟨leap, heq, hcases⟩ := since_eq s.last s.first
      have hfirst := h.first.nanos
      rw [heq, hnext]
      unfold second at *
      omega
    exact shift_lt_of_leap hleap h.first.nanos hbound (by omega)

theorem last_lt_middle_iff {s : TimeSpan} (h : s.OnCalendar) :
    s.last < s.middle ↔ s.PassesLeapSecond := by
  obtain ⟨hpast, -⟩ := middle_seconds h
  constructor
  · contrapose
    intro hpasses
    obtain ⟨first, last⟩ := s
    have hfirst := h.first.nanos
    have hlast := h.last.nanos
    have hordered := h.ordered
    simp only [PassesLeapSecond, middle, lt_iff] at *
    obtain ⟨leap, hsince, hcases⟩ := since_eq last first
    rw [hsince]
    -- a sum never enters a leap second, but one that begins in it may stay
    by_cases hleap : (first.nanos : Int) < second
    · rw [shift_ordinary hleap (by unfold second at *; omega)]
      unfold second at *
      simp only
      omega
    · rw [shift_leap (not_lt.mp hleap) hfirst (by unfold second at *; omega)]
      unfold second at *
      split <;> simp only <;> omega
  · intro hpasses
    rw [lt_iff, hpast hpasses]
    omega

/-- Between ordinary seconds the middle is halfway. -/
theorem clockNanos_middle {s : TimeSpan} (h : s.OnCalendar) (hfirst : s.first.inLeapSecond = false)
    (hlast : s.last.inLeapSecond = false) :
    s.middle.clockNanos = (s.first.clockNanos + s.last.clockNanos) / 2 := by
  have hfirst : (s.first.nanos : Int) < second := not_le.mp (of_decide_eq_false hfirst)
  have hlast : (s.last.nanos : Int) < second := not_le.mp (of_decide_eq_false hlast)
  have hordered := h.ordered
  rw [lt_iff] at hordered
  obtain ⟨leap, hsince, hcases⟩ := since_eq s.last s.first
  unfold middle clockNanos
  rw [hsince, shift_ordinary hfirst (by unfold second at *; omega)]
  unfold second at *
  simp only
  omega

/-- The day of the middle is no day before the span, and one after it only when the span ends in the
last second of a day and its middle passes the leap second there. -/
theorem dayNumber_middle {s : TimeSpan} (h : s.OnCalendar) :
    s.first.dayNumber ≤ s.middle.dayNumber ∧
      (s.middle.dayNumber ≤ s.last.dayNumber ↔
        ¬(s.PassesLeapSecond ∧ s.last.secondOfDay = daySeconds - 1)) := by
  obtain ⟨hpast, hwithin⟩ := middle_seconds h
  unfold dayNumber secondOfDay daySeconds
  by_cases hpasses : s.PassesLeapSecond
  · have hmiddle := hpast hpasses
    have hsame := hpasses.1
    simp only [hpasses, true_and]
    omega
  · have hmiddle := hwithin hpasses
    simp only [hpasses, false_and, not_false_eq_true, iff_true]
    omega

theorem between_eq (a b : Instant) : between a b = ⟨a, b⟩ ∨ between a b = ⟨b, a⟩ := by
  unfold between
  split
  · exact .inr rfl
  · exact .inl rfl

theorem center_eq_ok {s : TimeSpan} {c : Instant} :
    s.center = .ok c ↔ s.middle.inRange = true ∧ c = s.middle :=
  ite_eq_ok

variable {K : Type} [Coordinate K]

/-- The centre of the span between two times that are read, in either order. It is there unless it
is due after the last second of the calendar, and halfway between ends in ordinary seconds. It does
not come before the span unless the difference of the ends falls back, and not after it unless it
passes the leap second in which the span ends. The slice of its day begins at a midnight, never on a
day before the span, and on a day after it only when the leap second that is passed ends a day. -/
theorem center_between {x y : String} {a b : Instant} {s : TimeSpan}
    (ha : Instant.parse x = .ok a) (hb : Instant.parse y = .ok b) (hs : between a b = s)
    (longitude : K) :
    (s = ⟨a, b⟩ ∨ s = ⟨b, a⟩) ∧ s.first ≤ s.last ∧
    ((∃ c, s.center = .ok c) ↔ ¬(s.last.seconds = lastSecond ∧ s.PassesLeapSecond)) ∧
    ∀ c, s.center = .ok c →
      (s.first.inLeapSecond = false → s.last.inLeapSecond = false →
        c.clockNanos = (s.first.clockNanos + s.last.clockNanos) / 2) ∧
      (s.first ≤ c ↔ ¬s.FallsBack) ∧ (c ≤ s.last ↔ ¬s.PassesLeapSecond) ∧
      ∃ k, TimeGrouping.key .day s longitude = .ok k ∧ k = k.startOfDay ∧
        s.first.dayNumber ≤ k.dayNumber ∧
        (k.dayNumber ≤ s.last.dayNumber ↔
          ¬(s.PassesLeapSecond ∧ s.last.secondOfDay = daySeconds - 1)) := by
  subst hs
  have h := onCalendar_between (onCalendar_of_parse ha) (onCalendar_of_parse hb)
  refine ⟨between_eq a b, le_iff_not_lt.mpr h.ordered, ?_, fun c hc => ?_⟩
  · rw [← middle_inRange_iff h]
    exact ⟨fun ⟨_, hc⟩ => (center_eq_ok.mp hc).1, fun hrange => ⟨_, center_eq_ok.mpr ⟨hrange, rfl⟩⟩⟩
  · obtain ⟨-, rfl⟩ := center_eq_ok.mp hc
    refine ⟨clockNanos_middle h, le_iff_not_lt.trans (middle_lt_first_iff h).not,
      le_iff_not_lt.trans (last_lt_middle_iff h).not, (between a b).middle.startOfDay, ?_,
      (startOfDay_startOfDay _).symm, ?_⟩
    · rw [TimeGrouping.key, hc]
      rfl
    · rw [startOfDay_dayNumber]
      exact dayNumber_middle h

/-- The centre of a scene that was taken until shortly after midnight, its end written first, lies
inside it. -/
theorem center_between_overnight : ∃ c k : Instant,
    (between ⟨1451692810, 0⟩ ⟨1451692200, 500⟩).center = .ok c ∧
    c.clockNanos = 1451692505000000250 ∧
    (⟨1451692200, 500⟩ : Instant) ≤ c ∧ c ≤ ⟨1451692810, 0⟩ ∧
    TimeGrouping.key .day (between ⟨1451692810, 0⟩ ⟨1451692200, 500⟩) (0 : Float) = .ok k ∧
    k = k.startOfDay ∧ 16801 ≤ k.dayNumber ∧ k.dayNumber ≤ 16802 := by
  have ha : Instant.parse "2016-01-02T00:00:10Z" = .ok ⟨1451692810, 0⟩ := by rfl
  have hb : Instant.parse "2016-01-01T23:50:00.0000005Z" = .ok ⟨1451692200, 500⟩ := by rfl
  obtain ⟨-, -, hexists, hcenter⟩ := center_between ha hb rfl (0 : Float)
  have hpasses : ¬(between ⟨1451692810, 0⟩ ⟨1451692200, 500⟩).PassesLeapSecond :=
    fun h => absurd h.1 (by decide)
  have hback : ¬(between ⟨1451692810, 0⟩ ⟨1451692200, 500⟩).FallsBack :=
    fun h => absurd h.1 (by decide)
  obtain ⟨c, hc⟩ := hexists.mpr fun h => hpasses h.2
  obtain ⟨hhalf, hfirst, hlast, k, hk, hmidnight, hday, hdayLast⟩ := hcenter c hc
  exact ⟨c, k, hc, hhalf rfl rfl, hfirst.mpr hback, hlast.mpr hpasses, hk, hmidnight, hday,
    hdayLast.mpr fun h => hpasses h.1⟩

/-- A scene from the last second of a year to its leap second has its centre after its end and in
the day after it, and one from the leap second to the new year has it before its beginning. -/
theorem center_beside_leap_second :
    (Instant.parse "2016-12-31T23:59:59.5Z" = .ok ⟨1483228799, 500000000⟩ ∧
      Instant.parse "2016-12-31T23:59:60.9Z" = .ok ⟨1483228799, 1900000000⟩ ∧
      (between ⟨1483228799, 500000000⟩ ⟨1483228799, 1900000000⟩).center =
        .ok ⟨1483228800, 200000000⟩ ∧
      (⟨1483228799, 1900000000⟩ : Instant) < ⟨1483228800, 200000000⟩ ∧
      TimeGrouping.key .day (between ⟨1483228799, 500000000⟩ ⟨1483228799, 1900000000⟩) (0 : Float) =
        .ok ⟨1483228800, 0⟩ ∧
      (⟨1483228799, 1900000000⟩ : Instant).dayNumber < (⟨1483228800, 0⟩ : Instant).dayNumber) ∧
    Instant.parse "2016-12-31T23:59:60.5Z" = .ok ⟨1483228799, 1500000000⟩ ∧
    Instant.parse "2017-01-01T00:00:00Z" = .ok ⟨1483228800, 0⟩ ∧
    (between ⟨1483228799, 1500000000⟩ ⟨1483228800, 0⟩).center = .ok ⟨1483228799, 1250000000⟩ ∧
    (⟨1483228799, 1250000000⟩ : Instant) < ⟨1483228799, 1500000000⟩ :=
  ⟨⟨by rfl, by rfl, by rfl, by decide, by rfl, by decide⟩, by rfl, by rfl, by rfl, by decide⟩

end TimeSpan

end Mosaic
