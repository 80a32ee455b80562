import Mathlib.Tactic.Positivity
import Mosaic.Proofs.Decimal.Digits
import Mosaic.Proofs.Indexing

/-!
# Times of datasets and the calendar

The times in a document are read only if the calendar has them, and still a time slice may lie
outside it. The middle of a span lies between its ends, with one exception: of two instants of one
second, the later one in a leap second, the middle may belong to the next second, and the calendar
may end before it (`TimeSpan.middle_seconds`). Solar time moves the middle by the longitude, which
a document may choose as large as it likes. Nothing else keeps a dataset from having a time slice
(`Dataset.groupKey_iff`).
-/

namespace Mosaic

/-! ## Instants that are read -/

namespace Instant

/-- The first second of the calendar. -/
def firstSecond : Int := firstDay * daySeconds

/-- The last second of the calendar. -/
def lastSecond : Int := (lastDay + 1) * daySeconds - 1

theorem inRange_iff (t : Instant) :
    t.inRange = true ↔ firstSecond ≤ t.seconds ∧ t.seconds ≤ lastSecond := by
  rw [inRange, Bool.and_eq_true, decide_eq_true_eq, decide_eq_true_eq]
  unfold dayNumber firstSecond lastSecond daySeconds
  omega

/-- An instant of the calendar, in an ordinary second or in a leap second. -/
structure OnCalendar (t : Instant) : Prop where
  inRange : t.inRange = true
  nanos : (t.nanos : Int) < 2 * second

theorem fraction?_lt {cs rest : List Char} {nanos : Nat}
    (h : fraction? cs = some (nanos, rest)) : nanos < 10 ^ 9 := by
  simp only [fraction?] at h
  split at h
  · cases h
  · cases h
    generalize hkept : (cs.takeWhile Decimal.isDigit).take 9 = kept
    have hlength : kept.length ≤ 9 := hkept ▸ List.length_take_le 9 _
    have hdigits : ∀ c ∈ kept, Decimal.isDigit c = true := by
      intro c hc
      rw [← hkept] at hc
      exact List.all_eq_true.mp List.all_takeWhile c (List.mem_of_mem_take hc)
    calc Decimal.natOfDigits kept * 10 ^ (9 - kept.length)
        < 10 ^ kept.length * 10 ^ (9 - kept.length) :=
          Nat.mul_lt_mul_of_pos_right (Decimal.natOfDigits_lt_pow hdigits) (by positivity)
      _ = 10 ^ 9 := by rw [← Nat.pow_add, Nat.add_sub_of_le hlength]

theorem optionalFraction?_lt {cs rest : List Char} {nanos : Nat}
    (h : optionalFraction? cs = some (nanos, rest)) : nanos < 10 ^ 9 := by
  unfold optionalFraction? at h
  split at h
  · exact fraction?_lt h
  · cases h
    decide

theorem onCalendar_of_assemble? {date : CivilDate} {hour minute sec nanos : Nat} {offset : Int}
    {t : Instant} (hnanos : nanos < 10 ^ 9)
    (h : assemble? date hour minute sec nanos offset = some t) : t.OnCalendar := by
  simp only [assemble?] at h
  generalize hclock : (if sec = 60 then ofClock date.toDays hour minute 59 (1000000000 + nanos)
    else ofClock date.toDays hour minute sec nanos) = clock at h
  have hbound : (clock.nanos : Int) < 2 * second := by
    subst hclock
    unfold second
    split <;> simp only [ofClock] <;> omega
  split at h
  · cases h
  · split at h
    · next hrange =>
      cases h
      exact ⟨hrange, hbound⟩
    · cases h

theorem onCalendar_of_strict? {cs : List Char} {t : Instant} (h : strict? cs = some t) :
    t.OnCalendar := by
  unfold strict? at h
  -- the date, the time of day with its marks, the fraction and the offset
  obtain ⟨⟨year, _⟩, -, h⟩ := Option.bind_eq_some_iff.mp h
  obtain ⟨_, -, h⟩ := Option.bind_eq_some_iff.mp h
  obtain ⟨⟨month, _⟩, -, h⟩ := Option.bind_eq_some_iff.mp h
  obtain ⟨_, -, h⟩ := Option.bind_eq_some_iff.mp h
  obtain ⟨⟨day, _⟩, -, h⟩ := Option.bind_eq_some_iff.mp h
  obtain ⟨_, -, h⟩ := Option.bind_eq_some_iff.mp h
  obtain ⟨⟨hour, _⟩, -, h⟩ := Option.bind_eq_some_iff.mp h
  obtain ⟨_, -, h⟩ := Option.bind_eq_some_iff.mp h
  obtain ⟨⟨minute, _⟩, -, h⟩ := Option.bind_eq_some_iff.mp h
  obtain ⟨_, -, h⟩ := Option.bind_eq_some_iff.mp h
  obtain ⟨⟨sec, _⟩, -, h⟩ := Option.bind_eq_some_iff.mp h
  obtain ⟨⟨nanos, _⟩, hnanos, h⟩ := Option.bind_eq_some_iff.mp h
  obtain ⟨⟨offset, _⟩, -, h⟩ := Option.bind_eq_some_iff.mp h
  dsimp only at h
  split at h
  · cases h
  · exact onCalendar_of_assemble? (optionalFraction?_lt hnanos) h

theorem onCalendar_of_lenientWithT? {cs : List Char} {t : Instant}
    (h : lenientWithT? cs = some t) : t.OnCalendar := by
  unfold lenientWithT? at h
  obtain ⟨⟨date, _⟩, -, h⟩ := Option.bind_eq_some_iff.mp h
  obtain ⟨_, -, h⟩ := Option.bind_eq_some_iff.mp h
  obtain ⟨⟨⟨hour, minute, sec⟩, _⟩, -, h⟩ := Option.bind_eq_some_iff.mp h
  obtain ⟨⟨nanos, _⟩, hnanos, h⟩ := Option.bind_eq_some_iff.mp h
  dsimp only at h
  split at h
  · exact onCalendar_of_assemble? (optionalFraction?_lt hnanos) h
  · cases h

theorem onCalendar_of_lenientWithBlank? {cs : List Char} {t : Instant}
    (h : lenientWithBlank? cs = some t) : t.OnCalendar := by
  unfold lenientWithBlank? at h
  obtain ⟨⟨date, _⟩, -, h⟩ := Option.bind_eq_some_iff.mp h
  obtain ⟨⟨⟨hour, minute, sec⟩, _⟩, -, h⟩ := Option.bind_eq_some_iff.mp h
  dsimp only at h
  split at h
  · exact onCalendar_of_assemble? (by decide) h
  · cases h

theorem onCalendar_of_lenientDay? {cs : List Char} {t : Instant} (h : lenientDay? cs = some t) :
    t.OnCalendar := by
  unfold lenientDay? at h
  obtain ⟨⟨date, _⟩, -, h⟩ := Option.bind_eq_some_iff.mp h
  dsimp only at h
  split at h
  · exact onCalendar_of_assemble? (by decide) h
  · cases h

/-- Whatever text a time is read from, the calendar has it. -/
theorem onCalendar_of_parse {s : String} {t : Instant} (h : parse s = .ok t) : t.OnCalendar := by
  simp only [parse] at h
  split at h
  · next t' hparse =>
    cases h
    simp only [parse?, lenientDateTime?, Option.orElse_eq_or, Option.or_eq_some_iff] at hparse
    rcases hparse with (hparse | ⟨-, hparse | ⟨-, hparse⟩⟩) | ⟨-, hparse⟩
    · exact onCalendar_of_strict? hparse
    · exact onCalendar_of_lenientWithT? hparse
    · exact onCalendar_of_lenientWithBlank? hparse
    · exact onCalendar_of_lenientDay? hparse
  · cases h

/-! ## Sums -/

theorem lt_iff {a b : Instant} :
    a < b ↔ a.seconds < b.seconds ∨ a.seconds = b.seconds ∧ a.nanos < b.nanos := by
  show (compare a.seconds b.seconds).then (compare a.nanos b.nanos) = .lt ↔ _
  rw [Ordering.then_eq_lt, Int.compare_eq_lt, Int.compare_eq_eq, Nat.compare_eq_lt]

theorem le_iff_not_lt {a b : Instant} : a ≤ b ↔ ¬b < a := by
  show ((compare a.seconds b.seconds).then (compare a.nanos b.nanos)).isLE = true ↔ _
  rw [lt_iff, Ordering.isLE_then_iff_or, Int.compare_eq_lt, Int.compare_eq_eq, Nat.isLE_compare]
  omega

/-- A sum from an ordinary second on ends in an ordinary second. -/
theorem shift_ordinary {t : Instant} {nanos : Int} (ht : (t.nanos : Int) < second)
    (h : 0 ≤ nanos) : t.shift nanos =
      ⟨t.seconds + (t.nanos + nanos) / second, ((t.nanos + nanos) % second).toNat⟩ := by
  have hleap : t.inLeapSecond = false := decide_eq_false (not_le.mpr ht)
  simp only [shift, hleap, Bool.false_eq_true, if_false, Int.tdiv_eq_ediv_of_nonneg h,
    Int.tmod_eq_emod_of_nonneg h, carry]
  unfold second at *
  split_ifs <;> simp only [Instant.mk.injEq] <;> omega

/-- A sum from a leap second on stays in it until the second after it begins. -/
theorem shift_leap {t : Instant} {nanos : Int} (ht : second ≤ (t.nanos : Int))
    (hlt : (t.nanos : Int) < 2 * second) (h : -second < nanos) : t.shift nanos =
      if t.nanos + nanos < 2 * second then ⟨t.seconds, (t.nanos + nanos).toNat⟩
      else ⟨t.seconds + (t.nanos - second + nanos) / second,
        ((t.nanos - second + nanos) % second).toNat⟩ := by
  have hleap : t.inLeapSecond = true := decide_eq_true ht
  have hwhole : nanos.tdiv second = max 0 (nanos / second) := by
    rcases le_or_gt 0 nanos with hnanos | hnanos
    · rw [Int.tdiv_eq_ediv_of_nonneg hnanos, max_eq_right (Int.ediv_nonneg hnanos (by decide))]
    · have hzero : (-nanos).tdiv second = 0 := Int.tdiv_eq_zero_of_lt (by omega) (by omega)
      rw [Int.neg_tdiv] at hzero
      unfold second at *
      omega
  have hpart : nanos.tmod second = nanos - second * nanos.tdiv second := by
    have := Int.mul_tdiv_add_tmod nanos second
    omega
  simp only [shift, hleap, if_true, hpart, hwhole, carry]
  unfold second at *
  split_ifs <;> simp only [Instant.mk.injEq, true_and] <;> omega

theorem shift_seconds {t : Instant} {nanos : Int} (ht : (t.nanos : Int) < second)
    (h : 0 ≤ nanos) : (t.shift nanos).seconds = t.seconds + (t.nanos + nanos) / second := by
  rw [shift_ordinary ht h]

theorem shift_leap_seconds {t : Instant} {nanos : Int} (ht : second ≤ (t.nanos : Int))
    (hlt : (t.nanos : Int) < 2 * second) (h : -second < nanos) :
    (t.shift nanos).seconds = t.seconds + max 0 ((t.nanos - second + nanos) / second) := by
  rw [shift_leap ht hlt h]
  unfold second at *
  split <;> simp only <;> omega

/-- A sum ends in an ordinary second or in the leap second in which it began. -/
theorem nanos_shift_lt {t : Instant} (ht : (t.nanos : Int) < 2 * second) (nanos : Int) :
    ((t.shift nanos).nanos : Int) < 2 * second := by
  have hupper : nanos.tmod second < second := Int.tmod_lt_of_pos nanos (by decide)
  have hlower : -second < nanos.tmod second := Int.lt_tmod_of_pos nanos (by decide)
  have hleap : t.inLeapSecond = decide (second ≤ (t.nanos : Int)) := rfl
  simp only [shift, hleap, decide_eq_true_eq, carry]
  unfold second at *
  split_ifs <;> simp only <;> omega

/-- A leap second counts for at most one second between two instants, and only between two
seconds. -/
theorem since_eq (a b : Instant) : ∃ leap : Int,
    a.since b = (a.seconds - b.seconds + leap) * second + (a.nanos - b.nanos) ∧
      (leap = 0 ∨ a.seconds ≠ b.seconds ∧
        (leap = 1 ∧ second ≤ (b.nanos : Int) ∨ leap = -1 ∧ second ≤ (a.nanos : Int))) := by
  have hday : a.seconds = b.seconds → a.secondOfDay = b.secondOfDay :=
    fun h => congrArg (· % daySeconds) h
  refine ⟨_, rfl, ?_⟩
  simp only [inLeapSecond, decide_eq_true_eq]
  split
  · split
    · exact .inr ⟨fun h => by have := hday h; omega, .inl ⟨rfl, ‹_›⟩⟩
    · exact .inl rfl
  · split
    · split
      · exact .inr ⟨fun h => by have := hday h; omega, .inr ⟨rfl, ‹_›⟩⟩
      · exact .inl rfl
    · exact .inl rfl

theorem add_eq_ok {t sum : Instant} {nanos : Int} :
    t.add nanos = .ok sum ↔ (t.shift nanos).inRange = true ∧ sum = t.shift nanos :=
  ite_eq_ok

theorem ofSeconds_eq_ok {seconds nanos : Int} :
    ofSeconds seconds = .ok nanos ↔
      seconds.natAbs ≤ 9223372036854775 ∧ nanos = seconds * second :=
  ite_eq_ok

/-- The second of an instant that lies a number of whole seconds later. Out of a leap second the way
back begins at the second after it. -/
def secondAfter (t : Instant) (seconds : Int) : Int :=
  if t.inLeapSecond ∧ seconds < 0 then t.seconds + 1 + seconds else t.seconds + seconds

theorem shift_seconds_whole {t : Instant} (ht : (t.nanos : Int) < 2 * second) (seconds : Int) :
    (t.shift (seconds * second)).seconds = t.secondAfter seconds := by
  have hwhole : (seconds * second).tdiv second = seconds := Int.mul_tdiv_cancel _ (by decide)
  have hpart : (seconds * second).tmod second = 0 := Int.mul_tmod_left _ _
  have hleap : t.inLeapSecond = decide (second ≤ (t.nanos : Int)) := rfl
  simp only [shift, hwhole, hpart, secondAfter, hleap, decide_eq_true_eq, carry]
  unfold second at *
  split_ifs <;> simp only <;> omega

end Instant

namespace TimeSpan

open Instant

/-- A span of the calendar, whose ends come in their order. -/
structure OnCalendar (s : TimeSpan) : Prop where
  first : s.first.OnCalendar
  last : s.last.OnCalendar
  ordered : ¬s.last < s.first

theorem onCalendar_between {a b : Instant} (ha : a.OnCalendar) (hb : b.OnCalendar) :
    (between a b).OnCalendar := by
  unfold between
  split
  · next h =>
    rw [lt_iff] at h
    refine ⟨hb, ha, fun h' => ?_⟩
    rw [lt_iff] at h'
    dsimp only at h'
    omega
  · next h => exact ⟨ha, hb, h⟩

/-- Whether the middle of the span lies behind the leap second in which it ends. -/
def PassesLeapSecond (s : TimeSpan) : Prop :=
  s.first.seconds = s.last.seconds ∧ (s.first.nanos : Int) < second ∧
    2 * second ≤ (s.first.nanos + s.last.nanos : Int)

/-- The middle lies between the ends of the span, unless it passes a leap second. -/
theorem middle_seconds {s : TimeSpan} (h : s.OnCalendar) :
    (s.PassesLeapSecond → s.middle.seconds = s.last.seconds + 1) ∧
      (¬s.PassesLeapSecond →
        s.first.seconds ≤ s.middle.seconds ∧ s.middle.seconds ≤ s.last.seconds) := by
  obtain ⟨first, last⟩ := s
  have hfirst := h.first.nanos
  have hlast := h.last.nanos
  have hordered := h.ordered
  rw [lt_iff] at hordered
  simp only [PassesLeapSecond, middle] at *
  obtain ⟨leap, hsince, hcases⟩ := since_eq last first
  rw [hsince]
  by_cases hleap : (first.nanos : Int) < second
  · rw [shift_seconds hleap (by unfold second at *; omega)]
    unfold second at *
    constructor <;> intro hpasses <;> omega
  · rw [shift_leap_seconds (not_lt.mp hleap) hfirst (by unfold second at *; omega)]
    unfold second at *
    constructor <;> intro hpasses <;> omega

theorem middle_inRange_iff {s : TimeSpan} (h : s.OnCalendar) :
    s.middle.inRange = true ↔ ¬(s.last.seconds = lastSecond ∧ s.PassesLeapSecond) := by
  obtain ⟨hpast, hwithin⟩ := middle_seconds h
  have hfirst := (inRange_iff _).mp h.first.inRange
  have hlast := (inRange_iff _).mp h.last.inRange
  rw [inRange_iff]
  by_cases hpasses : s.PassesLeapSecond
  · have hmiddle := hpast hpasses
    have hend : s.first.seconds = s.last.seconds := hpasses.1
    constructor
    · intro hmiddle' hend'
      omega
    · intro hend'
      have : s.last.seconds ≠ lastSecond := fun heq => hend' ⟨heq, hpasses⟩
      omega
  · have hmiddle := hwithin hpasses
    exact iff_of_true ⟨by omega, by omega⟩ fun hboth => hpasses hboth.2

end TimeSpan

namespace TimeGrouping

open Instant

/-- A time slice exists exactly when the calendar has the middle of the span and, for solar days,
the second that the sun shows then. -/
theorem key_iff {K : Type} [Coordinate K] {span : TimeSpan} (h : span.OnCalendar)
    (grouping : TimeGrouping) (longitude : K) :
    (∃ t, grouping.key span longitude = .ok t) ↔
      ¬(span.last.seconds = lastSecond ∧ span.PassesLeapSecond) ∧
        (grouping = solarDay →
          firstSecond ≤ span.middle.secondAfter (solarSeconds longitude) ∧
            span.middle.secondAfter (solarSeconds longitude) ≤ lastSecond) := by
  rw [← TimeSpan.middle_inRange_iff h]
  unfold key TimeSpan.center
  by_cases hmiddle : span.middle.inRange = true
  · rw [if_pos hmiddle, ok_bind]
    cases grouping with
    | exact => exact iff_of_true ⟨_, rfl⟩ ⟨hmiddle, nofun⟩
    | day => exact iff_of_true ⟨_, rfl⟩ ⟨hmiddle, nofun⟩
    | solarDay =>
      have hnanos := nanos_shift_lt h.first.nanos (span.last.since span.first / 2)
      have hlocal := shift_seconds_whole (t := span.middle) hnanos (solarSeconds longitude)
      rw [← hlocal, ← inRange_iff]
      constructor
      · rintro ⟨t, ht⟩
        obtain ⟨offset, hoffset, ht⟩ := bind_eq_ok.mp ht
        obtain ⟨sum, hsum, -⟩ := bind_eq_ok.mp ht
        obtain ⟨-, rfl⟩ := ofSeconds_eq_ok.mp hoffset
        exact ⟨hmiddle, fun _ => (add_eq_ok.mp hsum).1⟩
      · rintro ⟨-, hsum⟩
        have hsum := hsum rfl
        have hduration : (solarSeconds longitude).natAbs ≤ 9223372036854775 := by
          have hsum := (inRange_iff _).mp hsum
          have hmiddle := (inRange_iff _).mp hmiddle
          rw [hlocal] at hsum
          unfold secondAfter at hsum
          have hfirst : firstSecond = -8334601228800 := by decide
          have hlast : lastSecond = 8210266876799 := by decide
          split at hsum <;> omega
        exact ⟨_, bind_eq_ok.mpr ⟨_, ofSeconds_eq_ok.mpr ⟨hduration, rfl⟩,
          bind_eq_ok.mpr ⟨_, add_eq_ok.mpr ⟨hsum, rfl⟩, rfl⟩⟩⟩
  · rw [if_neg hmiddle]
    exact iff_of_false nofun fun hboth => hmiddle hboth.1

end TimeGrouping

namespace Dataset

open Instant

variable {K : Type} [Coordinate K] [Reprojection K]

/-- The time of a dataset lies on the calendar. -/
theorem onCalendar_of_ofDocument {id : DatasetId} {product : String} {doc : Json} {d : Dataset K}
    (h : ofDocument id product doc = .ok d) : d.time.OnCalendar := by
  obtain ⟨fields, -, hfields⟩ := ofDocument_ok h
  obtain ⟨-, -, hspan, -⟩ := ofFields_ok hfields
  obtain ⟨time, -, hspan⟩ := bind_eq_ok.mp hspan
  have hspan := mapError_eq_ok.mp hspan
  cases time with
  | instant text =>
    obtain ⟨t, ht, hspan⟩ := bind_eq_ok.mp hspan
    rw [← Except.ok.inj hspan]
    have ht := onCalendar_of_parse ht
    exact ⟨ht, ht, by simp only [TimeSpan.instant, lt_iff]; omega⟩
  | interval first last =>
    obtain ⟨a, ha, hspan⟩ := bind_eq_ok.mp hspan
    obtain ⟨b, hb, hspan⟩ := bind_eq_ok.mp hspan
    rw [← Except.ok.inj hspan]
    exact TimeSpan.onCalendar_between (onCalendar_of_parse ha) (onCalendar_of_parse hb)

/-- The dataset of a document has a time slice unless the calendar ends inside it: in the leap
second that the span reaches, or between UTC and the time that the sun shows at its longitude. -/
theorem groupKey_iff {id : DatasetId} {product : String} {doc : Json} {d : Dataset K}
    (h : ofDocument id product doc = .ok d) (grouping : TimeGrouping) :
    (∃ t, d.groupKey grouping = .ok t) ↔
      ¬(d.time.last.seconds = lastSecond ∧ d.time.PassesLeapSecond) ∧
        (grouping = .solarDay →
          firstSecond ≤ d.time.middle.secondAfter (TimeGrouping.solarSeconds d.centroidLongitude) ∧
            d.time.middle.secondAfter (TimeGrouping.solarSeconds d.centroidLongitude) ≤
              lastSecond) :=
  TimeGrouping.key_iff (onCalendar_of_ofDocument h) grouping d.centroidLongitude

section Example

/-- The document of a raster of four by four pixels in longitude and latitude. -/
def timedDocument (time : Json) (west width : Int) : Json :=
  .object [("time", time), ("crs", .string "EPSG:4326"),
    ("geotransform", .array ([west, width, 0, 4, 0, -1].map .int)),
    ("shape", .array [.int 4, .int 4]),
    ("measurements", .object [("red", .object [("path", .string "a")])])]

/-- A scene at an ordinary place and time. -/
def ordinaryScene : Json := timedDocument (.string "2020-01-01T12:00:00Z") (-4) 1

/-- A scene a thousand million turns to the east. -/
def farScene : Json := timedDocument (.string "2020-01-01T12:00:00Z") 360000000000 180

/-- A scene that was taken until the leap second at the end of the calendar. -/
def lastScene : Json :=
  timedDocument (.object [("begin", .string "+262142-12-31T23:59:59.5"),
    ("end", .string "+262142-12-31T23:59:60.9")]) (-4) 1

/-- A dataset at an ordinary place and time has a time slice in every grouping. -/
theorem groupKey_of_scene : ∃ d : Dataset Float,
    ofDocument ⟨1⟩ "p" ordinaryScene = .ok d ∧
      ∀ grouping, ∃ t, d.groupKey grouping = .ok t := by
  obtain ⟨d, hd, htest⟩ := exists_ok_of_test
    (ofDocument (K := Float) ⟨1⟩ "p" ordinaryScene)
    (fun d => decide (d.time.last.seconds ≠ lastSecond ∧
      firstSecond ≤ d.time.middle.secondAfter (TimeGrouping.solarSeconds d.centroidLongitude) ∧
        d.time.middle.secondAfter (TimeGrouping.solarSeconds d.centroidLongitude) ≤ lastSecond))
    (by decide +kernel)
  obtain ⟨hlast, hlocal⟩ := of_decide_eq_true htest
  exact ⟨d, hd, fun grouping =>
    (groupKey_iff hd grouping).mpr ⟨fun hpasses => hlast hpasses.1, fun _ => hlocal⟩⟩

/-- A longitude of a thousand million turns has no solar day, and a span that ends in a leap second
at the end of the calendar has no middle. -/
theorem groupKey_beyond_calendar :
    (∃ d : Dataset Float, ofDocument ⟨1⟩ "p" farScene = .ok d ∧
      d.groupKey .solarDay = .error .timeOutOfRange) ∧
    ∃ d : Dataset Float, ofDocument ⟨1⟩ "p" lastScene = .ok d ∧
      ∀ grouping, d.groupKey grouping = .error .timeOutOfRange := by
  constructor
  · obtain ⟨d, hd, htest⟩ := exists_ok_of_test (ofDocument (K := Float) ⟨1⟩ "p" farScene)
      (fun d => d.groupKey .solarDay matches .error .timeOutOfRange) (by decide +kernel)
    refine ⟨d, hd, ?_⟩
    split at htest
    · assumption
    · cases htest
  · obtain ⟨d, hd, htest⟩ := exists_ok_of_test (ofDocument (K := Float) ⟨1⟩ "p" lastScene)
      (fun d => !d.time.middle.inRange) (by decide +kernel)
    refine ⟨d, hd, fun grouping => ?_⟩
    have hcenter : d.time.center = .error .timeOutOfRange := by
      rw [TimeSpan.center, if_neg (by simpa using htest)]
    rw [groupKey, TimeGrouping.key, hcenter]
    rfl

end Example

end Dataset

end Mosaic
