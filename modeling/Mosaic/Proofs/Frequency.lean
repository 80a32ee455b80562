import Mathlib.Order.Lattice
import Mathlib.Order.Nat
import Mosaic.Resample.Kernel

/-!
# The most frequent of several samples

Samples that are numbers are sorted, and of the runs of equal ones the first of the longest is taken.
In a sorted list all samples that equal each other stand in one run (`isRuns_runs`), so the length of
a run says how often its value comes, and the first of the longest runs has the smallest of the most
frequent values (`isMode_of_longestRun`). To go through the list run by run is to leave at least one
sample behind each time, since a number equals itself (`runSearch_iff`).
-/

namespace Mosaic

/-- Samples that are numbers compare as their places in a linear order do, and the total order of all
samples keeps to it. -/
structure Sample.IsMeasure {V K α : Type} [Sample V K] [LinearOrder α] (measure : V → α) :
    Prop where
  beq_iff {v w : V} : Sample.isNaN v = false → Sample.isNaN w = false →
    ((v == w) = true ↔ measure v = measure w)
  lt_iff {v w : V} : Sample.isNaN v = false → Sample.isNaN w = false →
    (v < w ↔ measure v < measure w)
  measure_le {v w : V} : Sample.isNaN v = false → Sample.isNaN w = false →
    Sample.totalLe v w = true → measure v ≤ measure w
  totalLe_trans (u v w : V) : Sample.totalLe u v = true → Sample.totalLe v w = true →
    Sample.totalLe u w = true
  totalLe_total (v w : V) : (Sample.totalLe v w || Sample.totalLe w v) = true

namespace Resampling

variable {V K α : Type} [Sample V K] [LinearOrder α] {measure : V → α}

/-! ## Runs of a list -/

theorem exists_runs_cons (v : V) (rest : List V) : ∃ n more, runs (v :: rest) = (v, n) :: more := by
  unfold runs
  split
  · split
    · exact ⟨_, _, rfl⟩
    · exact ⟨_, _, rfl⟩
  · exact ⟨_, _, rfl⟩

/-- A sample before the first run goes on with it or has a run of its own. -/
theorem runs_cons_cons {v w : V} {rest : List V} {n : Nat} {more : List (V × Nat)}
    (h : runs (w :: rest) = (w, n) :: more) :
    runs (v :: w :: rest) = if w == v then (v, n + 1) :: more else (v, 1) :: (w, n) :: more := by
  rw [runs, h]

/-- The runs of a list: they ascend by a measure, and each one tells how often its value comes. -/
structure IsRuns (measure : V → α) (l : List V) (rs : List (V × Nat)) : Prop where
  ascending : rs.Pairwise fun r s => measure r.1 < measure s.1
  mem : ∀ r ∈ rs, r.1 ∈ l
  count_eq : ∀ r ∈ rs, r.2 = l.count r.1
  exists_run : ∀ v ∈ l, ∃ r ∈ rs, measure r.1 = measure v

section Numbers

variable (hmeasure : Sample.IsMeasure measure) {l : List V}
  (hnumber : ∀ v ∈ l, Sample.isNaN v = false)

include hmeasure

theorem count_cons_number {v : V} (hv : Sample.isNaN v = false) :
    (v :: l).count v = l.count v + 1 := by
  rw [List.count_cons, if_pos ((hmeasure.beq_iff hv hv).mpr rfl)]

theorem count_cons_of_lt {v w : V} (hv : Sample.isNaN v = false) (hw : Sample.isNaN w = false)
    (h : measure v < measure w) : (v :: l).count w = l.count w := by
  have hother : ¬(v == w) = true := by
    rw [hmeasure.beq_iff hv hw]
    exact h.ne
  rw [List.count_cons, if_neg hother]
  rfl

include hnumber

theorem count_congr {v w : V} (hv : Sample.isNaN v = false) (hw : Sample.isNaN w = false)
    (h : measure v = measure w) : l.count v = l.count w := by
  refine List.countP_congr fun u hu => ?_
  rw [hmeasure.beq_iff (hnumber u hu) hv, hmeasure.beq_iff (hnumber u hu) hw, h]

theorem count_eq_zero {v : V} (hv : Sample.isNaN v = false) (h : ∀ u ∈ l, measure v < measure u) :
    l.count v = 0 := by
  refine List.countP_eq_zero.mpr fun u hu => ?_
  rw [hmeasure.beq_iff (hnumber u hu) hv]
  exact (h u hu).ne'

/-- A sample that equals the first one lengthens the first run. -/
theorem IsRuns.lengthen {v w : V} {n : Nat} {more : List (V × Nat)}
    (h : IsRuns measure l ((w, n) :: more)) (hv : Sample.isNaN v = false)
    (heq : measure v = measure w) : IsRuns measure (v :: l) ((v, n + 1) :: more) := by
  obtain ⟨hascending, hmem, hcount, hexists⟩ := h
  obtain ⟨hless, hascending⟩ := List.pairwise_cons.mp hascending
  obtain ⟨hw, hmem⟩ := List.forall_mem_cons.mp hmem
  obtain ⟨hn, hcount⟩ := List.forall_mem_cons.mp hcount
  refine ⟨List.pairwise_cons.mpr ⟨fun r hr => heq.trans_lt (hless r hr), hascending⟩,
    List.forall_mem_cons.mpr ⟨List.mem_cons_self, fun r hr => List.mem_cons_of_mem v (hmem r hr)⟩,
    List.forall_mem_cons.mpr ⟨?_, fun r hr => ?_⟩, ?_⟩
  · show n + 1 = List.count v (v :: l)
    rw [count_cons_number hmeasure hv, count_congr hmeasure hnumber hv (hnumber w hw) heq]
    exact congrArg (· + 1) hn
  · rw [count_cons_of_lt hmeasure hv (hnumber r.1 (hmem r hr)) (heq.trans_lt (hless r hr))]
    exact hcount r hr
  · intro u hu
    rcases List.mem_cons.mp hu with rfl | hu
    · exact ⟨_, List.mem_cons_self, rfl⟩
    · obtain ⟨r, hr, hmeasure⟩ := hexists u hu
      rcases List.mem_cons.mp hr with rfl | hr
      · exact ⟨_, List.mem_cons_self, heq.trans hmeasure⟩
      · exact ⟨r, List.mem_cons_of_mem _ hr, hmeasure⟩

/-- A sample below all others has a run of its own. -/
theorem IsRuns.prepend {v : V} {rs : List (V × Nat)} (h : IsRuns measure l rs)
    (hv : Sample.isNaN v = false) (hless : ∀ u ∈ l, measure v < measure u) :
    IsRuns measure (v :: l) ((v, 1) :: rs) := by
  obtain ⟨hascending, hmem, hcount, hexists⟩ := h
  refine ⟨List.pairwise_cons.mpr ⟨fun r hr => hless r.1 (hmem r hr), hascending⟩,
    List.forall_mem_cons.mpr ⟨List.mem_cons_self, fun r hr => List.mem_cons_of_mem v (hmem r hr)⟩,
    List.forall_mem_cons.mpr ⟨?_, fun r hr => ?_⟩, ?_⟩
  · show 1 = List.count v (v :: l)
    rw [count_cons_number hmeasure hv, count_eq_zero hmeasure hnumber hv hless]
  · rw [count_cons_of_lt hmeasure hv (hnumber r.1 (hmem r hr)) (hless r.1 (hmem r hr))]
    exact hcount r hr
  · intro u hu
    rcases List.mem_cons.mp hu with rfl | hu
    · exact ⟨_, List.mem_cons_self, rfl⟩
    · obtain ⟨r, hr, hmeasure⟩ := hexists u hu
      exact ⟨r, List.mem_cons_of_mem _ hr, hmeasure⟩

theorem isRuns_runs (hsorted : l.Pairwise fun v w => measure v ≤ measure w) :
    IsRuns measure l (runs l) := by
  induction l with
  | nil => exact ⟨.nil, nofun, nofun, nofun⟩
  | cons v rest ih =>
    obtain ⟨hv, hrest⟩ := List.forall_mem_cons.mp hnumber
    obtain ⟨hle, htail⟩ := List.pairwise_cons.mp hsorted
    have hruns := ih hrest htail
    cases rest with
    | nil => exact hruns.prepend hmeasure hrest hv nofun
    | cons w others =>
      obtain ⟨n, more, hfirst⟩ := exists_runs_cons w others
      have hw := hrest w List.mem_cons_self
      have hvw := hle w List.mem_cons_self
      rw [hfirst] at hruns
      rw [runs_cons_cons hfirst]
      split
      · next heq => exact hruns.lengthen hmeasure hrest hv ((hmeasure.beq_iff hw hv).mp heq).symm
      · next hne =>
        rw [hmeasure.beq_iff hw hv] at hne
        have hless : measure v < measure w := lt_of_le_of_ne hvw (Ne.symm hne)
        refine hruns.prepend hmeasure hrest hv (List.forall_mem_cons.mpr ⟨hless, fun u hu => ?_⟩)
        exact hless.trans_le ((List.pairwise_cons.mp htail).1 u hu)

end Numbers

/-! ## The longest run -/

/-- The better of two runs: the second one if it is longer. -/
def longer (best r : V × Nat) : V × Nat := if best.2 < r.2 then r else best

/-- The first of the longest runs: those before it are shorter and those after it not longer. -/
theorem foldl_longer (rest : List (V × Nat)) (r : V × Nat) : ∃ before after,
    r :: rest = before ++ rest.foldl longer r :: after ∧
      (∀ s ∈ before, s.2 < (rest.foldl longer r).2) ∧ ∀ s ∈ after, s.2 ≤ (rest.foldl longer r).2 := by
  induction rest generalizing r with
  | nil => exact ⟨[], [], rfl, nofun, nofun⟩
  | cons s rest ih =>
    rw [List.foldl_cons]
    by_cases hlonger : r.2 < s.2
    · rw [longer, if_pos hlonger]
      obtain ⟨before, after, heq, hbefore, hafter⟩ := ih s
      refine ⟨r :: before, after, congrArg (r :: ·) heq, List.forall_mem_cons.mpr ⟨?_, hbefore⟩,
        hafter⟩
      have hs : s ∈ before ++ rest.foldl longer s :: after := heq ▸ List.mem_cons_self
      rw [List.mem_append, List.mem_cons] at hs
      rcases hs with hs | hs | hs
      · exact hlonger.trans (hbefore s hs)
      · exact hs ▸ hlonger
      · exact hlonger.trans_le (hafter s hs)
    · rw [longer, if_neg hlonger]
      have hle := Nat.le_of_not_lt hlonger
      obtain ⟨before, after, heq, hbefore, hafter⟩ := ih r
      cases before with
      | nil =>
        obtain ⟨hbest, hrest⟩ := List.cons.inj heq
        refine ⟨[], s :: rest, congrArg (· :: s :: rest) hbest, nofun,
          List.forall_mem_cons.mpr ⟨hbest ▸ hle, hrest ▸ hafter⟩⟩
      | cons first before =>
        obtain ⟨rfl, hrest⟩ := List.cons.inj heq
        obtain ⟨hr, hbefore⟩ := List.forall_mem_cons.mp hbefore
        refine ⟨r :: s :: before, after, congrArg (r :: s :: ·) hrest, ?_, hafter⟩
        exact List.forall_mem_cons.mpr ⟨hr, List.forall_mem_cons.mpr ⟨hle.trans_lt hr, hbefore⟩⟩

/-- A value of a list that comes at least as often as any other and is the smallest of those that
come as often. -/
structure IsMode (l : List V) (v : V) : Prop where
  mem : v ∈ l
  most : ∀ w ∈ l, l.count w ≤ l.count v
  least : ∀ w ∈ l, l.count w = l.count v → (w == v) = true ∨ v < w

/-- The order of a list has no part in it. -/
theorem IsMode.of_perm {l l' : List V} {v : V} (h : IsMode l v) (hperm : l.Perm l') :
    IsMode l' v := by
  have hcount : ∀ w, l.count w = l'.count w := fun w => hperm.countP_eq (· == w)
  refine ⟨hperm.mem_iff.mp h.mem, fun w hw => ?_, fun w hw heq => ?_⟩
  · rw [← hcount, ← hcount]
    exact h.most w (hperm.mem_iff.mpr hw)
  · rw [← hcount, ← hcount] at heq
    exact h.least w (hperm.mem_iff.mpr hw) heq

theorem longestRun?_eq_none {rs : List (V × Nat)} : longestRun? rs = none ↔ rs = [] := by
  cases rs with
  | nil => exact iff_of_true rfl rfl
  | cons r rest => exact iff_of_false nofun (List.cons_ne_nil r rest)

theorem runs_eq_nil {l : List V} : runs l = [] ↔ l = [] := by
  cases l with
  | nil => exact iff_of_true rfl rfl
  | cons v rest =>
    obtain ⟨n, more, hruns⟩ := exists_runs_cons v rest
    rw [hruns]
    exact iff_of_false (List.cons_ne_nil _ _) (List.cons_ne_nil _ _)

/-- The first of the longest runs of a sorted list has the most frequent value, and the smallest of
several. -/
theorem isMode_of_longestRun (hmeasure : Sample.IsMeasure measure) {l : List V}
    (hnumber : ∀ v ∈ l, Sample.isNaN v = false)
    (hsorted : l.Pairwise fun v w => measure v ≤ measure w) {best : V × Nat}
    (h : longestRun? (runs l) = some best) : IsMode l best.1 := by
  obtain ⟨hascending, hmem, hcount, hexists⟩ := isRuns_runs hmeasure hnumber hsorted
  cases hruns : runs l with
  | nil =>
    rw [hruns] at h
    cases h
  | cons r rest =>
    obtain ⟨before, after, heq, hbefore, hafter⟩ := foldl_longer rest r
    rw [hruns] at h hascending hmem hcount hexists
    obtain rfl : rest.foldl longer r = best := Option.some.inj h
    rw [heq] at hascending hmem hcount hexists
    generalize rest.foldl longer r = best at *
    have hbest : best ∈ before ++ best :: after :=
      List.mem_append_right before List.mem_cons_self
    have hnumberBest := hnumber best.1 (hmem best hbest)
    -- how often a value comes is the length of its run
    have hlength : ∀ w ∈ l, ∃ s ∈ before ++ best :: after, measure s.1 = measure w ∧
        l.count w = s.2 := by
      intro w hw
      obtain ⟨s, hs, hsw⟩ := hexists w hw
      refine ⟨s, hs, hsw, ?_⟩
      rw [hcount s hs]
      exact count_congr hmeasure hnumber (hnumber w hw) (hnumber s.1 (hmem s hs)) hsw.symm
    refine ⟨hmem best hbest, fun w hw => ?_, fun w hw hsame => ?_⟩
    · obtain ⟨s, hs, -, hcountw⟩ := hlength w hw
      rw [hcountw, ← hcount best hbest]
      rw [List.mem_append, List.mem_cons] at hs
      rcases hs with hs | rfl | hs
      · exact (hbefore s hs).le
      · exact le_rfl
      · exact hafter s hs
    · obtain ⟨s, hs, hsw, hcountw⟩ := hlength w hw
      rw [hcountw, ← hcount best hbest] at hsame
      rw [List.mem_append, List.mem_cons] at hs
      rcases hs with hs | rfl | hs
      · exact absurd hsame (hbefore s hs).ne
      · exact .inl ((hmeasure.beq_iff (hnumber w hw) hnumberBest).mpr hsw.symm)
      · have hless := (List.pairwise_cons.mp (List.pairwise_append.mp hascending).2.1).1 s hs
        rw [hsw] at hless
        exact .inr ((hmeasure.lt_iff hnumberBest (hnumber w hw)).mpr hless)

/-! ## Run by run -/

/-- To go through a list run by run: all samples that equal the first one are left behind at once, and
their run is kept if it is longer than the best one so far. A sample that does not equal itself would
leave nothing behind, and the search would not come to an end. -/
inductive RunSearch : List V → V × Nat → V → Prop
  | done {best : V × Nat} : RunSearch [] best best.1
  | step {v result : V} {rest : List V} {best : V × Nat}
    (h : RunSearch ((v :: rest).dropWhile (· == v))
      (longer best (v, ((v :: rest).takeWhile (· == v)).length)) result) :
    RunSearch (v :: rest) best result

/-- Tests that agree on a list cut it at the same place. -/
theorem cut_congr {p q : V → Bool} {l : List V} (h : ∀ v ∈ l, p v = q v) :
    l.takeWhile p = l.takeWhile q ∧ l.dropWhile p = l.dropWhile q := by
  induction l with
  | nil => exact ⟨rfl, rfl⟩
  | cons v rest ih =>
    obtain ⟨hv, hrest⟩ := List.forall_mem_cons.mp h
    obtain ⟨htake, hdrop⟩ := ih hrest
    rw [List.takeWhile_cons, List.takeWhile_cons, List.dropWhile_cons, List.dropWhile_cons, hv,
      htake, hdrop]
    exact ⟨rfl, rfl⟩

section Search

variable (hmeasure : Sample.IsMeasure measure)

include hmeasure

/-- The first run takes all samples at the beginning that equal the first one. -/
theorem runs_cons {v : V} {rest : List V} (hnumber : ∀ w ∈ v :: rest, Sample.isNaN w = false) :
    runs (v :: rest) =
      (v, (rest.takeWhile (· == v)).length + 1) :: runs (rest.dropWhile (· == v)) := by
  induction rest generalizing v with
  | nil => rfl
  | cons w others ih =>
    obtain ⟨hv, hrest⟩ := List.forall_mem_cons.mp hnumber
    obtain ⟨hw, hothers⟩ := List.forall_mem_cons.mp hrest
    rw [runs_cons_cons (ih hrest), List.takeWhile_cons, List.dropWhile_cons]
    split
    · next heq =>
      have hsame : ∀ u ∈ others, (u == w) = (u == v) := by
        intro u hu
        rw [Bool.eq_iff_iff, hmeasure.beq_iff (hothers u hu) hw, hmeasure.beq_iff (hothers u hu) hv,
          (hmeasure.beq_iff hw hv).mp heq]
      obtain ⟨htake, hdrop⟩ := cut_congr hsame
      rw [htake, hdrop]
      rfl
    · rw [ih hrest]
      rfl

/-- Run by run a list of numbers is gone through to its end, with the longest run as the result. -/
theorem runSearch_iff {l : List V} (hnumber : ∀ v ∈ l, Sample.isNaN v = false) {best : V × Nat}
    {result : V} : RunSearch l best result ↔ ((runs l).foldl longer best).1 = result := by
  induction hlength : l.length using Nat.strongRecOn generalizing l best with
  | ind n ih =>
    cases l with
    | nil =>
      constructor
      · rintro ⟨⟩
        rfl
      · rintro rfl
        exact .done
    | cons v rest =>
      have hv := hnumber v List.mem_cons_self
      have hself : (v == v) = true := (hmeasure.beq_iff hv hv).mpr rfl
      have htake : ((v :: rest).takeWhile (· == v)).length = (rest.takeWhile (· == v)).length + 1 := by
        rw [List.takeWhile_cons, if_pos hself, List.length_cons]
      have hdrop : (v :: rest).dropWhile (· == v) = rest.dropWhile (· == v) := by
        rw [List.dropWhile_cons, if_pos hself]
      -- the number itself is left behind, so that less remains
      have hshorter : (rest.dropWhile (· == v)).length < n := by
        have hle := (List.dropWhile_suffix (l := rest) (· == v)).length_le
        rw [← hlength, List.length_cons]
        exact Nat.lt_succ_of_le hle
      have hremaining : ∀ w ∈ rest.dropWhile (· == v), Sample.isNaN w = false :=
        fun w hw => hnumber w (List.mem_cons_of_mem v ((List.dropWhile_suffix _).mem hw))
      rw [runs_cons hmeasure hnumber, List.foldl_cons, ← htake, ← ih _ hshorter hremaining rfl,
        ← hdrop]
      exact ⟨fun | .step h => h, .step⟩

end Search

/-! ## The mode of an area -/

section Mode

variable [Coordinate K] {view : WindowView V} {fp : PixelFootprint K} {v : V}

theorem isNaN_of_mem_coveredValues (h : v ∈ fp.coveredValues view) : Sample.isNaN v = false := by
  unfold PixelFootprint.coveredValues at h
  split at h
  · obtain ⟨row, -, h⟩ := List.mem_flatMap.mp h
    simpa using (List.mem_filter.mp h).2
  · cases h

theorem modeIn?_eq_none_iff : modeIn? view fp = none ↔ fp.coveredValues view = [] := by
  rw [modeIn?, Option.map_eq_none_iff, longestRun?_eq_none, runs_eq_nil, ← List.length_eq_zero_iff,
    List.length_mergeSort, List.length_eq_zero_iff]

variable (hmeasure : Sample.IsMeasure measure)

include hmeasure

/-- The mode of an area is the most frequent valid sample in it, and the smallest of several. -/
theorem isMode_of_modeIn? (h : modeIn? view fp = some v) : IsMode (fp.coveredValues view) v := by
  obtain ⟨best, hbest, rfl⟩ := Option.map_eq_some_iff.mp h
  have hperm := List.mergeSort_perm (fp.coveredValues view) Sample.totalLe
  have hnumber : ∀ v ∈ (fp.coveredValues view).mergeSort Sample.totalLe, Sample.isNaN v = false :=
    fun v hv => isNaN_of_mem_coveredValues (hperm.mem_iff.mp hv)
  have hsorted := List.pairwise_mergeSort hmeasure.totalLe_trans hmeasure.totalLe_total
    (fp.coveredValues view)
  refine (isMode_of_longestRun hmeasure hnumber (hsorted.imp_of_mem ?_) hbest).of_perm hperm
  exact fun hv hw => hmeasure.measure_le (hnumber _ hv) (hnumber _ hw)

/-- The mode of an area is found by going through its valid samples, once sorted, run by run. -/
theorem modeIn?_eq_some_iff : modeIn? view fp = some v ↔
    ∃ first rest, (fp.coveredValues view).mergeSort Sample.totalLe = first :: rest ∧
      RunSearch (first :: rest) (first, 0) v := by
  have hnumber : ∀ v ∈ (fp.coveredValues view).mergeSort Sample.totalLe, Sample.isNaN v = false :=
    fun v hv => isNaN_of_mem_coveredValues (List.mem_mergeSort.mp hv)
  unfold modeIn?
  cases hsorted : (fp.coveredValues view).mergeSort Sample.totalLe with
  | nil => exact iff_of_false nofun nofun
  | cons first rest =>
    rw [hsorted] at hnumber
    have hsearch : RunSearch (first :: rest) (first, 0) v ↔
        ((runs (first :: rest)).foldl longer (first, 0)).1 = v := runSearch_iff hmeasure hnumber
    rw [runs_cons hmeasure hnumber] at hsearch ⊢
    constructor
    · intro h
      exact ⟨first, rest, rfl, hsearch.mpr (Option.some.inj h)⟩
    · rintro ⟨_, _, ⟨rfl, rfl⟩, h⟩
      exact congrArg some (hsearch.mp h)

end Mode

end Resampling

end Mosaic
