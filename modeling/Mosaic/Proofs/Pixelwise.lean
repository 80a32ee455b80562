import Mosaic.Proofs.Nodata

/-!
# What fused pixels are

Every policy has a definition that does not go through the arrays one after the other: the last valid
value of a pixel, one that is not above or not below any other, or the mean of all (`IsFusionOf`).
Fusing gives exactly that, unless a mean has more values than a word can count
(`isFusionOf_finish_iff`). The least and the greatest value are found by comparing each value with
the one held; nodata is held at first and is never compared, so it does not matter where it stands
among the values.

An array can also be added in place, value by value (`pushInPlace`). That comes to the same, and an
array that does not fit leaves everything as it was.
-/

namespace Mosaic

open Binary

namespace FusedPixel

/-! ## The end of an order -/

section Order

variable {V K : Type} [Coordinate K] [Sample V K] {α : Type} [LinearOrder α]

/-- A policy that replaces a value by smaller ones holds the smallest of all, by a measure of the
values that is told for valid ones only. -/
theorem foldl_held_least {policy : Fusion} {nodata : V} (measure : V → α)
    (hpolicy : ∀ w v, isNodata nodata w = false → isNodata nodata v = false →
      (replaces policy nodata w v = true ↔ measure v < measure w))
    {values : List V} (h : ∀ v ∈ values, isNodata nodata v = false) {w : V}
    (hw : isNodata nodata w = false) :
    ∃ v ∈ w :: values, values.foldl (add policy nodata) (held w : FusedPixel V K) = held v ∧
      ∀ u ∈ w :: values, measure v ≤ measure u := by
  induction values generalizing w with
  | nil => exact ⟨w, List.mem_cons_self, rfl, by simp⟩
  | cons first rest ih =>
    obtain ⟨hfirst, hrest⟩ := List.forall_mem_cons.mp h
    rw [List.foldl_cons, add_held hfirst]
    -- the value held next is one of two and not above either of them
    split
    · next hreplaces =>
      have hless := (hpolicy w first hw hfirst).mp hreplaces
      obtain ⟨v, hv, hfold, hleast⟩ := ih hrest hfirst
      refine ⟨v, List.mem_cons_of_mem w hv, hfold, List.forall_mem_cons.mpr ⟨?_, hleast⟩⟩
      exact (hleast first List.mem_cons_self).trans hless.le
    · next hkeeps =>
      have hless := not_lt.mp ((hpolicy w first hw hfirst).not.mp hkeeps)
      obtain ⟨v, hv, hfold, hleast⟩ := ih hrest hw
      obtain ⟨hheld, hleast⟩ := List.forall_mem_cons.mp hleast
      refine ⟨v, ?_, hfold, List.forall_mem_cons.mpr ⟨hheld, List.forall_mem_cons.mpr
        ⟨hheld.trans hless, hleast⟩⟩⟩
      rcases List.mem_cons.mp hv with rfl | hv
      · exact List.mem_cons_self
      · exact List.mem_cons_of_mem w (List.mem_cons_of_mem first hv)

/-- What such a policy makes of a pixel. -/
theorem finish_least {policy : Fusion} {nodata : V} (measure : V → α)
    (hpolicy : ∀ w v, isNodata nodata w = false → isNodata nodata v = false →
      (replaces policy nodata w v = true ↔ measure v < measure w))
    (hmean : policy ≠ .mean) (hnodata : isNodata nodata nodata = true)
    {values : List V} (h : valid nodata values ≠ []) :
    let v := finish nodata (ofValues policy nodata values : FusedPixel V K)
    v ∈ valid nodata values ∧ ∀ u ∈ valid nodata values, measure v ≤ measure u := by
  have hvalid : ∀ v ∈ valid nodata values, isNodata nodata v = false :=
    fun v => isNodata_of_mem_valid
  have hstart : (start policy nodata : FusedPixel V K) = held nodata := by
    cases policy <;> first | rfl | exact absurd rfl hmean
  rw [ofValues_valid]
  cases hvalues : valid nodata values with
  | nil => exact absurd hvalues h
  | cons first rest =>
    rw [hvalues] at hvalid
    obtain ⟨hfirst, hrest⟩ := List.forall_mem_cons.mp hvalid
    obtain ⟨v, hv, hfold, hleast⟩ := foldl_held_least (K := K) measure hpolicy hrest hfirst
    have hpixel : (ofValues policy nodata (first :: rest) : FusedPixel V K) = held v := by
      rw [ofValues, hstart, List.foldl_cons, add_held hfirst,
        if_pos (replaces_nodata hnodata policy first), hfold]
    rw [hpixel]
    exact ⟨hv, hleast⟩

end Order

/-! ## The definition of every policy -/

/-- What the valid values at a pixel come to, which are in the order of the arrays. -/
inductive IsFusionOf (nodata : Float32) : Fusion → List Float32 → Float32 → Prop
  /-- Without a valid value the pixel is nodata. -/
  | empty (policy : Fusion) : IsFusionOf nodata policy [] nodata
  | last (below : List Float32) (v : Float32) : IsFusionOf nodata .overwrite (below ++ [v]) v
  | least {values : List Float32} {v : Float32} (hmem : v ∈ values) (hle : ∀ w ∈ values, v ≤ w) :
    IsFusionOf nodata .min values v
  | greatest {values : List Float32} {v : Float32} (hmem : v ∈ values) (hge : ∀ w ∈ values, w ≤ v) :
    IsFusionOf nodata .max values v
  /-- The sum is taken among doubles from the left, and the quotient is narrowed. -/
  | mean {values : List Float32} (h : values ≠ []) :
    IsFusionOf nodata .mean values
      (narrow (values.foldl (fun sum v => sum + widen v) 0.0 / Float.ofInt values.length))

theorem isNaN_of_valid {nodata v : Float32} (h : isNodata nodata v = false) : v.isNaN = false :=
  (Bool.or_eq_false_iff.mp h).1

theorem replaces_min_iff {nodata w v : Float32} (hw : isNodata nodata w = false)
    (hv : isNodata nodata v = false) :
    replaces .min nodata w v = true ↔ rank (unpackSingle v) < rank (unpackSingle w) := by
  rw [replaces, hw, Bool.false_or, decide_eq_true_iff]
  exact single_lt_iff (isNaN_of_valid hv) (isNaN_of_valid hw)

theorem replaces_max_iff {nodata w v : Float32} (hw : isNodata nodata w = false)
    (hv : isNodata nodata v = false) :
    replaces .max nodata w v = true ↔ rank (unpackSingle w) < rank (unpackSingle v) := by
  rw [replaces, hw, Bool.false_or, decide_eq_true_iff]
  exact single_lt_iff (isNaN_of_valid hw) (isNaN_of_valid hv)

/-- The mean that comes of counting the values in a word is another one than that of all of them. -/
def Miscounted (nodata : Float32) (values : List Float32) : Prop :=
  UInt32.size ≤ values.length ∧
    meanOf (K := Float) nodata values ≠
      narrow (values.foldl (fun sum v => sum + widen v) 0.0 / Float.ofInt values.length)

/-- A word counts fewer than `2 ^ 32` values as they are. -/
theorem meanOf_of_length_lt (nodata : Float32) {values : List Float32} (hne : values ≠ [])
    (hlength : values.length < UInt32.size) :
    meanOf (K := Float) nodata values =
      narrow (values.foldl (fun sum v => sum + widen v) 0.0 / Float.ofInt values.length) := by
  have hcounted : counted values = values.length := Nat.mod_eq_of_lt hlength
  rw [meanOf, hcounted, if_neg (List.length_eq_zero_iff.not.mpr hne)]
  rfl

theorem eq_mean_of_isFusionOf {nodata v : Float32} {values : List Float32}
    (h : IsFusionOf nodata .mean values v) (hne : values ≠ []) :
    v = narrow (values.foldl (fun sum v => sum + widen v) 0.0 / Float.ofInt values.length) := by
  cases h with
  | empty => exact absurd rfl hne
  | mean => rfl

theorem isFusionOf_meanOf_iff (nodata : Float32) (values : List Float32) :
    IsFusionOf nodata .mean values (meanOf (K := Float) nodata values) ↔
      ¬Miscounted nodata values := by
  by_cases hnil : values = []
  · subst hnil
    exact iff_of_true (.empty .mean) fun hlost => absurd hlost.1 (by decide)
  constructor
  · rintro hmean ⟨-, hother⟩
    exact hother (eq_mean_of_isFusionOf hmean hnil)
  · intro hcounted
    rcases lt_or_ge values.length UInt32.size with hlength | hlength
    · rw [meanOf_of_length_lt nodata hnil hlength]
      exact .mean hnil
    · rw [not_not.mp fun hother => hcounted ⟨hlength, hother⟩]
      exact .mean hnil

/-- What a policy that picks one of the values gives is what it is defined to give. -/
theorem isFusionOf_finish {policy : Fusion} (hpolicy : policy ≠ .mean) (nodata : Float32)
    (values : List Float32) :
    IsFusionOf nodata policy (valid nodata values)
      (finish nodata (ofValues policy nodata values : FusedPixel Float32 Float)) := by
  by_cases h : valid nodata values = []
  · rw [finish_of_no_valid h, h]
    exact .empty policy
  have hnumber : ∀ {v}, v ∈ valid nodata values → v.isNaN = false :=
    fun hv => isNaN_of_valid (isNodata_of_mem_valid hv)
  cases policy with
  | overwrite =>
    obtain hnil | ⟨below, v, hlast⟩ := List.eq_nil_or_concat' (valid nodata values)
    · exact absurd hnil h
    have hmem : v ∈ valid nodata values := by
      rw [hlast]
      exact List.mem_append_right below List.mem_cons_self
    have hv : isNodata nodata v = false := isNodata_of_mem_valid hmem
    rw [ofValues_valid, hlast, finish_overwrite_append, hv]
    exact .last below v
  | mean => exact absurd rfl hpolicy
  | min =>
    obtain ⟨hmem, hleast⟩ := finish_least (K := Float) (fun v => rank (unpackSingle v))
      (fun w v => replaces_min_iff) nofun (isNodata_self nodata) h
    exact .least hmem fun w hw => (single_le_iff (hnumber hmem) (hnumber hw)).mpr (hleast w hw)
  | max =>
    -- the greatest value is the least one of the opposite order
    obtain ⟨hmem, hleast⟩ := finish_least (K := Float)
      (fun v => OrderDual.toDual (rank (unpackSingle v))) (fun w v => replaces_max_iff) nofun
      (isNodata_self nodata) h
    exact .greatest hmem fun w hw => (single_le_iff (hnumber hw) (hnumber hmem)).mpr (hleast w hw)

/-- Fusing the values at a pixel gives what the policy is defined to give, but for a mean that is
miscounted. -/
theorem isFusionOf_finish_iff (policy : Fusion) (nodata : Float32) (values : List Float32) :
    IsFusionOf nodata policy (valid nodata values)
        (finish nodata (ofValues policy nodata values : FusedPixel Float32 Float)) ↔
      ¬(policy = .mean ∧ Miscounted nodata (valid nodata values)) := by
  by_cases hpolicy : policy = .mean
  · subst hpolicy
    rw [finish_mean, isFusionOf_meanOf_iff]
    exact not_congr (and_iff_right rfl).symm
  · exact iff_of_true (isFusionOf_finish hpolicy nodata values) fun hmean => hpolicy hmean.1

end FusedPixel

/-! ## Arrays -/

namespace FusionAccumulator

variable {V K : Type} [Coordinate K] [Sample V K]

/-- Adds a value to one pixel. -/
def addAt (acc : FusionAccumulator V K) (place : V × Nat) : FusionAccumulator V K :=
  { acc with pixels := acc.pixels.modify place.2 (FusedPixel.add acc.policy acc.nodata · place.1) }

/-- Adds an array in place: the accumulator is a state, which is there after a failure as well. -/
def pushInPlace (data : Array V) : EStateM LoadError (FusionAccumulator V K) Unit := do
  let acc ← get
  if data.size = acc.size then
    data.toList.zipIdx.forM fun place => modify (·.addAt place)
  else throw (.configuration s!"cannot fuse array of {data.size} pixels into {acc.size}")

theorem run_forM_modify {σ ε α : Type} (f : σ → α → σ) (l : List α) (s : σ) :
    (l.forM fun a => (modify (f · a) : EStateM ε σ Unit)).run s = .ok () (l.foldl f s) := by
  induction l generalizing s with
  | nil => rfl
  | cons a rest ih => exact ih (f s a)

/-- Adding values one after the other changes every pixel by the value at its own place. -/
theorem foldl_addAt (values : List V) (first : Nat) (acc : FusionAccumulator V K) :
    ∃ pixels, (values.zipIdx first).foldl addAt acc = { acc with pixels } ∧ ∀ j, pixels[j]? =
      (acc.pixels[j]?).map fun pixel =>
        if j < first then pixel
        else (values[j - first]?).elim pixel (FusedPixel.add acc.policy acc.nodata pixel) := by
  induction values generalizing first acc with
  | nil =>
    refine ⟨acc.pixels, rfl, fun j => ?_⟩
    simp
  | cons v rest ih =>
    obtain ⟨pixels, hfold, hpixels⟩ := ih (first + 1) (acc.addAt (v, first))
    refine ⟨pixels, hfold, fun j => ?_⟩
    rw [hpixels, addAt, Array.getElem?_modify]
    -- the first value goes to the first place, and what is said of the others comes after it
    rcases lt_trichotomy j first with hlt | rfl | hgt
    · rw [if_neg hlt.ne']
      simp only [if_pos hlt, if_pos (Nat.lt_succ_of_lt hlt)]
    · simp [Function.comp_def]
    · obtain ⟨k, rfl⟩ := Nat.exists_eq_add_of_lt hgt
      have hplace : first + k + 1 - first = k + 1 := by omega
      have hplace' : first + k + 1 - (first + 1) = k := by omega
      have hnext : ¬first + k + 1 < first + 1 := by omega
      simp only [if_neg hgt.ne, if_neg hgt.not_gt, if_neg hnext, hplace, hplace',
        List.getElem?_cons_succ]

/-- Adding an array in place gives what adding it gives, and leaves everything as it was where the
array does not fit. -/
theorem run_pushInPlace (acc : FusionAccumulator V K) (data : Array V) :
    (∀ acc', (pushInPlace data).run acc = .ok () acc' ↔ acc.push data = .ok acc') ∧
      ∀ e acc', (pushInPlace data).run acc = .error e acc' ↔
        acc.push data = .error e ∧ acc' = acc := by
  have hrun : (pushInPlace data).run acc =
      (if data.size = acc.size then
        data.toList.zipIdx.forM fun place => modify (·.addAt place)
      else throw (.configuration s!"cannot fuse array of {data.size} pixels into {acc.size}") :
        EStateM LoadError (FusionAccumulator V K) Unit).run acc := rfl
  rw [hrun, push]
  split
  · next hsize =>
    obtain ⟨pixels, hfold, hpixels⟩ := foldl_addAt data.toList 0 acc
    have hzip : pixels = acc.pixels.zipWith (FusedPixel.add acc.policy acc.nodata) data := by
      refine Array.ext_getElem? fun j => ?_
      rw [hpixels, Array.getElem?_zipWith]
      simp only [Nat.not_lt_zero, if_false, Nat.sub_zero, Array.getElem?_toList]
      by_cases hj : j < data.size
      · rw [Array.getElem?_eq_getElem hj, Array.getElem?_eq_getElem (hj.trans_eq hsize)]
        rfl
      · rw [Array.getElem?_eq_none (not_lt.mp hj),
          Array.getElem?_eq_none (hsize.symm.le.trans (not_lt.mp hj))]
        rfl
    rw [run_forM_modify, hfold, hzip]
    refine ⟨fun acc' => ⟨?_, ?_⟩, fun e acc' => iff_of_false nofun (fun h => nomatch h.1)⟩ <;>
    · rintro ⟨⟩
      rfl
  · refine ⟨fun acc' => iff_of_false nofun nofun, fun e acc' => ⟨?_, ?_⟩⟩
    · rintro ⟨⟩
      exact ⟨rfl, rfl⟩
    · rintro ⟨⟨⟩, rfl⟩
      rfl

/-- A run over arrays stops at the first one of another length, and only there. -/
theorem foldlM_push_eq_error {arrays : List (Array V)} {acc : FusionAccumulator V K} {e : LoadError} :
    arrays.foldlM push acc = .error e ↔
      ∃ a, arrays.find? (fun a => a.size ≠ acc.size) = some a ∧
        e = .configuration s!"cannot fuse array of {a.size} pixels into {acc.size}" := by
  induction arrays generalizing acc with
  | nil => exact iff_of_false nofun (by rintro ⟨a, ha, -⟩; cases ha)
  | cons first rest ih =>
    rw [List.foldlM_cons]
    by_cases hsize : first.size = acc.size
    · obtain ⟨acc', hpush, hsize'⟩ := exists_push hsize
      rw [hpush, ok_bind, ih, hsize', List.find?_cons_of_neg (by simpa using hsize)]
    · have hpush : acc.push first =
          .error (.configuration s!"cannot fuse array of {first.size} pixels into {acc.size}") :=
        if_neg hsize
      rw [hpush, List.find?_cons_of_pos (by simpa using hsize)]
      constructor
      · intro h
        exact ⟨first, rfl, (Except.error.inj h).symm⟩
      · rintro ⟨_, ⟨⟩, rfl⟩
        rfl

end FusionAccumulator

section Fuse

variable {V K : Type} [Coordinate K] [Sample V K]

/-- Fusing fails at the first array of another length than the result. -/
theorem fuse_eq_error {policy : Fusion} {count : Nat} {nodata : V} {arrays : List (Array V)}
    {e : LoadError} :
    fuse (K := K) policy count nodata arrays = .error e ↔
      ∃ a, arrays.find? (fun a => a.size ≠ count) = some a ∧
        e = .configuration s!"cannot fuse array of {a.size} pixels into {count}" := by
  let acc : FusionAccumulator V K := .start policy count nodata
  have hsize : acc.size = count := Array.size_replicate
  have hrun : fuse (K := K) policy count nodata arrays = .error e ↔
      arrays.foldlM FusionAccumulator.push acc = .error e := by
    constructor
    · intro h
      rcases bind_eq_error.mp h with h | ⟨reached, -, h⟩
      · exact h
      · cases h
    · intro h
      exact bind_eq_error.mpr (.inl h)
  rw [hrun, FusionAccumulator.foldlM_push_eq_error, hsize]

end Fuse

/-- Fusing fails exactly when some array has another length than the result, with an error that
names the length of the first such array, and an array that does not fit leaves an accumulator as it
was. Otherwise every pixel of the result is what the policy makes of the valid values there, in the
order of the arrays, unless the policy is the mean, a word cannot count the values, and the mean
that comes of it is another one. -/
theorem fuse_pixelwise (policy : Fusion) (count : Nat) (nodata : Float32)
    (arrays : List (Array Float32)) :
    ((∃ e, fuse (K := Float) policy count nodata arrays = .error e) ↔
      ∃ a ∈ arrays, a.size ≠ count) ∧
    (∀ e, fuse (K := Float) policy count nodata arrays = .error e ↔
      ∃ a, arrays.find? (fun a => a.size ≠ count) = some a ∧
        e = .configuration s!"cannot fuse array of {a.size} pixels into {count}") ∧
    (∀ (acc : FusionAccumulator Float32 Float) data,
      (∀ acc', (FusionAccumulator.pushInPlace data).run acc = .ok () acc' ↔
        acc.push data = .ok acc') ∧
      ∀ e acc', (FusionAccumulator.pushInPlace data).run acc = .error e acc' ↔
        acc.push data = .error e ∧ acc' = acc) ∧
    ∀ fused, fuse (K := Float) policy count nodata arrays = .ok fused →
      fused.size = count ∧ ∀ j, j < count → ∃ v, fused[j]? = some v ∧
        let values := FusedPixel.valid nodata (arrays.filterMap (·[j]?))
        (FusedPixel.IsFusionOf nodata policy values v ↔
          ¬(policy = .mean ∧ FusedPixel.Miscounted nodata values)) ∧
        (policy = .mean → v = FusedPixel.meanOf (K := Float) nodata values) := by
  refine ⟨?_, fun e => fuse_eq_error, fun acc data => acc.run_pushInPlace data,
    fun fused h => ?_⟩
  · constructor
    · rintro ⟨e, h⟩
      obtain ⟨a, ha, -⟩ := fuse_eq_error.mp h
      have hsize := List.find?_some ha
      exact ⟨a, List.mem_of_find?_eq_some ha, of_decide_eq_true hsize⟩
    · rintro ⟨a, ha, hsize⟩
      have hsome : (arrays.find? fun a => a.size ≠ count).isSome = true :=
        List.find?_isSome.mpr ⟨a, ha, decide_eq_true hsize⟩
      obtain ⟨first, hfirst⟩ := Option.isSome_iff_exists.mp hsome
      exact ⟨_, fuse_eq_error.mpr ⟨first, hfirst, rfl⟩⟩
  · obtain ⟨hsize, -, hpixels⟩ := fuse_ok h
    refine ⟨hsize, fun j hj => ⟨_, hpixels j hj, FusedPixel.isFusionOf_finish_iff .., ?_⟩⟩
    rintro rfl
    exact FusedPixel.finish_mean nodata _

/-- The least value is found where nodata lies between the values: of 2, NaN, -1 and nodata, which is
0, it is -1. -/
theorem fuse_pixelwise_nodata_between :
    ∃ fused : Array Float32,
      fuse (K := Float) .min 1 0.0 [#[2.0], #[0.0 / 0.0], #[-1.0], #[0.0]] = .ok fused ∧
      ∃ v, fused[0]? = some v ∧ FusedPixel.IsFusionOf 0.0 .min [2.0, -1.0] v := by
  obtain ⟨fused, hfused, -⟩ := exists_ok_of_test
    (fuse (K := Float) .min 1 (0.0 : Float32) [#[2.0], #[0.0 / 0.0], #[-1.0], #[0.0]])
    (fun _ => true) (by decide +kernel)
  obtain ⟨-, hpixels⟩ := (fuse_pixelwise .min 1 0.0 _).2.2.2 fused hfused
  obtain ⟨v, hv, hfusion, -⟩ := hpixels 0 Nat.one_pos
  have hvalid : FusedPixel.valid (0.0 : Float32)
      (([#[2.0], #[0.0 / 0.0], #[-1.0], #[0.0]] : List (Array Float32)).filterMap (·[0]?)) =
      [2.0, -1.0] := by decide +kernel
  rw [hvalid] at hfusion
  exact ⟨fused, hfused, v, hv, hfusion.mpr fun hmean => nomatch hmean.1⟩

/-! ## As many values as a word can tell -/

theorem FusedPixel.foldl_replicate_zero (n : Nat) :
    (List.replicate n (0.0 : Float32)).foldl (fun sum v => sum + widen v) (0.0 : Float) = 0.0 := by
  have hzero : (0.0 : Float) + widen (0.0 : Float32) = 0.0 := by decide +kernel
  induction n with
  | zero => rfl
  | succ n ih => rw [List.replicate_succ, List.foldl_cons, hzero, ih]

/-- Arrays of one zero are fused to nodata when a word counts as many as none. -/
theorem fuse_replicate_zero {n : Nat} (hn : n % UInt32.size = 0) {nodata : Float32}
    (hdata : isNodata nodata 0.0 = false) :
    fuse (K := Float) .mean 1 nodata (List.replicate n #[0.0]) = .ok #[nodata] := by
  have hvalues : (List.replicate n #[(0.0 : Float32)]).filterMap (·[0]?) =
      List.replicate n (0.0 : Float32) := List.filterMap_replicate_of_some rfl
  have hvalid : FusedPixel.valid nodata (List.replicate n 0.0) = List.replicate n 0.0 :=
    List.filter_replicate_of_pos (by rw [hdata]; rfl)
  have hmean : FusedPixel.meanOf (K := Float) nodata (List.replicate n 0.0) = nodata :=
    if_pos (by rw [FusedPixel.counted, List.length_replicate, hn])
  cases hfuse : fuse (K := Float) .mean 1 nodata (List.replicate n #[0.0]) with
  | error e =>
    obtain ⟨a, ha, -⟩ := fuse_eq_error.mp hfuse
    have hsize := List.find?_some ha
    rw [List.eq_of_mem_replicate (List.mem_of_find?_eq_some ha)] at hsize
    exact absurd rfl (of_decide_eq_true hsize)
  | ok fused =>
    obtain ⟨hsize, -, hpixels⟩ := fuse_ok hfuse
    have hpixel := hpixels 0 Nat.one_pos
    rw [FusedPixel.finish_mean, hvalues, hvalid, hmean] at hpixel
    refine congrArg Except.ok (Array.ext_getElem? fun j => ?_)
    cases j with
    | zero => exact hpixel
    | succ j => rw [Array.getElem?_eq_none (by omega), Array.getElem?_eq_none (Nat.le_add_left 1 j)]

/-- The mean of `2 ^ 32` zeros is zero, and what they are fused to is nodata. -/
theorem mean_of_zeros_is_nodata :
    fuse (K := Float) .mean 1 (-999.0 : Float32) (List.replicate (2 ^ 32) #[0.0]) =
        .ok #[-999.0] ∧
      ¬FusedPixel.IsFusionOf (-999.0) .mean (List.replicate (2 ^ 32) 0.0) (-999.0) := by
  refine ⟨fuse_replicate_zero (by decide) (by decide +kernel), fun hmean => ?_⟩
  have hvalue := FusedPixel.eq_mean_of_isFusionOf hmean
    (List.length_pos_iff.mp (by rw [List.length_replicate]; decide))
  rw [FusedPixel.foldl_replicate_zero, List.length_replicate] at hvalue
  revert hvalue
  decide +kernel

end Mosaic
