import Mathlib.Data.List.Induction
import Mosaic.Load.Fuse
import Mosaic.Proofs.Outcome

/-!
# What a stack of arrays fuses to

A fusion works pixel by pixel: what it makes of a pixel depends on the values of the arrays there
and on nothing else (`fuse_ok`). Of these values only the valid ones count. Without any the
pixel is nodata, and a pixel that holds a value holds one of them; only a mean is a value of its
own, and that of the values that a word of 32 bits can count.
-/

namespace Mosaic

variable {V K : Type} [Coordinate K] [Sample V K]

namespace FusedPixel

/-- The values that hold data. -/
def valid (nodata : V) (values : List V) : List V := values.filter fun v => !isNodata nodata v

/-- What a pixel is after a list of values. -/
def ofValues (policy : Fusion) (nodata : V) (values : List V) : FusedPixel V K :=
  values.foldl (add policy nodata) (start policy nodata)

/-- The number of values as a word of 32 bits has it. -/
def counted (values : List V) : Nat := values.length % UInt32.size

/-- The mean of a list of values, taken among the coordinates, by the number of them that is
counted, and nodata where that is zero. -/
def meanOf (nodata : V) (values : List V) : V :=
  if counted values = 0 then nodata
  else
    Sample.narrow (values.foldl (fun sum v => sum + Sample.widen v) (0.0 : K) /
      Coordinate.ofNat (counted values))

/-- A value without data does not change a pixel. -/
theorem add_of_isNodata {policy : Fusion} {nodata v : V} (h : isNodata nodata v = true)
    (pixel : FusedPixel V K) : add policy nodata pixel v = pixel :=
  if_pos h

theorem add_total {policy : Fusion} {nodata v : V} (h : isNodata nodata v = false) (sum : K)
    (count : UInt32) :
    add policy nodata (total sum count) v = total (sum + Sample.widen v) (count + 1) := by
  unfold add
  rw [h]
  rfl

theorem add_held {policy : Fusion} {nodata v : V} (h : isNodata nodata v = false) (w : V) :
    add policy nodata (held w : FusedPixel V K) v =
      held (if replaces policy nodata w v then v else w) := by
  unfold add
  rw [h]
  rfl

theorem ofValues_append (policy : Fusion) (nodata : V) (values : List V) (v : V) :
    (ofValues policy nodata (values ++ [v]) : FusedPixel V K) =
      add policy nodata (ofValues policy nodata values) v :=
  List.foldl_append

/-- Only the values that hold data count. -/
theorem ofValues_valid (policy : Fusion) (nodata : V) (values : List V) :
    (ofValues policy nodata values : FusedPixel V K) =
      ofValues policy nodata (valid nodata values) := by
  unfold ofValues
  -- the induction needs every pixel to start from, as each value changes it
  generalize (start policy nodata : FusedPixel V K) = pixel
  induction values generalizing pixel with
  | nil => rfl
  | cons v rest ih =>
    cases h : isNodata nodata v with
    | true =>
      have hskip : valid nodata (v :: rest) = valid nodata rest :=
        List.filter_cons_of_neg (by rw [h]; decide)
      rw [List.foldl_cons, add_of_isNodata h, hskip, ih]
    | false =>
      have hkeep : valid nodata (v :: rest) = v :: valid nodata rest :=
        List.filter_cons_of_pos (by rw [h]; decide)
      rw [List.foldl_cons, hkeep, List.foldl_cons, ih]

omit [Coordinate K] in
theorem isNodata_of_mem_valid {nodata v : V} {values : List V} (h : v ∈ valid nodata values) :
    isNodata nodata v = false := by
  have := (List.mem_filter.mp h).2
  rwa [Bool.not_eq_true'] at this

omit [Coordinate K] in
theorem valid_eq_nil {nodata : V} {values : List V} :
    valid nodata values = [] ↔ ∀ v ∈ values, isNodata nodata v = true := by
  rw [valid, List.filter_eq_nil_iff]
  simp only [Bool.not_eq_true', Bool.not_eq_false]

theorem foldl_total (policy : Fusion) {nodata : V} {values : List V}
    (h : ∀ v ∈ values, isNodata nodata v = false) (sum : K) (count : UInt32) :
    values.foldl (add policy nodata) (total sum count) =
      total (values.foldl (fun sum v => sum + Sample.widen v) sum)
        (count + .ofNat values.length) := by
  induction values generalizing sum count with
  | nil => exact congrArg (total sum) (UInt32.add_zero count).symm
  | cons v rest ih =>
    rw [List.foldl_cons, add_total (h v List.mem_cons_self),
      ih fun w hw => h w (List.mem_cons_of_mem v hw), List.foldl_cons, List.length_cons,
      Nat.add_comm, UInt32.ofNat_add, UInt32.add_assoc]
    rfl

/-- A pixel of a mean holds the sum of the values and, in a word, their number. -/
theorem ofValues_mean {nodata : V} {values : List V}
    (h : ∀ v ∈ values, isNodata nodata v = false) :
    (ofValues .mean nodata values : FusedPixel V K) =
      total (values.foldl (fun sum v => sum + Sample.widen v) 0.0) (.ofNat values.length) := by
  have := foldl_total .mean h (0.0 : K) 0
  rwa [UInt32.zero_add] at this

theorem foldl_held (policy : Fusion) {nodata : V} {values : List V}
    (h : ∀ v ∈ values, isNodata nodata v = false) (w : V) :
    ∃ v, values.foldl (add policy nodata) (held w : FusedPixel V K) = held v ∧
      (v = w ∨ v ∈ values) := by
  induction values generalizing w with
  | nil => exact ⟨w, rfl, .inl rfl⟩
  | cons v rest ih =>
    obtain ⟨u, hu, hmem⟩ := ih (fun w hw => h w (List.mem_cons_of_mem v hw))
      (if replaces policy nodata w v then v else w)
    rw [List.foldl_cons, add_held (h v List.mem_cons_self), hu]
    refine ⟨u, rfl, ?_⟩
    rcases hmem with rfl | hmem
    · split
      · exact .inr List.mem_cons_self
      · exact .inl rfl
    · exact .inr (List.mem_cons_of_mem v hmem)

omit [Coordinate K] in
/-- Every value replaces nodata. -/
theorem replaces_nodata {nodata : V} (hnodata : isNodata nodata nodata = true) (policy : Fusion)
    (v : V) : replaces policy nodata nodata v = true := by
  cases policy <;> simp only [replaces, hnodata, Bool.true_or]

/-- A pixel of another policy holds one of the values. -/
theorem ofValues_held {policy : Fusion} (hpolicy : policy ≠ .mean) {nodata : V}
    (hnodata : isNodata nodata nodata = true) {values : List V}
    (h : ∀ v ∈ values, isNodata nodata v = false) :
    ∃ v, (ofValues policy nodata values : FusedPixel V K) = held v ∧
      (values = [] ∧ v = nodata ∨ v ∈ values) := by
  have hstart : (start policy nodata : FusedPixel V K) = held nodata := by
    cases policy <;> first | rfl | exact absurd rfl hpolicy
  cases values with
  | nil => exact ⟨nodata, hstart, .inl ⟨rfl, rfl⟩⟩
  | cons v rest =>
    obtain ⟨u, hu, hmem⟩ := foldl_held (K := K) policy
      (fun w hw => h w (List.mem_cons_of_mem v hw)) v
    refine ⟨u, ?_, .inr (List.mem_cons.mpr hmem)⟩
    rw [ofValues, hstart, List.foldl_cons, add_held (h v List.mem_cons_self),
      if_pos (replaces_nodata hnodata policy v), hu]

/-- Without a valid value a pixel is nodata. -/
theorem finish_of_no_valid {policy : Fusion} {nodata : V} {values : List V}
    (h : valid nodata values = []) :
    finish nodata (ofValues policy nodata values : FusedPixel V K) = nodata := by
  rw [ofValues_valid, h]
  cases policy <;> rfl

/-- A pixel that is no mean takes the value of one of the arrays. -/
theorem finish_mem_valid {policy : Fusion} (hpolicy : policy ≠ .mean) {nodata : V}
    (hnodata : isNodata nodata nodata = true) {values : List V} (h : valid nodata values ≠ []) :
    finish nodata (ofValues policy nodata values : FusedPixel V K) ∈ valid nodata values := by
  obtain ⟨v, hv, hempty | hmem⟩ := ofValues_held (K := K) hpolicy hnodata
    (fun v (hv : v ∈ valid nodata values) => isNodata_of_mem_valid hv)
  · exact absurd hempty.1 h
  · rw [ofValues_valid, hv]
    exact hmem

theorem finish_mean (nodata : V) (values : List V) :
    finish nodata (ofValues .mean nodata values : FusedPixel V K) =
      meanOf (K := K) nodata (valid nodata values) := by
  have hcount : (UInt32.ofNat (valid nodata values).length).toNat = counted (valid nodata values) :=
    UInt32.toNat_ofNat'
  rw [ofValues_valid, ofValues_mean fun v => isNodata_of_mem_valid, finish, meanOf, ← hcount]
  simp only [← UInt32.toNat_inj, UInt32.toNat_zero]

/-- A pixel that is overwritten holds a value at any time. -/
theorem ofValues_overwrite (nodata : V) (values : List V) :
    ∃ v, (ofValues .overwrite nodata values : FusedPixel V K) = held v := by
  induction values using List.reverseRecOn with
  | nil => exact ⟨nodata, rfl⟩
  | append_singleton values v ih =>
    obtain ⟨w, hw⟩ := ih
    rw [ofValues_append, hw]
    cases hv : isNodata nodata v with
    | true => exact ⟨w, add_of_isNodata hv _⟩
    | false => exact ⟨v, add_held hv w⟩

/-- A pixel that is overwritten keeps its value under a value without data and takes any other. -/
theorem finish_overwrite_append (nodata : V) (values : List V) (v : V) :
    finish nodata (ofValues .overwrite nodata (values ++ [v]) : FusedPixel V K) =
      if isNodata nodata v then finish nodata (ofValues .overwrite nodata values : FusedPixel V K)
      else v := by
  rw [ofValues_append]
  cases hv : isNodata nodata v with
  | true =>
    rw [add_of_isNodata hv]
    rfl
  | false =>
    obtain ⟨w, hw⟩ := ofValues_overwrite (K := K) nodata values
    rw [hw, add_held hv]
    rfl

end FusedPixel

/-! ## Arrays -/

namespace FusionAccumulator

/-- What has been fused of some arrays, seen at one pixel. -/
structure Holds (policy : Fusion) (count : Nat) (nodata : V) (arrays : List (Array V))
    (acc : FusionAccumulator V K) : Prop where
  policy_eq : acc.policy = policy
  nodata_eq : acc.nodata = nodata
  size_eq : acc.size = count
  sizes : ∀ a ∈ arrays, a.size = count
  pixels : ∀ j, j < count →
    acc.pixels[j]? = some (FusedPixel.ofValues policy nodata (arrays.filterMap (·[j]?)))

theorem holds_start (policy : Fusion) (count : Nat) (nodata : V) :
    Holds policy count nodata [] (start policy count nodata : FusionAccumulator V K) where
  policy_eq := rfl
  nodata_eq := rfl
  size_eq := Array.size_replicate
  sizes := nofun
  pixels j hj := by
    show (Array.replicate count (FusedPixel.start policy nodata : FusedPixel V K))[j]? = _
    rw [Array.getElem?_replicate, if_pos hj]
    rfl

/-- An array that is added has the length of the accumulator, which keeps it. -/
theorem size_of_push {acc acc' : FusionAccumulator V K} {data : Array V}
    (h : acc.push data = .ok acc') : data.size = acc.size ∧ acc'.size = acc.size := by
  unfold push at h
  split at h
  · next hsize =>
    cases h
    refine ⟨hsize, ?_⟩
    show (acc.pixels.zipWith _ data).size = acc.pixels.size
    rw [Array.size_zipWith, hsize]
    exact Nat.min_self _
  · cases h

/-- An array of the right length can be added. -/
theorem exists_push {acc : FusionAccumulator V K} {data : Array V} (h : data.size = acc.size) :
    ∃ acc', acc.push data = .ok acc' ∧ acc'.size = acc.size :=
  ⟨_, if_pos h, (size_of_push (if_pos h)).2⟩

theorem holds_push {policy : Fusion} {count : Nat} {nodata : V} {arrays : List (Array V)}
    {acc acc' : FusionAccumulator V K} {data : Array V} (h : Holds policy count nodata arrays acc)
    (hpush : acc.push data = .ok acc') : Holds policy count nodata (arrays ++ [data]) acc' := by
  obtain ⟨rfl, rfl, rfl, hsizes, hpixels⟩ := h
  have hsize' := (size_of_push hpush).2
  unfold push at hpush
  split at hpush
  · next hsize =>
    cases hpush
    refine ⟨rfl, rfl, hsize', ?_, fun j hj => ?_⟩
    · intro a ha
      rcases List.mem_append.mp ha with ha | ha
      · exact hsizes a ha
      · rwa [List.mem_singleton.mp ha]
    · have hlt : j < data.size := hsize.symm ▸ hj
      obtain ⟨v, hv⟩ : ∃ v, data[j]? = some v := ⟨_, Array.getElem?_eq_getElem hlt⟩
      have hvalues : (arrays ++ [data]).filterMap (·[j]?) = arrays.filterMap (·[j]?) ++ [v] := by
        rw [List.filterMap_append]
        exact congrArg (_ ++ ·) (List.filterMap_cons_some hv)
      show (acc.pixels.zipWith _ data)[j]? = _
      rw [Array.getElem?_zipWith, hpixels j hj, hv, hvalues, FusedPixel.ofValues_append]
  · cases hpush

end FusionAccumulator

/-- Fusing succeeds for arrays of the right length only, and every pixel of the result depends on
the values of the arrays there. -/
theorem fuse_ok {policy : Fusion} {count : Nat} {nodata : V} {arrays : List (Array V)}
    {fused : Array V} (h : fuse policy count nodata arrays = .ok fused) :
    fused.size = count ∧ (∀ a ∈ arrays, a.size = count) ∧ ∀ j, j < count →
      fused[j]? = some (FusedPixel.finish nodata
        (FusedPixel.ofValues policy nodata (arrays.filterMap (·[j]?)))) := by
  obtain ⟨acc, hacc, hfinish⟩ := bind_eq_ok.mp h
  cases hfinish
  have hholds := foldlM_ok (FusionAccumulator.Holds policy count nodata)
    (fun _ _ _ _ => FusionAccumulator.holds_push)
    (FusionAccumulator.holds_start policy count nodata) hacc
  refine ⟨?_, hholds.sizes, fun j hj => ?_⟩
  · rw [FusionAccumulator.finish, Array.size_map]
    exact hholds.size_eq
  · rw [FusionAccumulator.finish, Array.getElem?_map, hholds.pixels j hj, hholds.nodata_eq]
    rfl

end Mosaic
