import Mosaic.Proofs.Assembly
import Mosaic.Proofs.Casting
import Mosaic.Raster.Memory

/-!
# When a pixel of a tile holds no data

A pixel of a loaded tile should hold no data only where none of the datasets has data. For every
policy but the mean this is so: the pixel takes a value of one of the windows, and storing a value
that has been cast already changes nothing. A mean is a new value, which may be the nodata value by
chance, and nothing keeps it off: `isNodata_iff` says that this is the one way in which data gets
lost.
-/

namespace Mosaic

open Binary

/-- The nodata value holds no data itself. -/
theorem isNodata_self (nodata : Float32) : isNodata nodata nodata = true := by
  unfold isNodata
  show (nodata.isNaN || nodata == nodata) = true
  cases h : nodata.isNaN with
  | true => rfl
  | false => rw [Bool.false_or, single_beq_iff h h]

section Warp

variable {V K : Type} [Coordinate K] [Sample V K]

/-- Whether a window can show a value: nodata, or a sample cast to the type of the measurement. -/
def Measurement.MayShow (m : Measurement V) (v : V) : Prop :=
  v = m.nodata ∨ ∃ sample, v = m.dtype.castValid sample m.nodata

theorem Warp.mayShow_pixelValue (m : Measurement V) (view : WindowView V) (origin : Point K)
    (area : Option (PixelFootprint K)) (position : Option (Point K)) :
    m.MayShow (pixelValue m view origin area position) := by
  unfold pixelValue
  split
  · exact .inl rfl
  · split
    · exact .inl rfl
    · simp only
      split
      · exact .inl rfl
      · exact .inr ⟨_, rfl⟩

variable [Reprojection K] [Containment K]

/-- Every pixel of a warped tile is nodata or a sample cast to the type of the measurement. -/
theorem Dataset.mayShow_of_warp {d : Dataset K} {source : RasterSource V} {count : Nat}
    {grid : Grid K} {m : Measurement V} {tile : TileIndex} {w : WarpedTile V}
    (h : d.warp source count grid m tile = .ok w) {v : V} (hv : v ∈ w.data) : m.MayShow v := by
  have hblank : ∀ shape, v ∈ (WarpedTile.blank (K := K) shape m.nodata).data → m.MayShow v :=
    fun shape hv => .inl (Array.mem_replicate.mp hv).2
  unfold Dataset.warp at h
  simp only at h
  split at h
  · obtain ⟨ring, -, h⟩ := bind_eq_ok.mp h
    split at h
    · obtain ⟨centers, -, h⟩ := bind_eq_ok.mp h
      split at h
      · cases h
        exact hblank _ hv
      · obtain ⟨handle, -, h⟩ := bind_eq_ok.mp h
        split at h
        · obtain ⟨read, -, h⟩ := bind_eq_ok.mp h
          have hwindow : ∃ window corners, w.data = Warp.pixelValues m grid.pixelShape.width window
              read corners (centers.map (Warp.position? d (Warp.liesInside d ring))) := by
            split at h <;>
            · obtain ⟨corners, -, h⟩ := bind_eq_ok.mp h
              cases h
              exact ⟨_, corners, rfl⟩
          obtain ⟨window, corners, hdata⟩ := hwindow
          rw [hdata] at hv
          obtain ⟨i, hi, rfl⟩ := Array.mem_mapIdx.mp hv
          exact Warp.mayShow_pixelValue _ _ _ _ _
        · cases h
          exact hblank _ hv
    · cases h
      exact hblank _ hv
  · cases h

namespace LoadPlan

variable {p : LoadPlan K V} {source : RasterSource V} {tile : TileIndex} {d : Dataset K}

theorem mayShow_of_mem_windows {stack : List (Dataset K)} {i : Nat} {m : Measurement V}
    (hm : p.measurements[i]? = some m) {w : WarpedTile V} (hw : w ∈ p.windows source tile stack i)
    {v : V} (hv : v ∈ w.data) : m.MayShow v := by
  obtain ⟨d, -, hwindow⟩ := List.mem_filterMap.mp hw
  unfold window? at hwindow
  split at hwindow
  · next tiles hc => exact Dataset.mayShow_of_warp (warp_of_contribution hc hm hwindow) hv
  · cases hwindow

end LoadPlan

end Warp

/-! ## Storing a value a second time -/

theorem DataType.exists_castValid_eq_cast (d : DataType) (value nodata : Float32) :
    ∃ z, d.castValid value nodata = d.cast z := by
  unfold castValid
  simp only
  split
  · split <;> split <;> exact ⟨_, rfl⟩
  · exact ⟨_, rfl⟩

/-- A value that has been cast and is not nodata is left alone by another cast. -/
theorem DataType.castValid_castValid (d : DataType) {value nodata : Float32}
    (h : isNodata nodata (d.castValid value nodata) = false) :
    d.castValid (d.castValid value nodata) nodata = d.castValid value nodata := by
  obtain ⟨z, hz⟩ := d.exists_castValid_eq_cast value nodata
  have hoff : (d.cast z == nodata) = false := by
    rw [hz] at h
    exact (Bool.or_eq_false_iff.mp h).2
  rw [hz]
  unfold castValid
  simp only [cast_cast, hoff, Bool.false_and]
  rfl

/-- Storing leaves the valid values of a window alone. -/
theorem Measurement.store_of_mayShow {m : Measurement Float32} {v : Float32} (h : m.MayShow v)
    (hvalid : isNodata m.nodata v = false) : m.store v = v := by
  rcases h with rfl | ⟨sample, rfl⟩
  · rw [isNodata_self] at hvalid
    cases hvalid
  · unfold store
    split
    · exact m.dtype.castValid_castValid hvalid
    · rfl

theorem Measurement.store_nodata (m : Measurement Float32) : m.store m.nodata = m.nodata := by
  unfold store
  rw [isNodata_self, Bool.not_true, Bool.and_false]
  rfl

namespace LoadPlan

variable {p : LoadPlan Float Float32} {source : RasterSource Float32}

/-- What the windows of the datasets of a stack hold at a pixel of a measurement. -/
def values (p : LoadPlan Float Float32) (source : RasterSource Float32) (tile : TileIndex)
    (stack : List (Dataset Float)) (i j : Nat) : List Float32 :=
  (p.windows source tile stack i).filterMap (·.data[j]?)

/-- Some values are valid, and their mean is stored as nodata, which it is also where a word counts
none of them. -/
def MeanIsNodata (p : LoadPlan Float Float32) (m : Measurement Float32) (values : List Float32) :
    Prop :=
  p.product.fusion = .mean ∧ (∃ v ∈ values, isNodata m.nodata v = false) ∧
    isNodata m.nodata (m.store
      (FusedPixel.meanOf (K := Float) m.nodata (FusedPixel.valid m.nodata values))) = true

/-- What a pixel holds is stored from what the values of the windows fuse to. -/
theorem pixel_of_loadTile {key : TileKey} {t : AssembledTile Float Float32}
    (h : p.loadTile source key = .ok t) {i : Nat} {m : Measurement Float32}
    (hm : p.measurements[i]? = some m) {j : Nat} (hj : j < p.grid.pixelShape.count Float) :
    ∃ stack a, p.cells.find? key = some stack ∧ t.measurements[i]? = some a ∧
      a.nodata = m.nodata ∧ a.data[j]? = some (m.store (FusedPixel.finish m.nodata
        (FusedPixel.ofValues p.product.fusion m.nodata (p.values source key.tile stack i j)))) := by
  obtain ⟨stack, hstack, hmeasurements⟩ := loadTile_ok h
  obtain ⟨fused, hfuse, ha⟩ := hmeasurements i m hm
  obtain ⟨-, -, hpixels⟩ := fuse_ok hfuse
  refine ⟨stack, _, hstack, ha, rfl, ?_⟩
  have hpixel := hpixels j hj
  rw [List.filterMap_map] at hpixel
  rw [Array.getElem?_map, hpixel]
  rfl

/-- A pixel of a tile holds no data exactly where none of the windows of the datasets does, unless
the mean of its values is stored as nodata. -/
theorem isNodata_iff {key : TileKey} {t : AssembledTile Float Float32}
    (h : p.loadTile source key = .ok t) {i : Nat} {m : Measurement Float32}
    (hm : p.measurements[i]? = some m) {j : Nat} (hj : j < p.grid.pixelShape.count Float) :
    ∃ stack a pixel, p.cells.find? key = some stack ∧ t.measurements[i]? = some a ∧
      a.nodata = m.nodata ∧ a.data[j]? = some pixel ∧
      ((isNodata m.nodata pixel = true ↔
          ∀ v ∈ p.values source key.tile stack i j, isNodata m.nodata v = true) ↔
        ¬p.MeanIsNodata m (p.values source key.tile stack i j)) := by
  obtain ⟨stack, a, hstack, ha, hnodata, hpixel⟩ := pixel_of_loadTile h hm hj
  refine ⟨stack, a, _, hstack, ha, hnodata, hpixel, ?_⟩
  have hmayShow : ∀ v ∈ p.values source key.tile stack i j, m.MayShow v := by
    intro v hv
    obtain ⟨w, hw, hget⟩ := List.mem_filterMap.mp hv
    exact mayShow_of_mem_windows hm hw (Array.mem_of_getElem? hget)
  generalize p.values source key.tile stack i j = values at *
  -- all values nodata, a mean of some valid ones, or one valid value that was picked
  by_cases hvalid : FusedPixel.valid m.nodata values = []
  · have hall := FusedPixel.valid_eq_nil.mp hvalid
    have hmean : ¬p.MeanIsNodata m values := by
      rintro ⟨-, ⟨v, hv, hdata⟩, -⟩
      rw [hall v hv] at hdata
      cases hdata
    rw [FusedPixel.finish_of_no_valid hvalid, m.store_nodata, isNodata_self]
    exact iff_of_true (iff_of_true rfl hall) hmean
  · have hsome : ∃ v ∈ values, isNodata m.nodata v = false := by
      obtain ⟨v, hv⟩ := List.exists_mem_of_ne_nil _ hvalid
      exact ⟨v, List.mem_of_mem_filter hv, FusedPixel.isNodata_of_mem_valid hv⟩
    have hall : ¬∀ v ∈ values, isNodata m.nodata v = true :=
      fun hall => hvalid (FusedPixel.valid_eq_nil.mpr hall)
    by_cases hpolicy : p.product.fusion = .mean
    · rw [hpolicy, FusedPixel.finish_mean, iff_false_right hall]
      exact not_congr ⟨fun hmean => ⟨hpolicy, hsome, hmean⟩, fun hmean => hmean.2.2⟩
    -- the picked value was stored when its window was made, so that storing it again does nothing
    · have hmem := FusedPixel.finish_mem_valid (K := Float) hpolicy (isNodata_self m.nodata) hvalid
      have hdata := FusedPixel.isNodata_of_mem_valid hmem
      rw [m.store_of_mayShow (hmayShow _ (List.mem_of_mem_filter hmem)) hdata, hdata]
      exact iff_of_true (iff_of_false Bool.false_ne_true hall) fun hmean => hpolicy hmean.1

/-! ## Two scenes of one place -/

section Example

/-- A band of whole numbers. -/
def redBand : Measurement Float32 where
  name := "red"
  dtype := .int16
  nodata := -999.0

/-- A scene of three by three pixels whose band lies at a path. -/
def sceneOf (id : BitVec 128) (path : String) : Dataset Float where
  id := ⟨id⟩
  product := "scenes"
  time := TimeSpan.instant ⟨0, 0⟩
  crs := .wgs84
  footprint := .ofBox ⟨-1.0, -2.25, 2.0, 0.75⟩
  transform := ⟨⟨-1.0, 1.0, 0.0, 0.75, 0.0, -1.0⟩, ⟨1.0, 1.0, 0.0, 0.75, 0.0, -1.0⟩⟩
  shape := ⟨3, 3⟩
  sources := ⟨[("red", ⟨path, none⟩)]⟩
  centroidLongitude := 0.5

/-- The cell of a tile whose lower part the scenes show. -/
def lowerKey : TileKey := ⟨⟨0, 0⟩, ⟨0, 0⟩⟩

def twoScenes : List (Dataset Float) := [sceneOf 1#128 "a", sceneOf 2#128 "b"]

/-- A load of the mean of the two scenes in tiles of one pixel. -/
def meanOfScenes : LoadPlan Float Float32 where
  product := { name := "scenes", measurements := [redBand], fusion := .mean }
  measurements := [redBand]
  grid := ⟨.wgs84, ⟨1.0, -1.0⟩, ⟨1.0, 1.0⟩, ⟨0.0, 0.0⟩, 0⟩
  grouping := .exact
  cells := ⟨[(lowerKey, twoScenes)]⟩
  warnings := []
  concurrency := 1
  densifyPoints := 0

/-- Two rasters of three by three pixels, each of one value. -/
def evenRasters (first second : Float32) : RasterSource Float32 :=
  MemoryRasters.source ⟨[(⟨"a", none⟩, ⟨⟨3, 3⟩, Array.replicate 9 first, none⟩),
    (⟨"b", none⟩, ⟨⟨3, 3⟩, Array.replicate 9 second, none⟩)]⟩

/-- The mean of two values is data where it is not nodata by chance. -/
theorem mean_of_scenes_is_data :
    ∃ t a pixel, meanOfScenes.loadTile (evenRasters (-998.0) (-1001.0)) lowerKey = .ok t ∧
      t.measurements[0]? = some a ∧ a.data[0]? = some pixel ∧
      isNodata redBand.nodata pixel = false := by
  obtain ⟨t, ht, -⟩ := exists_ok_of_test
    (meanOfScenes.loadTile (evenRasters (-998.0) (-1001.0)) lowerKey) (fun _ => true)
    (by decide +kernel)
  have hvalues : meanOfScenes.values (evenRasters (-998.0) (-1001.0)) ⟨0, 0⟩ twoScenes 0 0 =
      [-998.0, -1001.0] := by decide +kernel
  obtain ⟨stack, a, pixel, hstack, ha, -, hpixel, hiff⟩ :=
    isNodata_iff ht (i := 0) (m := redBand) rfl (j := 0) (by decide +kernel)
  obtain rfl : twoScenes = stack := Option.some_inj.mp hstack
  rw [show lowerKey.tile = ⟨0, 0⟩ from rfl, hvalues] at hiff
  have hmean : ¬meanOfScenes.MeanIsNodata redBand [-998.0, -1001.0] := by
    rintro ⟨-, -, hmean⟩
    revert hmean
    decide +kernel
  refine ⟨t, a, pixel, ht, ha, hpixel, Bool.eq_false_iff.mpr fun hpixel => ?_⟩
  have hfirst := (hiff.mpr hmean).mp hpixel (-998.0) List.mem_cons_self
  revert hfirst
  decide +kernel

/-- The mean of two values that are data may be nodata. -/
theorem mean_of_scenes_is_nodata :
    (∃ t a pixel, meanOfScenes.loadTile (evenRasters (-998.0) (-1000.0)) lowerKey = .ok t ∧
      t.measurements[0]? = some a ∧ a.data[0]? = some pixel ∧
      isNodata redBand.nodata pixel = true) ∧
    meanOfScenes.values (evenRasters (-998.0) (-1000.0)) ⟨0, 0⟩ twoScenes 0 0 =
      [-998.0, -1000.0] ∧
    ∀ v ∈ ([-998.0, -1000.0] : List Float32), isNodata redBand.nodata v = false := by
  obtain ⟨t, ht, htest⟩ := exists_ok_of_test
    (meanOfScenes.loadTile (evenRasters (-998.0) (-1000.0)) lowerKey)
    (fun t => (t.measurements[0]?.bind (·.data[0]?)).any (isNodata redBand.nodata))
    (by decide +kernel)
  obtain ⟨pixel, hpixel, hdata⟩ := (Option.any_eq_true _ _).mp htest
  obtain ⟨a, ha, hpixel⟩ := Option.bind_eq_some_iff.mp hpixel
  exact ⟨⟨t, a, pixel, ht, ha, hpixel, hdata⟩, by decide +kernel, by decide +kernel⟩

end Example

end LoadPlan

end Mosaic
