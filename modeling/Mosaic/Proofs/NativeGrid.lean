import Mosaic.Proofs.Affine
import Mosaic.Proofs.Centre
import Mosaic.Proofs.Reading

/-!
# Tiles on the pixels of a raster

Where the pixels of a tile are pixels of a raster, a whole number of rows and columns away, the
tile shows the raster as it is: by each of the five methods a pixel has the value of the pixel on
which it lies, and nodata where the raster has none, holds no data or shows ground outside the
footprint (`warp_native`). The edges of the raster, the edges of the tile and the border of the tile
play no part, and neither does the sign of the pixel size. Positions fall on pixel centres and areas on
pixels, where all kernels agree. As in `Proofs/Reading`, a polygon which contains another one is
assumed to contain the points inside it.
-/

namespace Mosaic

open Exact (Reading)
open Warp

/-! ## Rasters behind a source -/

section Source

variable {V : Type}

/-- What a source opens and reads under a locator is a raster and its windows. It may also fail. -/
def RasterSource.Serves (source : RasterSource V) (locator : SourceLocator) (r : MemoryRaster V) :
    Prop :=
  ∀ handle, source.openRaster locator = .ok handle → handle.shape = r.shape ∧
    ∀ w, w.fits r.shape = true → ∀ read, handle.readWindow w = .ok read →
      r.readWindow w = .ok read

theorem MemoryRasters.serves {rasters : MemoryRasters V} {locator : SourceLocator}
    {r : MemoryRaster V} (h : rasters.find? locator = some r) :
    rasters.source.Serves locator r := by
  intro handle hopen
  unfold source at hopen
  simp only [h] at hopen
  cases hopen
  exact ⟨rfl, fun w _ read hread => hread⟩

theorem Dataset.readResult_eq_ok {K α : Type} {d : Dataset K} {result : Except LoadError α} {a : α}
    (h : d.readResult result = .ok a) : result = .ok a := by
  cases result with
  | ok b =>
    cases h
    rfl
  | error e => cases h

end Source

/-! ## Pixels with data -/

section Data

variable {V K : Type} [Sample V K] {r : MemoryRaster V} {m : Measurement V} {row col : Int}

/-- The sample of a pixel, if the raster has the pixel and it holds data. -/
def MemoryRaster.dataAt? (r : MemoryRaster V) (m : Measurement V) (row col : Int) : Option V :=
  if (0 ≤ row ∧ row < r.shape.height) ∧ 0 ≤ col ∧ col < r.shape.width then
    r.data[row.toNat * r.shape.width + col.toNat]?.filter fun v =>
      !(isNodata m.nodata v || r.nodata.any (v == ·))
  else none

theorem MemoryRaster.sample_view (r : MemoryRaster V) (m : Measurement V) (row col : Int) :
    (r.view m).sample row col = (r.dataAt? m row col).getD Sample.nan := by
  unfold dataAt?
  split
  · next hinside =>
    obtain ⟨⟨hrow, hrow'⟩, hcol, hcol'⟩ := hinside
    obtain ⟨a, rfl⟩ := Int.eq_ofNat_of_zero_le hrow
    obtain ⟨b, rfl⟩ := Int.eq_ofNat_of_zero_le hcol
    rw [WindowView.sample_of_inside (Int.ofNat_lt.mp hrow') (Int.ofNat_lt.mp hcol')]
    show ((Array.map _ r.data)[a * r.shape.width + b]?).getD _ = _
    rw [Array.getElem?_map, Int.toNat_natCast, Int.toNat_natCast]
    cases r.data[a * r.shape.width + b]? with
    | none => rfl
    | some v =>
      rw [Option.map_some, Option.getD_some, Option.filter_some]
      cases isNodata m.nodata v || r.nodata.any (v == ·) <;> rfl
  · next houtside => exact WindowView.sample_of_outside houtside

/-- Data are numbers. -/
theorem MemoryRaster.not_isNaN_of_dataAt? {v : V} (h : r.dataAt? m row col = some v) :
    Sample.isNaN v = false := by
  unfold dataAt? at h
  split at h
  · have hvalid := (Option.filter_eq_some_iff.mp h).2
    simp only [isNodata, Bool.not_eq_true', Bool.or_eq_false_iff] at hvalid
    exact hvalid.1.1
  · cases h

variable [Coordinate K]

/-- What a pixel of a raster has to show in a measurement: its sample as the type of the measurement
holds it, or nodata where it holds no data or its centre lies outside the footprint. -/
def Dataset.nativeValue (d : Dataset K) (r : MemoryRaster V) (m : Measurement V) (row col : Int) :
    V :=
  let center := d.transform.pixelToWorld ⟨Coordinate.ofInt col + 0.5, Coordinate.ofInt row + 0.5⟩
  match r.dataAt? m row col with
  | some v => if d.footprint.contains center then m.dtype.castValid v m.nodata else m.nodata
  | none => m.nodata

end Data

/-! ## Shared pixels -/

/-- The pixels of a tile are pixels of a raster that is not rotated: they have the same size and the
same signs, and the first one is the pixel of the raster in row `rows` and column `cols`, which may
lie outside the raster. -/
structure Dataset.SharesPixels (d : Dataset Rat) (grid : Grid Rat) (tile : TileIndex)
    (rows cols : Int) : Prop where
  invertible : Affine.ofGeoTransform d.transform.forward = .ok d.transform
  rx_eq : d.transform.forward.rx = 0
  ry_eq : d.transform.forward.ry = 0
  dx_eq : d.transform.forward.dx = grid.resolution.x
  dy_eq : d.transform.forward.dy = grid.resolution.y
  x_eq : (grid.pixelOrigin tile).x = d.transform.forward.x0 + cols * grid.resolution.x
  y_eq : (grid.pixelOrigin tile).y = d.transform.forward.y0 + rows * grid.resolution.y

namespace Dataset.SharesPixels

variable {d : Dataset Rat} {grid : Grid Rat} {tile : TileIndex} {rows cols : Int}

/-- Steps of pixels from the first pixel of the tile on are steps of pixels in the raster. -/
theorem worldToPixel_eq (h : d.SharesPixels grid tile rows cols) (s t : Rat) :
    d.transform.worldToPixel ⟨(grid.pixelOrigin tile).x + s * grid.resolution.x,
      (grid.pixelOrigin tile).y + t * grid.resolution.y⟩ = ⟨s + cols, t + rows⟩ := by
  rw [← Affine.worldToPixel_pixelToWorld h.invertible ⟨s + cols, t + rows⟩, h.x_eq, h.y_eq]
  unfold Affine.pixelToWorld GeoTransform.apply
  rw [h.rx_eq, h.ry_eq, h.dx_eq, h.dy_eq]
  exact congrArg d.transform.worldToPixel (congrArg₂ Point.mk (by ring) (by ring))

theorem worldToPixel_center (h : d.SharesPixels grid tile rows cols) (row col : Nat) :
    d.transform.worldToPixel (grid.pixelCenter tile row col) =
      ⟨((col + cols : Int) : Rat) + 1 / 2, ((row + rows : Int) : Rat) + 1 / 2⟩ := by
  refine (h.worldToPixel_eq _ _).trans (congrArg₂ Point.mk ?_ ?_) <;>
    push_cast [Exact.ofNat_eq] <;> ring

/-- The pixels of the tile have the centres of the pixels of the raster. -/
theorem pixelToWorld_center (h : d.SharesPixels grid tile rows cols) (row col : Nat) :
    d.transform.pixelToWorld
        ⟨Coordinate.ofInt (col + cols) + 0.5, Coordinate.ofInt (row + rows) + 0.5⟩ =
      grid.pixelCenter tile row col := by
  unfold Affine.pixelToWorld GeoTransform.apply Grid.pixelCenter
  simp only [h.rx_eq, h.ry_eq, h.dx_eq, h.dy_eq, h.x_eq, h.y_eq, Exact.ofInt_eq, Exact.ofNat_eq]
  refine congrArg₂ Point.mk ?_ ?_ <;> push_cast <;> ring

/-- The area of a pixel of the tile is a pixel of the raster. -/
theorem areaOf_eq (h : d.SharesPixels grid tile rows cols) (row col : Nat) :
    areaOf d grid tile row col = .ofPixel (row + rows) (col + cols) := by
  have hcorner : ∀ row col : Nat, d.transform.worldToPixel (grid.pixelCorner tile row col) =
      ⟨(col : Rat) + cols, (row : Rat) + rows⟩ := fun row col => h.worldToPixel_eq col row
  have hsucc : ∀ (n : Nat) (k : Int), ((n + 1 : Nat) : Rat) + k = (n + k : Rat) + 1 := by
    intro n k
    push_cast
    ring
  have hle : ∀ x : Rat, x ≤ x + 1 := fun x => by linarith
  unfold areaOf PixelFootprint.ofPixel
  simp only [hcorner, hsucc, CornerGrid.least, CornerGrid.greatest, Exact.minimum_eq,
    Exact.maximum_eq, min_self, max_self, min_eq_left (hle _), max_eq_right (hle _),
    max_eq_left (hle _)]
  push_cast
  rfl

end Dataset.SharesPixels

/-! ## The value of a pixel -/

namespace PixelFootprint

theorem relativeTo_ofPixel (row col : Int) (w : PixelWindow) :
    (ofPixel row col).relativeTo (originOf w) = ofPixel (row - w.row) (col - w.col) := by
  unfold relativeTo ofPixel originOf
  push_cast
  simp only [sub_add_eq_add_sub]

end PixelFootprint

section Value

variable {d : Dataset Rat} {grid : Grid Rat} {tile : TileIndex} {m : Measurement Reading}
  {r : MemoryRaster Reading} {count row col : Nat} {rows cols : Int} {bounds : Box Rat}
  {read : WindowData Reading} {area : Option (PixelFootprint Rat)}

/-- The window that is read holds at the centre of a pixel what the raster holds there. -/
theorem sampleAt_read_center (hsize : r.data.size = r.shape.count Rat)
    (hread : r.readWindow (cut bounds m.resampling.kernelRadius r.shape) = .ok read)
    {row col : Int}
    (hcenter : bounds.Encloses (Box.ofPoint ⟨(col : Rat) + 1 / 2, (row : Rat) + 1 / 2⟩))
    (harea : m.resampling.isArea = true →
      area = some ((PixelFootprint.ofPixel row col).relativeTo (originOf read.window))) :
    m.resampling.sampleAt (read.view m) ((col : Rat) + 1 / 2 - (originOf read.window).x)
        ((row : Rat) + 1 / 2 - (originOf read.window).y) area = (r.view m).sample row col := by
  have hradius := m.resampling.one_le_kernelRadius
  -- the centre of a pixel lies in the pixel, so the pixel is among those that the kernel reaches
  have hrow : row ∈ reach bounds.minY bounds.maxY m.resampling.kernelRadius := by
    rw [← Resampling.floor_center row]
    exact Warp.floor_mem_reach hcenter.below hcenter.above hradius
  have hcol : col ∈ reach bounds.minX bounds.maxX m.resampling.kernelRadius := by
    rw [← Resampling.floor_center col]
    exact Warp.floor_mem_reach hcenter.left hcenter.right hradius
  have hmove : ∀ (k : Int) (n : Nat), (k : Rat) + 1 / 2 - n = ((k - n : Int) : Rat) + 1 / 2 := by
    intro k n
    push_cast
    ring
  have hcentered : m.resampling.sampleAt (read.view m)
      (((col - read.window.col : Int) : Rat) + 1 / 2)
      (((row - read.window.row : Int) : Rat) + 1 / 2) area =
        (read.view m).sample (row - read.window.row) (col - read.window.col) := by
    refine Resampling.sampleAt_center (read.view m) _ _ m.resampling fun h => ?_
    rw [harea h, PixelFootprint.relativeTo_ofPixel]
  have hshown := (r.shows_read hsize m hread).sample_eq row hrow col hcol
  rw [← MemoryRaster.window_of_readWindow hread] at hshown
  show m.resampling.sampleAt (read.view m) ((col : Rat) + 1 / 2 - read.window.col)
    ((row : Rat) + 1 / 2 - read.window.row) area = _
  rw [hmove, hmove, hcentered, hshown]

/-- A pixel of the tile has the value of the pixel of the raster on which it lies. -/
theorem pixelValue_native (hgrid : grid.flaw? = none)
    (hshares : d.SharesPixels grid tile rows cols) (hsize : r.data.size = r.shape.count Rat)
    (hbounds : imageBox? d grid tile count = some bounds)
    (hread : r.readWindow (cut bounds m.resampling.kernelRadius r.shape) = .ok read)
    (hrow : row < grid.pixelShape.height) (hcol : col < grid.pixelShape.width)
    (harea : m.resampling.isArea = true →
      area = some ((areaOf d grid tile row col).relativeTo (originOf read.window))) :
    pixelValue m (read.view m) (originOf read.window) area
        (if d.footprint.contains (grid.pixelCenter tile row col) then
          some (d.transform.worldToPixel (grid.pixelCenter tile row col)) else none) =
      d.nativeValue r m (row + rows) (col + cols) := by
  have hisNaN : ∀ x : Rat, Coordinate.isNaN x = false := Exact.isNaN_eq
  obtain ⟨⟨hleft, hright⟩, hbelow, habove⟩ :=
    Grid.pixelCenter_inside_of_rounded hgrid tile hrow hcol
  have hcenter := Box.encloses_image (Grid.paddedExtentOf_height_pos hgrid tile) hbounds
    (p := grid.pixelCenter tile row col) ⟨hleft.le, hbelow.le, hright.le, habove.le⟩
  rw [hshares.worldToPixel_center] at hcenter
  rw [hshares.areaOf_eq] at harea
  have hsample := sampleAt_read_center hsize hread hcenter harea
  rw [MemoryRaster.sample_view] at hsample
  unfold Dataset.nativeValue
  simp only [hshares.pixelToWorld_center, hshares.worldToPixel_center]
  cases d.footprint.contains (grid.pixelCenter tile row col) with
  | false => cases r.dataAt? m (row + rows) (col + cols) <;> rfl
  | true =>
    simp only [if_true, pixelValue, hisNaN, Bool.or_self, Bool.false_eq_true, if_false, hsample]
    cases hdata : r.dataAt? m (row + rows) (col + cols) with
    | none => rfl
    | some v =>
      simp only [Option.getD_some, MemoryRaster.not_isNaN_of_dataAt? hdata, Bool.false_eq_true,
        if_false]

end Value

/-! ## The whole tile -/

section Tile

variable {V : Type} [Sample V Rat] [Containment Rat] {d : Dataset Rat} {grid : Grid Rat}
  {tile : TileIndex} {m : Measurement V} {count : Nat} {source : RasterSource V}
  {locator : SourceLocator}
  {r : MemoryRaster V} {out : WarpedTile V}

/-- The values that are made from a window, row by row. -/
theorem getElem?_pixelValues (read : WindowData V) {row col : Nat}
    (hrow : row < grid.pixelShape.height) (hcol : col < grid.pixelShape.width) :
    (pixelValues m grid.pixelShape.width read.window read
        (if m.resampling.isArea then some (cornersOf d grid tile) else none)
        (positionsOf d grid tile count))[row * grid.pixelShape.width + col]? =
      some (pixelValue m (read.view m) (originOf read.window)
        (if m.resampling.isArea then
          some ((areaOf d grid tile row col).relativeTo (originOf read.window)) else none)
        (position? d (liesInside d (densify (grid.paddedExtentOf tile).corners count))
          (grid.pixelCenter tile row col))) := by
  have harea : ((if m.resampling.isArea then some (cornersOf d grid tile) else none).map
      fun c => c.footprint (originOf read.window) row col) =
      if m.resampling.isArea then
        some ((areaOf d grid tile row col).relativeTo (originOf read.window)) else none := by
    rw [apply_ite (Option.map _), Option.map_some, footprint_cornersOf hrow hcol]
    rfl
  show (Array.mapIdx _ _)[_]? = _
  rw [Array.getElem?_mapIdx, getElem?_positionsOf_eq hrow hcol,
    (Grid.row_major hcol).1, (Grid.row_major hcol).2, ← harea]
  rfl

variable [Reprojection Rat]

/-- Where coordinates stay as they are, a tile shows what the window gives that is cut out of the
raster. Where no pixel lies in the footprint or the window is empty, that is nodata everywhere, and
nothing has to be read. -/
theorem Dataset.warp_ok (hnan : Sample.isNaN (Sample.nan : V) = true)
    (hidentity : (Transformer.mk grid.crs d.crs).isIdentity = true)
    (hlocator : d.locator? m = some locator) (hserves : source.Serves locator r) {bounds : Box Rat}
    (hbounds : imageBox? d grid tile count = some bounds)
    (h : d.warp source count grid m tile = .ok out) :
    ∃ read, r.readWindow (cut bounds m.resampling.kernelRadius r.shape) = .ok read ∧
      out.shape = grid.pixelShape ∧ out.data.size = grid.pixelShape.count Rat ∧
      ∀ row < grid.pixelShape.height, ∀ col < grid.pixelShape.width,
        out.data[row * grid.pixelShape.width + col]? =
          some (pixelValue m (read.view m) (originOf read.window)
            (if m.resampling.isArea then
              some ((areaOf d grid tile row col).relativeTo (originOf read.window)) else none)
            (position? d (liesInside d (densify (grid.paddedExtentOf tile).corners count))
              (grid.pixelCenter tile row col))) := by
  have hfits := fits_cut bounds m.resampling.kernelRadius r.shape
  have hcut := MemoryRaster.readWindow_of_fits hfits
  rw [Dataset.warp_in_place hidentity source hlocator hbounds] at h
  split at h
  · next hall =>
    cases h
    refine ⟨_, hcut, rfl, Array.size_replicate, fun row hrow col hcol => ?_⟩
    have hnone := hasNoColumn_iff.mp (Array.all_eq_true_iff_forall_mem.mp hall _
      (Array.mem_of_getElem? (getElem?_positionsOf_eq hrow hcol)))
    rw [hnone]
    exact WarpedTile.getElem?_blank m.nodata hrow hcol
  · obtain ⟨handle, hopen, h⟩ := bind_eq_ok.mp h
    obtain ⟨hshape, hreads⟩ := hserves handle (Dataset.readResult_eq_ok hopen)
    rw [hshape, window?_eq] at h
    cases hempty : (cut bounds m.resampling.kernelRadius r.shape).isEmpty with
    | true =>
      rw [hempty] at h
      cases h
      refine ⟨_, hcut, rfl, Array.size_replicate, fun row hrow col hcol => ?_⟩
      rw [pixelValue_of_isEmpty hnan hempty]
      exact WarpedTile.getElem?_blank m.nodata hrow hcol
    | false =>
      rw [hempty] at h
      obtain ⟨read, hread, h⟩ := bind_eq_ok.mp h
      cases h
      have hread := hreads _ hfits read (Dataset.readResult_eq_ok hread)
      refine ⟨read, hread, rfl, ?_, fun row hrow col hcol => ?_⟩
      · show (Array.mapIdx _ _).size = _
        rw [Array.size_mapIdx, positionsOf, Array.size_map, grid.size_centers]
      · rw [← MemoryRaster.window_of_readWindow hread]
        exact getElem?_pixelValues read hrow hcol

end Tile

/-- Warping a raster onto a tile of its own pixels gives every pixel the value of the pixel of the
raster on which it lies, whatever the method. -/
theorem Dataset.warp_native [Reprojection Rat] [Containment Rat] {d : Dataset Rat}
    {grid : Grid Rat} {tile : TileIndex} {m : Measurement Reading} {count : Nat}
    {source : RasterSource Reading}
    {locator : SourceLocator} {r : MemoryRaster Reading} {rows cols : Int}
    {out : WarpedTile Reading} (hidentity : (Transformer.mk grid.crs d.crs).isIdentity = true)
    (hgrid : grid.flaw? = none) (hshares : d.SharesPixels grid tile rows cols)
    (hlocator : d.locator? m = some locator) (hserves : source.Serves locator r)
    (hsize : r.data.size = r.shape.count Rat) (hsound : Containment.Sound Rat)
    (h : d.warp source count grid m tile = .ok out) :
    out.shape = grid.pixelShape ∧ out.data.size = grid.pixelShape.count Rat ∧
      ∀ row < grid.pixelShape.height, ∀ col < grid.pixelShape.width,
        out.data[row * grid.pixelShape.width + col]? =
          some (d.nativeValue r m (row + rows) (col + cols)) := by
  obtain ⟨bounds, hbounds⟩ := exists_imageBox (d := d) hgrid tile count
  obtain ⟨read, hread, hshape, hcount, hpixel⟩ :=
    Dataset.warp_ok rfl hidentity hlocator hserves hbounds h
  refine ⟨hshape, hcount, fun row hrow col hcol => ?_⟩
  obtain ⟨hx, hy⟩ := Grid.pixelCenter_inside_of_rounded hgrid tile hrow hcol
  rw [hpixel row hrow col hcol, position?_of_inside hsound hx hy]
  exact congrArg some
    (pixelValue_native hgrid hshares hsize hbounds hread hrow hcol fun harea => if_pos harea)

/-! ## A scene on the grid -/

section Example

attribute [local instance] Exact.unmoved

/-- A band between the centres of pixels. -/
def reliefBand : Measurement Reading where
  name := "relief"
  dtype := .int16
  nodata := ⟨some (-1)⟩
  resampling := .cubic

/-- Pixels of one unit, rows southward. -/
def northUp : GeoTransform Rat := ⟨0, 1, 0, 2, 0, -1⟩

/-- A scene of three by three pixels on the grid, without the last column. -/
def alignedScene : Dataset Rat where
  id := ⟨1⟩
  product := "reliefs"
  time := TimeSpan.instant ⟨0, 0⟩
  crs := .wgs84
  footprint := ⟨[⟨0, -1⟩, ⟨2, -1⟩, ⟨2, 2⟩, ⟨0, 2⟩, ⟨0, -1⟩]⟩
  transform := ⟨northUp, northUp.cofactorInverse⟩
  shape := ⟨3, 3⟩
  sources := ⟨[("relief", ⟨"relief", none⟩)]⟩
  centroidLongitude := 1

/-- Numbers in the order of the pixels, with a hole in the middle. -/
def reliefRaster : MemoryRaster Reading :=
  .ofFn ⟨3, 3⟩ none fun row col => ⟨if row = 1 ∧ col = 1 then none else some (3 * row + col)⟩

/-- A test that finds no polygon inside another one. -/
@[reducible] def noContainment : Containment Rat where
  covers _ _ := false

attribute [local instance] noContainment

theorem noContainment_sound : Containment.Sound Rat := nofun

/-- The tile begins one row and one column before the raster. Its pixels there hold nodata, and so
do the hole and the column outside the footprint; the others hold the numbers of the raster. -/
theorem warp_native_alignedScene :
    ∃ out, alignedScene.warp (MemoryRasters.source ⟨[(⟨"relief", none⟩, reliefRaster)]⟩) 0
        smallTiles reliefBand ⟨0, 0⟩ = .ok out ∧
      out.data[0]? = some ⟨some (-1)⟩ ∧ out.data[5]? = some ⟨some 0⟩ ∧
      out.data[6]? = some ⟨some 1⟩ ∧ out.data[7]? = some ⟨some (-1)⟩ ∧
      out.data[9]? = some ⟨some 3⟩ ∧ out.data[10]? = some ⟨some (-1)⟩ := by
  have hgrid : smallTiles.flaw? = none := by decide +kernel
  have hlocator : alignedScene.locator? reliefBand = some ⟨"relief", none⟩ := by decide +kernel
  have hraster : (⟨[(⟨"relief", none⟩, reliefRaster)]⟩ : MemoryRasters Reading).find?
      ⟨"relief", none⟩ = some reliefRaster := by rfl
  have hshares : alignedScene.SharesPixels smallTiles ⟨0, 0⟩ (-1) (-1) :=
    ⟨if_pos (by decide +kernel), rfl, rfl, rfl, rfl, by decide +kernel, by decide +kernel⟩
  have hshape : smallTiles.pixelShape = ⟨4, 4⟩ := by decide +kernel
  obtain ⟨out, hout⟩ : ∃ out, alignedScene.warp
      (MemoryRasters.source ⟨[(⟨"relief", none⟩, reliefRaster)]⟩) 0 smallTiles reliefBand ⟨0, 0⟩ =
        .ok out := by
    obtain ⟨bounds, hbounds⟩ := exists_imageBox hgrid ⟨0, 0⟩ 0
    obtain ⟨read, -, hout⟩ := Dataset.warp_eq rfl hlocator hraster hbounds
    exact ⟨_, hout⟩
  obtain ⟨-, -, hpixel⟩ := Dataset.warp_native rfl hgrid hshares hlocator
    (MemoryRasters.serves hraster) (by decide +kernel) noContainment_sound hout
  rw [hshape] at hpixel
  have hat : ∀ (row col : Nat) {i : Nat} {v : Reading}, row < 4 → col < 4 → row * 4 + col = i →
      alignedScene.nativeValue reliefRaster reliefBand (row + -1) (col + -1) = v →
      out.data[i]? = some v := by
    rintro row col _ _ hrow hcol rfl rfl
    exact hpixel row hrow col hcol
  exact ⟨out, hout, hat 0 0 (by decide) (by decide) rfl (by decide +kernel),
    hat 1 1 (by decide) (by decide) rfl (by decide +kernel),
    hat 1 2 (by decide) (by decide) rfl (by decide +kernel),
    hat 1 3 (by decide) (by decide) rfl (by decide +kernel),
    hat 2 1 (by decide) (by decide) rfl (by decide +kernel),
    hat 2 2 (by decide) (by decide) rfl (by decide +kernel)⟩

end Example

end Mosaic
