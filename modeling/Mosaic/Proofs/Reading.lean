import Mathlib.Algebra.Order.Group.MinMax
import Mosaic.Proofs.Kernel
import Mosaic.Proofs.Outcome
import Mosaic.Proofs.Outline
import Mosaic.Proofs.Pixels

/-!
# Reading a window instead of the whole raster

Where a dataset lies in the reference system of the grid, warping its raster onto a tile gives every
pixel the value that the whole raster has at the centre of the pixel (`warp_eq_whole`). The window
that is read always fits, and it is left out only where the raster has nothing to show. Positions
and areas of pixels lie in the box that the window is cut out for, and kernels reach no further than
the window does. Whether the footprint contains the outline of a tile is for a geometry library to
say, of which it is only assumed that a polygon which contains another one contains the points
inside it (`Containment.Sound`).
-/

namespace Mosaic

/-! ## The value of a pixel -/

section Value

variable {V K : Type} [Coordinate K]

namespace Warp

/-- The area of a target pixel in pixels of the raster. -/
def areaOf (d : Dataset K) (grid : Grid K) (tile : TileIndex) (row col : Nat) : PixelFootprint K :=
  let p := d.transform.worldToPixel (grid.pixelCorner tile row col)
  let q := d.transform.worldToPixel (grid.pixelCorner tile row (col + 1))
  let r := d.transform.worldToPixel (grid.pixelCorner tile (row + 1) col)
  let s := d.transform.worldToPixel (grid.pixelCorner tile (row + 1) (col + 1))
  { minU := CornerGrid.least p.x q.x r.x s.x
    minV := CornerGrid.least p.y q.y r.y s.y
    maxU := CornerGrid.greatest p.x q.x r.x s.x
    maxV := CornerGrid.greatest p.y q.y r.y s.y }

/-- The value of a target pixel when the whole raster is sampled at its centre; nodata outside the
footprint and where the sample is not a number. -/
def wholeValue [Sample V K] (d : Dataset K) (r : MemoryRaster V) (grid : Grid K)
    (m : Measurement V) (tile : TileIndex) (row col : Nat) : V :=
  let center := grid.pixelCenter tile row col
  if d.footprint.contains center then
    let p := d.transform.worldToPixel center
    -- methods that take no area ignore it
    let value := m.resampling.sampleAt (r.view m) p.x p.y (some (areaOf d grid tile row col))
    if Sample.isNaN value then m.nodata else m.dtype.castValid value m.nodata
  else m.nodata

/-- The corners of the target pixels of a tile as positions in the raster. -/
def cornersOf (d : Dataset K) (grid : Grid K) (tile : TileIndex) : CornerGrid K :=
  ⟨grid.pixelShape.width + 1, (grid.corners tile).map d.transform.worldToPixel⟩

/-- The box in pixels that the window of a tile is cut out for. -/
def imageBox? (d : Dataset K) (grid : Grid K) (tile : TileIndex) (count : Nat) : Option (Box K) :=
  Box.ofPoints? ((densify (grid.paddedExtentOf tile).corners count).map d.transform.worldToPixel)

/-- The positions in the raster of the centres of all pixels of a tile. -/
def positionsOf [Containment K] (d : Dataset K) (grid : Grid K) (tile : TileIndex) (count : Nat) :
    Array (Option (Point K)) :=
  (grid.centers tile).map
    (position? d (liesInside d (densify (grid.paddedExtentOf tile).corners count)))

end Warp

end Value

/-! ## Positions and areas -/

namespace Warp

section Position

variable {d : Dataset Rat} {grid : Grid Rat} {tile : TileIndex} {count row col : Nat}
  {bounds : Box Rat}

theorem corner_cornersOf (hrow : row ≤ grid.pixelShape.height)
    (hcol : col ≤ grid.pixelShape.width) :
    (cornersOf d grid tile).corner row col =
      d.transform.worldToPixel (grid.pixelCorner tile row col) := by
  unfold cornersOf CornerGrid.corner
  simp only [Array.getD_eq_getD_getElem?, Array.getElem?_map]
  rw [grid.getElem?_corners tile hrow hcol]
  rfl

theorem exists_imageBox (hgrid : grid.flaw? = none) (tile : TileIndex) (count : Nat) :
    ∃ bounds, imageBox? d grid tile count = some bounds := by
  have hne :
      (densify (grid.paddedExtentOf tile).corners count).map d.transform.worldToPixel ≠ [] := by
    rw [Box.densify_corners (Grid.paddedExtentOf_height_pos hgrid tile)]
    exact List.ne_nil_of_mem (List.mem_map_of_mem (Box.corner_mem_sides List.mem_cons_self))
  obtain ⟨bounds, hbounds, -⟩ := Box.ofPoints?_encloses hne
  exact ⟨bounds, hbounds⟩

theorem encloses_center (hgrid : grid.flaw? = none) (hwhole : grid.HoldsWholePixels)
    (hbounds : imageBox? d grid tile count = some bounds) (hrow : row < grid.pixelShape.height)
    (hcol : col < grid.pixelShape.width) :
    bounds.Encloses (Box.ofPoint (d.transform.worldToPixel (grid.pixelCenter tile row col))) := by
  obtain ⟨⟨hleft, hright⟩, hbelow, habove⟩ := Grid.pixelCenter_inside hgrid hwhole tile hrow hcol
  exact Box.encloses_image (Grid.paddedExtentOf_height_pos hgrid tile) hbounds
    ⟨hleft.le, hbelow.le, hright.le, habove.le⟩

theorem encloses_areaOf (hgrid : grid.flaw? = none) (hwhole : grid.HoldsWholePixels)
    (hbounds : imageBox? d grid tile count = some bounds) (hrow : row < grid.pixelShape.height)
    (hcol : col < grid.pixelShape.width) : bounds.Encloses (areaOf d grid tile row col).box := by
  have hcorner : ∀ row' ≤ row + 1, ∀ col' ≤ col + 1, bounds.Encloses
      (Box.ofPoint (d.transform.worldToPixel (grid.pixelCorner tile row' col'))) := by
    intro row' hrow' col' hcol'
    exact Box.encloses_image (Grid.paddedExtentOf_height_pos hgrid tile) hbounds
      (Grid.encloses_pixelCorner hgrid hwhole tile (by omega) (by omega))
  have hp := hcorner row (by omega) col (by omega)
  have hq := hcorner row (by omega) (col + 1) le_rfl
  have hr := hcorner (row + 1) le_rfl col (by omega)
  have hs := hcorner (row + 1) le_rfl (col + 1) le_rfl
  simp only [areaOf, PixelFootprint.box, CornerGrid.least, CornerGrid.greatest, Exact.minimum_eq,
    Exact.maximum_eq]
  constructor
  · exact le_min (le_min (le_min hp.left hq.left) hr.left) hs.left
  · exact le_min (le_min (le_min hp.below hq.below) hr.below) hs.below
  · exact max_le (max_le (max_le hp.right hq.right) hr.right) hs.right
  · exact max_le (max_le (max_le hp.above hq.above) hr.above) hs.above

/-- The area of a pixel moves with the origin. -/
theorem footprint_cornersOf (hrow : row < grid.pixelShape.height)
    (hcol : col < grid.pixelShape.width) (origin : Point Rat) :
    (cornersOf d grid tile).footprint origin row col =
      (areaOf d grid tile row col).relativeTo origin := by
  unfold CornerGrid.footprint
  simp only [corner_cornersOf hrow.le hcol.le,
    corner_cornersOf hrow.le (Nat.succ_le_of_lt hcol),
    corner_cornersOf (Nat.succ_le_of_lt hrow) hcol.le,
    corner_cornersOf (Nat.succ_le_of_lt hrow) (Nat.succ_le_of_lt hcol),
    areaOf, PixelFootprint.relativeTo, CornerGrid.least, CornerGrid.greatest, Exact.minimum_eq,
    Exact.maximum_eq, min_sub_sub_right, max_sub_sub_right]

variable [Containment Rat]

theorem getElem?_positionsOf_eq (hrow : row < grid.pixelShape.height)
    (hcol : col < grid.pixelShape.width) :
    (positionsOf d grid tile count)[row * grid.pixelShape.width + col]? =
      some (position? d (liesInside d (densify (grid.paddedExtentOf tile).corners count))
        (grid.pixelCenter tile row col)) := by
  rw [positionsOf, Array.getElem?_map, grid.getElem?_centers tile hrow hcol, Option.map_some]

/-- Where the footprint contains the outline of a tile it contains every point strictly inside. -/
theorem contains_of_liesInside (hsound : Containment.Sound Rat) {p : Point Rat}
    (hx : (grid.paddedExtentOf tile).minX < p.x ∧ p.x < (grid.paddedExtentOf tile).maxX)
    (hy : (grid.paddedExtentOf tile).minY < p.y ∧ p.y < (grid.paddedExtentOf tile).maxY)
    (h : liesInside d (densify (grid.paddedExtentOf tile).corners count) = true) :
    d.footprint.contains p = true := by
  unfold liesInside at h
  split at h
  · next outline houtline =>
    exact hsound _ _ _ h (Box.contains_outline hx hy houtline)
  · cases h

/-- The points of a tile in the footprint are the ones that have a position, by the short way as
well. -/
theorem position?_of_inside (hsound : Containment.Sound Rat) {p : Point Rat}
    (hx : (grid.paddedExtentOf tile).minX < p.x ∧ p.x < (grid.paddedExtentOf tile).maxX)
    (hy : (grid.paddedExtentOf tile).minY < p.y ∧ p.y < (grid.paddedExtentOf tile).maxY) :
    position? d (liesInside d (densify (grid.paddedExtentOf tile).corners count)) p =
      if d.footprint.contains p then some (d.transform.worldToPixel p) else none := by
  have hinside : liesInside d (densify (grid.paddedExtentOf tile).corners count) = true →
      d.footprint.contains p = true := contains_of_liesInside hsound hx hy
  unfold position?
  cases hcontains : d.footprint.contains p with
  | true =>
    rw [Bool.or_true]
    rfl
  | false =>
    have hoff : liesInside d (densify (grid.paddedExtentOf tile).corners count) = false := by
      rw [Bool.eq_false_iff]
      intro hin
      rw [hinside hin] at hcontains
      cases hcontains
    rw [hoff, Bool.or_self, Bool.and_false]

/-- The pixels in the footprint are the ones that have a position. -/
theorem getElem?_positionsOf (hgrid : grid.flaw? = none) (hwhole : grid.HoldsWholePixels)
    (hsound : Containment.Sound Rat) (hrow : row < grid.pixelShape.height)
    (hcol : col < grid.pixelShape.width) :
    (positionsOf d grid tile count)[row * grid.pixelShape.width + col]? =
      some (if d.footprint.contains (grid.pixelCenter tile row col) then
        some (d.transform.worldToPixel (grid.pixelCenter tile row col)) else none) := by
  obtain ⟨hx, hy⟩ := Grid.pixelCenter_inside hgrid hwhole tile hrow hcol
  rw [getElem?_positionsOf_eq hrow hcol, position?_of_inside hsound hx hy]

omit [Containment Rat] in
theorem hasNoColumn_iff {position : Option (Point Rat)} :
    hasNoColumn position = true ↔ position = none := by
  cases position with
  | none => exact iff_of_true rfl rfl
  | some p => exact iff_of_false Bool.false_ne_true (Option.some_ne_none p)

end Position

/-! ## Values -/

section Read

variable {V : Type} [Sample V Rat] {d : Dataset Rat} {grid : Grid Rat} {tile : TileIndex}
  {m : Measurement V} {r : MemoryRaster V} {count row col : Nat} {bounds : Box Rat}
  {read : WindowData V}

/-- The first corner of a window as a position in the raster. -/
def originOf (w : PixelWindow) : Point Rat := ⟨w.col, w.row⟩

/-- A sample of the window that is read is one of the whole raster. -/
theorem sampleAt_read (hsize : r.data.size = r.shape.count Rat)
    (hread : r.readWindow (cut bounds m.resampling.kernelRadius r.shape) = .ok read)
    {p : Point Rat} (hp : bounds.Encloses (Box.ofPoint p)) {whole : PixelFootprint Rat}
    (hwhole : bounds.Encloses whole.box) {area : Option (PixelFootprint Rat)}
    (harea : m.resampling.isArea = true →
      area = some (whole.relativeTo (originOf read.window))) :
    m.resampling.sampleAt (read.view m) (p.x - (originOf read.window).x)
        (p.y - (originOf read.window).y) area =
      m.resampling.sampleAt (r.view m) p.x p.y (some whole) := by
  have horigin := congrArg originOf (MemoryRaster.window_of_readWindow hread)
  have hwindow := Resampling.sampleAt_window (r.shows_read hsize m hread) ⟨hp.left, hp.right⟩
    ⟨hp.below, hp.above⟩ hwhole
  rw [horigin] at harea ⊢
  cases hmethod : m.resampling.isArea with
  | true =>
    rw [harea hmethod]
    exact hwindow
  | false =>
    rw [Resampling.sampleAt_of_not_isArea hmethod _ _ _ area]
    exact hwindow

/-- A pixel has the same value in the window that is read as in the whole raster. -/
theorem pixelValue_read (hgrid : grid.flaw? = none) (hwhole : grid.HoldsWholePixels)
    (hsize : r.data.size = r.shape.count Rat) (hbounds : imageBox? d grid tile count = some bounds)
    (hread : r.readWindow (cut bounds m.resampling.kernelRadius r.shape) = .ok read)
    (hrow : row < grid.pixelShape.height) (hcol : col < grid.pixelShape.width)
    {area : Option (PixelFootprint Rat)} (harea : m.resampling.isArea = true →
      area = some ((areaOf d grid tile row col).relativeTo (originOf read.window))) :
    pixelValue m (read.view m) (originOf read.window) area
        (if d.footprint.contains (grid.pixelCenter tile row col) then
          some (d.transform.worldToPixel (grid.pixelCenter tile row col)) else none) =
      wholeValue d r grid m tile row col := by
  have hisNaN : ∀ x : Rat, Coordinate.isNaN x = false := Exact.isNaN_eq
  have hsample := sampleAt_read hsize hread (encloses_center hgrid hwhole hbounds hrow hcol)
    (encloses_areaOf hgrid hwhole hbounds hrow hcol) harea
  unfold wholeValue
  cases hcontains : d.footprint.contains (grid.pixelCenter tile row col) with
  | true =>
    simp only [pixelValue, hisNaN, Bool.or_self, Bool.false_eq_true, if_false, if_true, hsample,
      hcontains]
  | false => simp only [pixelValue, Bool.false_eq_true, if_false, hcontains]

/-- Where the window is empty no pixel has a value. -/
theorem pixelValue_of_isEmpty (hnan : Sample.isNaN (Sample.nan : V) = true)
    (hempty : read.window.isEmpty = true) (origin : Point Rat)
    (area : Option (PixelFootprint Rat)) (position : Option (Point Rat)) :
    pixelValue m (read.view m) origin area position = m.nodata := by
  have hview : ∀ row col, (read.view m).sample row col = Sample.nan := by
    intro row col
    refine WindowView.sample_of_outside ?_
    simp only [PixelWindow.isEmpty, Bool.or_eq_true, beq_iff_eq] at hempty
    simp only [WindowData.view]
    omega
  unfold pixelValue
  split
  · rfl
  · split
    · rfl
    · next p _ =>
      have hvalue := Resampling.isNaN_sampleAt_of_empty hnan hview m.resampling
        (p.x - origin.x) (p.y - origin.y) area
      simp only [hvalue, if_true]

end Read

end Warp

/-! ## The whole tile -/

/-- A tile has the values of the whole raster, and was made from a window that fits or from none. -/
structure WarpedTile.IsWhole {V : Type} [Sample V Rat] (t : WarpedTile V) (d : Dataset Rat)
    (r : MemoryRaster V) (grid : Grid Rat) (m : Measurement V) (tile : TileIndex) : Prop where
  shape_eq : t.shape = grid.pixelShape
  nodata_eq : t.nodata = m.nodata
  window_fits : ∀ w, t.window = some w → w.fits r.shape = true
  size_eq : t.data.size = grid.pixelShape.count Rat
  pixel_eq : ∀ row < grid.pixelShape.height, ∀ col < grid.pixelShape.width,
    t.data[row * grid.pixelShape.width + col]? =
      some (Warp.wholeValue d r grid m tile row col)

section Tile

open Warp

variable {V : Type} [Sample V Rat] [Reprojection Rat] [Containment Rat] {d : Dataset Rat}
  {grid : Grid Rat} {tile : TileIndex} {m : Measurement V} {count : Nat} {rasters : MemoryRasters V}
  {locator : SourceLocator} {r : MemoryRaster V}

omit [Reprojection Rat] [Containment Rat] in
theorem Transformer.isIdentity_of_eq {source target : Crs} (h : target = source) :
    (Transformer.mk source target).isIdentity = true := by
  subst h
  unfold isIdentity
  rw [beq_self_eq_true, Bool.true_or]

/-- Warping where coordinates stay as they are, without the changes of coordinates. -/
theorem Dataset.warp_in_place (hidentity : (Transformer.mk grid.crs d.crs).isIdentity = true)
    (source : RasterSource V) (hlocator : d.locator? m = some locator) {bounds : Box Rat}
    (hbounds : imageBox? d grid tile count = some bounds) :
    let blank := WarpedTile.blank (K := Rat) grid.pixelShape m.nodata
    d.warp source count grid m tile =
      if (positionsOf d grid tile count).all hasNoColumn then .ok blank
      else do
        let handle ← d.readResult (source.openRaster locator)
        match window? bounds m.resampling.kernelRadius handle.shape with
        | none => return blank
        | some window =>
          let read ← d.readResult (handle.readWindow window)
          return ⟨grid.pixelShape, m.nodata, pixelValues m grid.pixelShape.width window read
            (if m.resampling.isArea then some (cornersOf d grid tile) else none)
            (positionsOf d grid tile count), some window⟩ := by
  intro blank
  have hcorners : cornerGrid grid tile d = .ok (cornersOf d grid tile) := by
    unfold cornerGrid Transformer.applyArray
    rw [hidentity, if_pos rfl, ok_bind]
    rfl
  have hpositions : (grid.centers tile).map
      (position? d (liesInside d (densify (grid.paddedExtentOf tile).corners count))) =
        positionsOf d grid tile count := rfl
  unfold imageBox? at hbounds
  unfold Dataset.warp
  simp only [hlocator, Transformer.applyAll, Transformer.applyArray, hidentity, if_true,
    Stop.liftAbort_ok, ok_bind, hbounds, hpositions]
  -- nothing is read where no centre has a column
  by_cases hall : (positionsOf d grid tile count).all hasNoColumn = true
  · rw [if_pos hall, if_pos hall]
    rfl
  rw [if_neg hall, if_neg hall]
  refine bind_congr fun handle => ?_
  cases window? bounds m.resampling.kernelRadius handle.shape with
  | none => rfl
  | some window =>
    refine bind_congr (x := d.readResult (handle.readWindow window)) fun read => ?_
    cases m.resampling.isArea with
    | true =>
      simp only [if_true, hcorners]
      rfl
    | false => rfl

/-- Warping the raster of a map in the reference system of the grid. -/
theorem Dataset.warp_eq (hcrs : d.crs = grid.crs) (hlocator : d.locator? m = some locator)
    (hraster : rasters.find? locator = some r) {bounds : Box Rat}
    (hbounds : imageBox? d grid tile count = some bounds) :
    let window := cut bounds m.resampling.kernelRadius r.shape
    let blank := WarpedTile.blank (K := Rat) grid.pixelShape m.nodata
    ∃ read, r.readWindow window = .ok read ∧ d.warp rasters.source count grid m tile = .ok
      (if (positionsOf d grid tile count).all hasNoColumn then blank
      else if window.isEmpty then blank
      else ⟨grid.pixelShape, m.nodata, pixelValues m grid.pixelShape.width window read
        (if m.resampling.isArea then some (cornersOf d grid tile) else none)
        (positionsOf d grid tile count), some window⟩) := by
  intro window blank
  obtain ⟨read, hread⟩ : ∃ read, r.readWindow window = .ok read :=
    ⟨_, MemoryRaster.readWindow_of_fits (fits_cut bounds _ r.shape)⟩
  refine ⟨read, hread, ?_⟩
  have hopen : d.readResult (rasters.source.openRaster locator) = .ok r.handle := by
    simp only [MemoryRasters.source, hraster]
    rfl
  have hreadResult : d.readResult (r.handle.readWindow window) = .ok read := by
    show Stop.liftError ((r.readWindow window).mapError _) = _
    rw [hread]
    rfl
  have hwindow : window? bounds m.resampling.kernelRadius r.handle.shape =
      if window.isEmpty then none else some window := window?_eq _ _ _
  rw [Dataset.warp_in_place (Transformer.isIdentity_of_eq hcrs) rasters.source hlocator hbounds]
  split
  · rfl
  · rw [hopen, ok_bind, hwindow]
    cases hempty : window.isEmpty with
    | true => rfl
    | false =>
      simp only [Bool.false_eq_true, if_false, hreadResult, ok_bind]
      rfl

omit [Reprojection Rat] [Containment Rat] in
theorem WarpedTile.getElem?_blank {shape : PixelShape} (nodata : V) {row col : Nat}
    (hrow : row < shape.height) (hcol : col < shape.width) :
    (blank (K := Rat) shape nodata).data[row * shape.width + col]? = some nodata := by
  have hlt : row * shape.width + col < shape.count Rat := Grid.row_major_lt hrow hcol
  simp only [blank, Array.getElem?_replicate, if_pos hlt]

omit [Reprojection Rat] [Containment Rat] in
theorem WarpedTile.isWhole_blank (h : ∀ row < grid.pixelShape.height,
      ∀ col < grid.pixelShape.width, wholeValue d r grid m tile row col = m.nodata) :
    (blank (K := Rat) grid.pixelShape m.nodata).IsWhole d r grid m tile where
  shape_eq := rfl
  nodata_eq := rfl
  window_fits := nofun
  size_eq := Array.size_replicate
  pixel_eq row hrow col hcol := by
    rw [h row hrow col hcol]
    exact getElem?_blank m.nodata hrow hcol

/-- Warping onto a tile in the reference system of the dataset always has a result, reads a window
that fits if it reads one, and gives every pixel the value that the whole raster has there. -/
theorem Dataset.warp_eq_whole (hnan : Sample.isNaN (Sample.nan : V) = true)
    (hcrs : d.crs = grid.crs) (hgrid : grid.flaw? = none) (hwhole : grid.HoldsWholePixels)
    (hlocator : d.locator? m = some locator) (hraster : rasters.find? locator = some r)
    (hsize : r.data.size = r.shape.count Rat) (hsound : Containment.Sound Rat) :
    ∃ out, d.warp rasters.source count grid m tile = .ok out ∧ out.IsWhole d r grid m tile := by
  obtain ⟨bounds, hbounds⟩ := exists_imageBox (d := d) hgrid tile count
  obtain ⟨read, hread, hwarp⟩ := Dataset.warp_eq (m := m) hcrs hlocator hraster hbounds
  have hwindow := MemoryRaster.window_of_readWindow hread
  have hposition : ∀ {row col : Nat}, row < grid.pixelShape.height → col < grid.pixelShape.width →
      (positionsOf d grid tile count)[row * grid.pixelShape.width + col]? =
        some (if d.footprint.contains (grid.pixelCenter tile row col) then
          some (d.transform.worldToPixel (grid.pixelCenter tile row col)) else none) :=
    getElem?_positionsOf hgrid hwhole hsound
  refine ⟨_, hwarp, ?_⟩
  split
  · next hall =>
    -- no centre lies in the footprint
    refine WarpedTile.isWhole_blank fun row hrow col hcol => ?_
    have hnone := hasNoColumn_iff.mp (Array.all_eq_true_iff_forall_mem.mp hall _
      (Array.mem_of_getElem? (hposition hrow hcol)))
    rw [← pixelValue_read hgrid hwhole hsize hbounds hread hrow hcol fun _ => rfl, hnone]
    rfl
  split
  · next hempty =>
    -- what the empty window would give is what the whole raster gives
    refine WarpedTile.isWhole_blank fun row hrow col hcol => ?_
    rw [← pixelValue_read hgrid hwhole hsize hbounds hread hrow hcol fun _ => rfl]
    exact pixelValue_of_isEmpty hnan (hwindow ▸ hempty) _ _ _
  · refine ⟨rfl, rfl, fun w hw => ?_, ?_, fun row hrow col hcol => ?_⟩
    · cases hw
      exact fits_cut _ _ _
    · show (Array.mapIdx _ _).size = _
      rw [Array.size_mapIdx, positionsOf, Array.size_map, grid.size_centers]
    · show (Array.mapIdx _ _)[_]? = _
      rw [Array.getElem?_mapIdx, hposition hrow hcol, (Grid.row_major hcol).1,
        (Grid.row_major hcol).2, ← hwindow]
      refine congrArg some (pixelValue_read hgrid hwhole hsize hbounds hread hrow hcol ?_)
      intro harea
      rw [if_pos harea]
      exact congrArg some (footprint_cornersOf hrow hcol (originOf read.window))

end Tile

/-! ## A turned raster -/

section Example

open Warp (wholeValue)

attribute [local instance] Exact.unmoved

/-- A band of means over the area of a pixel. -/
def shadeBand : Measurement Exact.Reading where
  name := "shade"
  dtype := .int16
  nodata := ⟨some (-1)⟩
  resampling := .average

/-- A quarter turn that puts rows two units apart. -/
def quarterTurn : GeoTransform Rat := ⟨-1, 0, 2, -2, 1, 0⟩

/-- A scene of three by five pixels, turned by a quarter. -/
def turnedScene : Dataset Rat where
  id := ⟨0⟩
  product := "shades"
  time := TimeSpan.instant ⟨0, 0⟩
  crs := .wgs84
  footprint := ⟨[⟨-2, -3⟩, ⟨6, -3⟩, ⟨6, 4⟩, ⟨-2, 4⟩, ⟨-2, -3⟩]⟩
  transform := ⟨quarterTurn, quarterTurn.cofactorInverse⟩
  shape := ⟨3, 5⟩
  sources := ⟨[("shade", ⟨"shade", none⟩)]⟩
  centroidLongitude := 2

/-- Numbers in the order of the pixels. -/
def countingRaster : MemoryRaster Exact.Reading :=
  .ofFn ⟨3, 5⟩ none fun row col => ⟨some (5 * row + col)⟩

/-- Tiles of two by two pixels with a border of one pixel. -/
def smallTiles : Grid Rat := ⟨.wgs84, ⟨1, -1⟩, ⟨2, 2⟩, ⟨0, 0⟩, 1⟩

/-- The outline of the first tile. -/
def firstOutline : Polygon Rat :=
  ⟨(smallTiles.paddedExtentOf ⟨0, 0⟩).sides 0 ++ [(smallTiles.paddedExtentOf ⟨0, 0⟩).lowerLeft]⟩

/-- A test that knows of one pair of polygons that the first contains the second: the footprint of
the scene and the outline of the tile. -/
@[reducible] def sceneContainment : Containment Rat where
  covers outer inner := decide (outer = turnedScene.footprint ∧ inner = firstOutline)

attribute [local instance] sceneContainment

theorem sceneContainment_sound : Containment.Sound Rat := by
  intro outer inner p hcovers hp
  obtain ⟨rfl, rfl⟩ := of_decide_eq_true hcovers
  have hfootprint : Polygon.ofFinite? (densify (⟨-2, -3, 6, 4⟩ : Box Rat).corners 0) =
      some turnedScene.footprint := by
    rw [Box.ofFinite?_densify (by norm_num)]
    norm_num [Box.sides, densifyEdge, Box.lowerLeft, Box.lowerRight, Box.upperRight, Box.upperLeft,
      turnedScene]
  -- the tile lies strictly inside the box that the footprint is the outline of
  have hground : smallTiles.paddedExtentOf ⟨0, 0⟩ = ⟨-1, -1, 3, 3⟩ := by decide +kernel
  have houtline : Polygon.ofFinite? (densify (⟨-1, -1, 3, 3⟩ : Box Rat).corners 0) =
      some firstOutline := by
    rw [Box.ofFinite?_densify (by norm_num), firstOutline, hground]
  obtain ⟨hleft, hbelow, hright, habove⟩ :=
    Box.encloses_of_outline_contains (by norm_num) (by norm_num) houtline hp
  simp only [Box.ofPoint] at hleft hbelow hright habove
  refine Box.contains_outline ⟨?_, ?_⟩ ⟨?_, ?_⟩ hfootprint <;> linarith

/-- The pixels of a tile under the scene, the outline of which lies in the footprint, show the
numbers of the raster. -/
theorem warp_eq_whole_turnedScene :
    ∃ out, turnedScene.warp (MemoryRasters.source ⟨[(⟨"shade", none⟩, countingRaster)]⟩) 0
        smallTiles shadeBand ⟨0, 0⟩ = .ok out ∧
      Warp.liesInside turnedScene (densify (smallTiles.paddedExtentOf ⟨0, 0⟩).corners 0) = true ∧
      out.IsWhole turnedScene countingRaster smallTiles shadeBand ⟨0, 0⟩ ∧
      out.data[5]? = some ⟨some 3⟩ := by
  have hlocator : turnedScene.locator? shadeBand = some ⟨"shade", none⟩ := by decide +kernel
  have hpixels : smallTiles.HoldsWholePixels :=
    ⟨⟨2, by decide +kernel⟩, ⟨2, by decide +kernel⟩⟩
  obtain ⟨out, hout, hwhole⟩ : ∃ out, turnedScene.warp
      (MemoryRasters.source ⟨[(⟨"shade", none⟩, countingRaster)]⟩) 0 smallTiles shadeBand ⟨0, 0⟩ =
        .ok out ∧ out.IsWhole turnedScene countingRaster smallTiles shadeBand ⟨0, 0⟩ :=
    Dataset.warp_eq_whole rfl rfl (by decide +kernel) hpixels hlocator (by rfl) (by decide +kernel)
      sceneContainment_sound
  refine ⟨out, hout, by decide +kernel, hwhole, ?_⟩
  have hpixel := hwhole.pixel_eq 1 (by decide +kernel) 1 (by decide +kernel)
  have hvalue : wholeValue turnedScene countingRaster smallTiles shadeBand ⟨0, 0⟩ 1 1 =
      ⟨some 3⟩ := by decide +kernel
  have hindex : 1 * smallTiles.pixelShape.width + 1 = 5 := by decide +kernel
  rw [hvalue, hindex] at hpixel
  exact hpixel

end Example

end Mosaic
