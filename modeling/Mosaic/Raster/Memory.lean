import Mosaic.Raster.Source
import Mosaic.SortedMap

/-!
# Rasters in memory

A raster given by all its samples, and a source that holds such rasters by their locators. A window
that does not fit the raster is refused; any other is read.
-/

namespace Mosaic

/-- A raster given by all its samples, row by row. -/
structure MemoryRaster (V : Type) where
  shape : PixelShape
  data : Array V
  nodata : Option V

namespace MemoryRaster

/-- A raster of as many samples as its shape has pixels. -/
def make {V K : Type} [Coordinate K] [Sample V K] (shape : PixelShape) (data : Array V)
    (nodata : Option V) : Except LoadError (MemoryRaster V) :=
  let count := shape.count K
  if data.size = count then .ok ⟨shape, data, nodata⟩
  else
    .error (.invalidMetadata
      s!"raster of {shape.height}x{shape.width} needs {count} values, got {data.size}")

variable {V : Type}

/-- The raster with the samples `f row col`. -/
def ofFn (shape : PixelShape) (nodata : Option V) (f : Nat → Nat → V) : MemoryRaster V :=
  ⟨shape, Array.ofFn fun i : Fin (shape.height * shape.width) =>
    f (i / shape.width) (i % shape.width), nodata⟩

/-- One row of a window. -/
def readRow (r : MemoryRaster V) (w : PixelWindow) (row : Nat) : Array V :=
  let start := row * r.shape.width + w.col
  r.data.extract start (start + w.width)

/-- The samples of a window that fits. -/
def readWindow (r : MemoryRaster V) (w : PixelWindow) : Except LoadError (WindowData V) :=
  if w.fits r.shape then
    .ok ⟨w, (Array.range w.height).flatMap fun i => r.readRow w (w.row + i), r.nodata⟩
  else .error (w.outside r.shape)

def handle (r : MemoryRaster V) : RasterHandle V := ⟨r.shape, r.readWindow⟩

end MemoryRaster

/-- Rasters by their locators. -/
abbrev MemoryRasters (V : Type) := SortedMap SourceLocator (MemoryRaster V)

namespace MemoryRasters

variable {V : Type}

/-- The source that opens the rasters of a map. -/
def source (rasters : MemoryRasters V) : RasterSource V where
  openRaster locator :=
    match rasters.find? locator with
    | some r => .ok r.handle
    | none => .error (.openFailed s!"no raster at {locator.text}")

end MemoryRasters

end Mosaic
