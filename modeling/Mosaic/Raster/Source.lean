import Mosaic.Error
import Mosaic.Raster.Shape

/-!
# Rasters and where they come from

A raster is a rectangle of samples, read window by window. A source opens the rasters that locators
name; what opening and reading give is a value, so that a source is the same for every part of a
load. Samples are listed row by row.
-/

namespace Mosaic

/-- Where the pixels of one measurement of a dataset lie. -/
structure SourceLocator where
  /-- The path of the raster below the root of the source. -/
  path : String
  /-- The variable inside the raster; without one the raster itself. -/
  variableName : Option String := none
  deriving DecidableEq, Repr, Ord

namespace SourceLocator

def text (l : SourceLocator) : String :=
  match l.variableName with
  | some name => s!"{l.path}:{name}"
  | none => l.path

end SourceLocator

namespace PixelWindow

/-- The error of reading a window that does not fit. -/
def outside (w : PixelWindow) (shape : PixelShape) : LoadError :=
  .readFailed s!"window {w.text} outside raster of {shape.text}"

end PixelWindow

/-- The samples of a window and the value that the raster declares for missing ones. -/
structure WindowData (V : Type) where
  window : PixelWindow
  values : Array V
  nodata : Option V

/-- An open raster. -/
structure RasterHandle (V : Type) where
  shape : PixelShape
  /-- The samples of a window, which has to fit. -/
  readWindow : PixelWindow → Except LoadError (WindowData V)

/-- What opens rasters. -/
structure RasterSource (V : Type) where
  openRaster : SourceLocator → Except LoadError (RasterHandle V)

end Mosaic
