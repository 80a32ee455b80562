import Mosaic.Binary.Rounding
import Mosaic.Catalog.Basic
import Mosaic.Catalog.File
import Mosaic.Catalog.Record
import Mosaic.Cli.Arguments
import Mosaic.Cli.Command
import Mosaic.Cli.Query
import Mosaic.Cli.Report
import Mosaic.Cli.Run
import Mosaic.Crs
import Mosaic.Dataset.Basic
import Mosaic.Dataset.Document
import Mosaic.Dataset.Id
import Mosaic.Decimal.Basic
import Mosaic.Decimal.Layout
import Mosaic.Decimal.Rounded
import Mosaic.Decimal.Shortest
import Mosaic.Document
import Mosaic.Error
import Mosaic.FileTree
import Mosaic.Geometry.Affine
import Mosaic.Geometry.Box
import Mosaic.Geometry.Cover
import Mosaic.Geometry.Polygon
import Mosaic.Grid
import Mosaic.Ingestion
import Mosaic.Json.Basic
import Mosaic.Json.Exact
import Mosaic.Json.Print
import Mosaic.Json.Read
import Mosaic.Load.Cells
import Mosaic.Load.Config
import Mosaic.Load.Fuse
import Mosaic.Load.Plan
import Mosaic.Load.Search
import Mosaic.Load.Summary
import Mosaic.Load.Tile
import Mosaic.Load.Warning
import Mosaic.Main
import Mosaic.Outcome
import Mosaic.Product.Basic
import Mosaic.Product.DataType
import Mosaic.Product.Document
import Mosaic.Product.Policy
import Mosaic.Projection.Albers
import Mosaic.Projection.Ellipsoid
import Mosaic.Projection.Transformer
import Mosaic.Projection.TransverseMercator
import Mosaic.Projection.WebMercator
import Mosaic.Proofs.Affine
import Mosaic.Proofs.Assembly
import Mosaic.Proofs.Binary.Integers
import Mosaic.Proofs.Binary.Nearest
import Mosaic.Proofs.Binary.Numbers
import Mosaic.Proofs.Binary.Ordering
import Mosaic.Proofs.Binary.Packed
import Mosaic.Proofs.Binary.Products
import Mosaic.Proofs.Binary.Rounding
import Mosaic.Proofs.Binary.Sums
import Mosaic.Proofs.Binary.Unpacked
import Mosaic.Proofs.Border
import Mosaic.Proofs.Calendar
import Mosaic.Proofs.CastRange
import Mosaic.Proofs.Casting
import Mosaic.Proofs.CatalogHistory
import Mosaic.Proofs.Catalogs
import Mosaic.Proofs.Cells
import Mosaic.Proofs.Centre
import Mosaic.Proofs.Contribution
import Mosaic.Proofs.Contributors
import Mosaic.Proofs.Coverage
import Mosaic.Proofs.Decimal.Layout
import Mosaic.Proofs.Decimal.Nearest
import Mosaic.Proofs.Decimal.Shortest
import Mosaic.Proofs.Densify
import Mosaic.Proofs.Documents
import Mosaic.Proofs.Downsampling
import Mosaic.Proofs.Exact
import Mosaic.Proofs.Footprint
import Mosaic.Proofs.Frequency
import Mosaic.Proofs.Fusion
import Mosaic.Proofs.Identifier
import Mosaic.Proofs.Indexing
import Mosaic.Proofs.Interpolation
import Mosaic.Proofs.Isolation
import Mosaic.Proofs.Json.Numbers
import Mosaic.Proofs.Json.Roundtrip
import Mosaic.Proofs.Json.Strings
import Mosaic.Proofs.Kernel
import Mosaic.Proofs.MeasurementOrder
import Mosaic.Proofs.Midpoint
import Mosaic.Proofs.Naming
import Mosaic.Proofs.NativeGrid
import Mosaic.Proofs.Nodata
import Mosaic.Proofs.Nudging
import Mosaic.Proofs.Order
import Mosaic.Proofs.Outcome
import Mosaic.Proofs.Outline
import Mosaic.Proofs.OutputGrid
import Mosaic.Proofs.Partition
import Mosaic.Proofs.Pixels
import Mosaic.Proofs.Pixelwise
import Mosaic.Proofs.Priority
import Mosaic.Proofs.ProductText
import Mosaic.Proofs.Provenance
import Mosaic.Proofs.RangeEnd
import Mosaic.Proofs.Reading
import Mosaic.Proofs.Search
import Mosaic.Proofs.SmoothFields
import Mosaic.Proofs.SortedMap
import Mosaic.Proofs.Stacking
import Mosaic.Proofs.Summary
import Mosaic.Proofs.Tiling
import Mosaic.Proofs.Turning
import Mosaic.Proofs.Validation
import Mosaic.Proofs.Winding
import Mosaic.Proofs.Window
import Mosaic.Proofs.Wrapping
import Mosaic.Raster.Memory
import Mosaic.Raster.Shape
import Mosaic.Raster.Source
import Mosaic.Resample.Kernel
import Mosaic.Resample.View
import Mosaic.Resample.Warp
import Mosaic.Scalar.Basic
import Mosaic.Scalar.Exact
import Mosaic.Scalar.Machine
import Mosaic.SortedMap
import Mosaic.Text.Blank
import Mosaic.Text.Case
import Mosaic.Text.Quoted
import Mosaic.Time.Grouping
import Mosaic.Time.Instant
import Mosaic.Time.Print
import Mosaic.Time.Range
import Mosaic.Time.Read
import Mosaic.Yaml.Cursor
import Mosaic.Yaml.Node
import Mosaic.Yaml.Read
import Mosaic.Yaml.Scalar
import Mosaic.Zarr.Array
import Mosaic.Zarr.Source
