import Mosaic.Load.Plan
import Mosaic.Proofs.Binary.Numbers
import Mosaic.Proofs.Pixels
import Mosaic.Proofs.Validation

/-!
# The grid of a load

Every field of the grid of a load comes from the request, which goes first, from the grid of the product,
or from a default (`LoadRequest.IsOutputGrid`). The product has a say only in its own reference system,
and in the tile size only at its own pixel size; what it says elsewhere changes nothing. A request that
leaves everything open gets the grid of the product, and tiles of the default size are always sound
(`outputGrid_sources`).
-/

namespace Mosaic

/-! ## Finite numbers -/

/-- Coordinates of which zero is finite and a finite one equals itself. -/
class LawfulFinite (K : Type) [Coordinate K] : Prop where
  isFinite_zero : Coordinate.isFinite (0.0 : K) = true
  beq_self {x : K} : Coordinate.isFinite x = true → (x == x) = true

instance : LawfulFinite Float where
  isFinite_zero := by decide +kernel
  beq_self {x} h := by
    have hx : Binary.IsFloatOf .binary64 _ (Binary.unpack x) :=
      ⟨h, (Binary.isStorable_double x).isCanonical, rfl⟩
    exact (hx.beq_iff_eq hx).mpr rfl

instance : LawfulFinite Rat where
  isFinite_zero := rfl
  beq_self _ := beq_self_eq_true _

section General

variable {K V : Type} [Coordinate K]

theorem Point.same_self [LawfulFinite K] {p : Point K} (h : p.isFinite = true) :
    p.same p = true := by
  obtain ⟨hx, hy⟩ := Bool.and_eq_true_iff.mp h
  exact Bool.and_eq_true_iff.mpr ⟨LawfulFinite.beq_self hx, LawfulFinite.beq_self hy⟩

namespace Grid

theorem checked_eq_ok {g g' : Grid K} : g.checked = .ok g' ↔ g.flaw? = none ∧ g' = g := by
  rw [← validate_eq_ok]
  unfold checked
  rw [bind_eq_ok]
  exact ⟨fun ⟨_, hvalid, h⟩ => ⟨hvalid, (Except.ok.inj h).symm⟩,
    fun ⟨hvalid, h⟩ => ⟨(), hvalid, congrArg Except.ok h.symm⟩⟩

/-- A sound grid may begin at any finite point. -/
theorem flaw?_of_origin {g : Grid K} (h : g.flaw? = none) {origin : Point K}
    (horigin : origin.isFinite = true) : ({ g with origin } : Grid K).flaw? = none := by
  have hfinite := (isFinite_of_flaw? h).2.2
  unfold flaw? at h ⊢
  rw [hfinite] at h
  dsimp only
  rw [horigin]
  exact h

end Grid

/-! ## Where a field comes from -/

/-- A field is what the request names. Without a name it is what the product offers, and if that offers
nothing either, the default. -/
inductive FieldSource {α : Type} (named : Option α) (offers : α → Prop) (default : Option α) (a : α) :
    Prop
  | request (h : named = some a)
  | product (hnamed : named = none) (h : offers a)
  | default (hnamed : named = none) (hoffers : ∀ b, ¬offers b) (h : default = some a)

section Field

variable {α : Type} {named offered : Option α} {offers : α → Prop}

/-- A field without a default. -/
theorem fieldSource_none_iff (h : ∀ b, offers b ↔ offered = some b) {a : α} :
    FieldSource named offers none a ↔ (named <|> offered) = some a := by
  constructor
  · rintro (rfl | ⟨rfl, hoffers⟩ | ⟨rfl, -, hnone⟩)
    · rfl
    · exact (h a).mp hoffers
    · cases hnone
  · intro heq
    cases named with
    | some b => exact .request heq
    | none => exact .product rfl ((h a).mpr heq)

/-- A field with a default. -/
theorem fieldSource_some_iff (h : ∀ b, offers b ↔ offered = some b) {default a : α} :
    FieldSource named offers (some default) a ↔ a = (named <|> offered).getD default := by
  constructor
  · rintro (rfl | ⟨rfl, hoffers⟩ | ⟨rfl, hoffers, ⟨⟩⟩)
    · rfl
    · rw [(h a).mp hoffers]
      rfl
    · rw [Option.eq_none_iff_forall_ne_some.mpr fun b hb => hoffers b ((h b).mpr hb)]
      rfl
  · rintro rfl
    match named, offered with
    | some b, _ => exact .request rfl
    | none, some b => exact .product rfl ((h b).mpr rfl)
    | none, none => exact .default rfl (fun b hb => nomatch (h b).mp hb) rfl

end Field

/-- Without a name a field is the one value that the product offers. -/
theorem FieldSource.eq_of_offers {α : Type} {offers : α → Prop} {default : Option α} {a b : α}
    (h : FieldSource none offers default a) (hb : offers b) (hunique : ∀ c, offers c → c = b) :
    a = b := by
  rcases h with h | ⟨-, h⟩ | ⟨-, hnone, -⟩
  · cases h
  · exact hunique a h
  · exact absurd hb (hnone b)

/-- Where there is a default a field has a value. -/
theorem exists_fieldSource {α : Type} (named : Option α) (offers : α → Prop) (default : α) :
    ∃ a, FieldSource named offers (some default) a := by
  cases hnamed : named with
  | some a => exact ⟨a, .request rfl⟩
  | none =>
    by_cases hoffers : ∃ a, offers a
    · obtain ⟨a, ha⟩ := hoffers
      exact ⟨a, .product rfl ha⟩
    · exact ⟨default, .default rfl (not_exists.mp hoffers) rfl⟩

/-- Whether a product has a certain grid, and has it in a certain reference system. -/
def Product.HasGridIn (p : Product K V) (crs : Crs) (b : Grid K) : Prop :=
  p.grid = some b ∧ b.crs = crs

namespace LoadRequest

/-- A request that leaves all fields of the grid open. -/
def NamesNoGrid (r : LoadRequest K) : Prop :=
  r.outputCrs = none ∧ r.resolution = none ∧ r.tileSize = none ∧ r.padding = none

/-- The reference system of the output. -/
def HasCrs (r : LoadRequest K) (p : Product K V) (crs : Crs) : Prop :=
  FieldSource r.outputCrs (fun c => ∃ b, p.HasGridIn c b) none crs

/-- The pixel size of the output in a reference system. -/
def HasResolution (r : LoadRequest K) (p : Product K V) (crs : Crs) (size : Point K) : Prop :=
  FieldSource r.resolution (fun s => ∃ b, p.HasGridIn crs b ∧ b.resolution = s) none size

/-- The fields of the grid of a load and where each comes from. -/
@[mk_iff isOutputGrid_def]
structure IsOutputGrid (r : LoadRequest K) (config : LoaderConfig) (p : Product K V) (g : Grid K) :
    Prop where
  crs : r.HasCrs p g.crs
  resolution : r.HasResolution p g.crs g.resolution
  tileSize : FieldSource r.tileSize
    (fun size => ∃ b, p.HasGridIn g.crs b ∧ b.resolution.same g.resolution = true ∧ b.tileSize = size)
    (some (defaultTileSize config g.resolution)) g.tileSize
  /-- No request names an origin. -/
  origin : FieldSource none (fun o => ∃ b, p.HasGridIn g.crs b ∧ b.origin = o) (some ⟨0.0, 0.0⟩)
    g.origin
  padding : FieldSource r.padding (fun n => ∃ b, p.HasGridIn g.crs b ∧ b.padding = n) (some 0) g.padding

variable {r : LoadRequest K} {config : LoaderConfig} {p : Product K V} {g : Grid K}

/-- The grid in a reference system and with a pixel size, sound or not. -/
def candidate (r : LoadRequest K) (config : LoaderConfig) (p : Product K V) (crs : Crs)
    (resolution : Point K) : Grid K :=
  let base := p.grid.filter fun g => g.crs = crs
  let sameSize := base.filter fun g => g.resolution.same resolution
  { crs, resolution
    tileSize := (r.tileSize <|> sameSize.map Grid.tileSize).getD (defaultTileSize config resolution)
    origin := (base.map Grid.origin).getD ⟨0.0, 0.0⟩
    padding := (r.padding <|> base.map Grid.padding).getD 0 }

/-- The sources of all fields give one grid. -/
theorem isOutputGrid_iff :
    r.IsOutputGrid config p g ↔ (r.outputCrs <|> p.grid.map Grid.crs) = some g.crs ∧
      (r.resolution <|> (p.grid.filter fun b => b.crs = g.crs).map Grid.resolution) =
        some g.resolution ∧
      g = r.candidate config p g.crs g.resolution := by
  have hcrs : ∀ crs, (∃ b, p.HasGridIn crs b) ↔ p.grid.map Grid.crs = some crs :=
    fun crs => Option.map_eq_some_iff.symm
  have hbase : ∀ b, p.HasGridIn g.crs b ↔ (p.grid.filter fun b => b.crs = g.crs) = some b := by
    intro b
    rw [Option.filter_eq_some_iff, decide_eq_true_eq]
    rfl
  have hfield : ∀ {α : Type} (field : Grid K → α) (a : α), (∃ b, p.HasGridIn g.crs b ∧ field b = a) ↔
      (p.grid.filter fun b => b.crs = g.crs).map field = some a := by
    intro α field a
    simp only [hbase, Option.map_eq_some_iff]
  have hsize : ∀ size, (∃ b, p.HasGridIn g.crs b ∧ b.resolution.same g.resolution = true ∧
      b.tileSize = size) ↔ ((p.grid.filter fun b => b.crs = g.crs).filter fun b =>
        b.resolution.same g.resolution).map Grid.tileSize = some size := by
    intro size
    simp only [hbase, Option.map_eq_some_iff, Option.filter_eq_some_iff, and_assoc]
  rw [isOutputGrid_def, HasCrs, HasResolution, fieldSource_none_iff hcrs,
    fieldSource_none_iff (hfield Grid.resolution), fieldSource_some_iff hsize,
    fieldSource_some_iff (hfield Grid.origin), fieldSource_some_iff (hfield Grid.padding)]
  obtain ⟨crs, resolution, tileSize, origin, padding⟩ := g
  simp only [candidate, Grid.mk.injEq, true_and]
  rfl

/-- The grid of a load has no flaws, and all its fields have their sources. -/
theorem of_outputGrid (h : r.outputGrid config p = .ok g) :
    g.flaw? = none ∧ r.IsOutputGrid config p g := by
  rw [isOutputGrid_iff]
  unfold outputGrid at h
  split at h
  · next crs hcrs =>
    dsimp only at h
    split at h
    · next resolution hresolution =>
      obtain ⟨made, hmade, h⟩ := bind_eq_ok.mp h
      obtain ⟨moved, hmoved, h⟩ := bind_eq_ok.mp h
      cases h
      obtain ⟨-, rfl⟩ := Grid.checked_eq_ok.mp (mapError_eq_ok.mp hmade)
      obtain ⟨hflaw, rfl⟩ := Grid.checked_eq_ok.mp (mapError_eq_ok.mp hmoved)
      exact ⟨hflaw, hcrs, hresolution, rfl⟩
    · cases h
  · cases h

/-- A load has the grid that the sources give, if it is sound. -/
theorem outputGrid_eq_ok [LawfulFinite K] :
    r.outputGrid config p = .ok g ↔ g.flaw? = none ∧ r.IsOutputGrid config p g := by
  refine ⟨of_outputGrid, fun ⟨hflaw, hg⟩ => ?_⟩
  obtain ⟨hcrs, hresolution, heq⟩ := isOutputGrid_iff.mp hg
  -- the grid is looked at before it gets its origin as well, where it is sound too
  have horigin : Point.isFinite (⟨0.0, 0.0⟩ : Point K) = true :=
    Bool.and_eq_true_iff.mpr ⟨LawfulFinite.isFinite_zero, LawfulFinite.isFinite_zero⟩
  have hmade : Grid.make g.crs g.resolution g.tileSize =
      .ok { g with origin := ⟨0.0, 0.0⟩, padding := 0 } :=
    Grid.checked_eq_ok.mpr ⟨Grid.flaw?_of_origin hflaw horigin, rfl⟩
  have hmoved : ({ g with origin := ⟨0.0, 0.0⟩, padding := 0 } : Grid K).withOrigin g.origin =
      .ok { g with padding := 0 } := Grid.checked_eq_ok.mpr ⟨hflaw, rfl⟩
  have htile := congrArg Grid.tileSize heq
  have horigin' := congrArg Grid.origin heq
  have hpadding := congrArg Grid.padding heq
  unfold outputGrid
  rw [hcrs]
  dsimp only
  rw [hresolution]
  dsimp only [candidate] at htile horigin' hpadding ⊢
  rw [← htile, ← horigin', ← hpadding, hmade]
  show (Except.mapError LoadError.ofRequest (Grid.withOrigin _ g.origin) >>= _) = _
  rw [hmoved]
  rfl

/-! ## The part of the product -/

/-- In another reference system the grid of the product plays no part. -/
theorem outputGrid_of_other_crs {crs : Crs} {b : Grid K} (hcrs : r.outputCrs = some crs)
    (hgrid : p.grid = some b) (hne : b.crs ≠ crs) :
    r.outputGrid config { p with grid := none } = r.outputGrid config p := by
  have hbase : (p.grid.filter fun b => b.crs = crs) = none := by
    rw [hgrid]
    exact Option.filter_some_neg (decide_eq_false hne)
  have hnamed : ∀ c : Option Crs, (r.outputCrs <|> c) = some crs := by
    intro c
    rw [hcrs]
    rfl
  unfold outputGrid
  simp only [hnamed, hbase, Option.filter_none]

/-- At another pixel size the tile size of the product plays no part. -/
theorem outputGrid_of_other_resolution {size : Point K} {b : Grid K}
    (hresolution : r.resolution = some size) (hgrid : p.grid = some b)
    (hne : b.resolution.same size = false) (tileSize : Point K) :
    r.outputGrid config { p with grid := some { b with tileSize } } = r.outputGrid config p := by
  unfold outputGrid
  simp only [hresolution, hgrid, Option.map_some]
  cases r.outputCrs <|> some b.crs with
  | none => rfl
  | some crs =>
    by_cases hcrs : b.crs = crs
    · simp [Option.filter, hcrs, hne]
    · simp [Option.filter, hcrs]

/-- A request that leaves all fields open gets the grid of the product. -/
theorem outputGrid_of_namesNoGrid [LawfulFinite K] (h : r.NamesNoGrid) {b : Grid K}
    (hgrid : p.grid = some b) (hflaw : b.flaw? = none) : r.outputGrid config p = .ok b := by
  obtain ⟨hcrs, hresolution, htile, hpadding⟩ := h
  have hb : p.HasGridIn b.crs b := ⟨hgrid, rfl⟩
  have hsame := Point.same_self (Grid.isFinite_of_flaw? hflaw).1
  exact outputGrid_eq_ok.mpr ⟨hflaw, .product hcrs ⟨b, hb⟩, .product hresolution ⟨b, hb, rfl⟩,
    .product htile ⟨b, hb, hsame, rfl⟩, .product rfl ⟨b, hb, rfl⟩, .product hpadding ⟨b, hb, rfl⟩⟩

end LoadRequest

end General

/-! ## Tiles of the default size -/

namespace Grid

/-- A whole number of pixels is one, whatever the size and the sign of a pixel. -/
theorem wholePixels_of_mul {n : Nat} (hn : 1 ≤ n) {tile pixel : Rat} (hpixel : pixel ≠ 0)
    (h : tile = n * |pixel|) : wholePixels tile pixel = true := by
  have hround : (Coordinate.round ((n : Int) : Rat) : Rat) = ((n : Int) : Rat) :=
    congrArg Int.cast (Exact.round_intCast n)
  have hone : ¬((n : Int) : Rat) < 1.0 := by
    rw [not_lt, Int.cast_natCast]
    norm_num
    exact hn
  have htolerance : ¬(pixelTolerance : Rat) < 0 := by
    unfold pixelTolerance
    norm_num
  unfold wholePixels
  simp only [Exact.abs_eq, div_abs_pixel hpixel h, hround, sub_self, abs_zero, hone, htolerance, decide_false,
    Bool.or_false, Bool.not_false]

theorem flaw?_of_whole {g : Grid Rat} {n m : Nat} (hn : 1 ≤ n) (hm : 1 ≤ m)
    (hx : g.resolution.x ≠ 0) (hy : g.resolution.y ≠ 0) (hwidth : g.tileSize.x = n * |g.resolution.x|)
    (hheight : g.tileSize.y = m * |g.resolution.y|) : g.flaw? = none := by
  have hzero : (0.0 : Rat) = 0 := by norm_num
  have hfinite : ∀ p : Point Rat, p.isFinite = true := fun _ => rfl
  have hwidth' : 0 < g.tileSize.x := by
    rw [hwidth]
    have := abs_pos.mpr hx
    positivity
  have hheight' : 0 < g.tileSize.y := by
    rw [hheight]
    have := abs_pos.mpr hy
    positivity
  unfold flaw?
  simp [hzero, hfinite, hx, hy, hwidth', hheight', wholePixels_of_mul hn hx hwidth,
    wholePixels_of_mul hm hy hheight]

theorem pixelShape_of_whole {g : Grid Rat} {n m : Nat} (hx : g.resolution.x ≠ 0)
    (hy : g.resolution.y ≠ 0) (hwidth : g.tileSize.x = n * |g.resolution.x|)
    (hheight : g.tileSize.y = m * |g.resolution.y|) :
    g.pixelShape = ⟨m + 2 * g.padding, n + 2 * g.padding⟩ := by
  unfold pixelShape innerShape
  simp only [Exact.word_eq, Exact.abs_eq, round_pixels hx hwidth, round_pixels hy hheight]

end Grid

namespace LoadRequest

variable {V : Type} {r : LoadRequest Rat} {config : LoaderConfig} {p : Product Rat V}

/-- Tiles of the default size are sound at every pixel size. -/
theorem exists_outputGrid_of_default (hconfig : 1 ≤ config.defaultTilePixels) {crs : Crs}
    {size : Point Rat} (hcrs : r.HasCrs p crs) (hsize : r.HasResolution p crs size)
    (htile : r.tileSize = none)
    (hother : ∀ b, p.HasGridIn crs b → b.resolution.same size = false) (hx : size.x ≠ 0)
    (hy : size.y ≠ 0) :
    ∃ g, r.outputGrid config p = .ok g ∧ r.IsOutputGrid config p g ∧ g.crs = crs ∧
      g.resolution = size ∧ g.pixelShape = ⟨config.defaultTilePixels + 2 * g.padding,
        config.defaultTilePixels + 2 * g.padding⟩ := by
  obtain ⟨origin, horigin⟩ := exists_fieldSource none
    (fun o => ∃ b, p.HasGridIn crs b ∧ b.origin = o) ⟨0.0, 0.0⟩
  obtain ⟨padding, hpadding⟩ := exists_fieldSource r.padding
    (fun n => ∃ b, p.HasGridIn crs b ∧ b.padding = n) 0
  let g : Grid Rat := ⟨crs, size, defaultTileSize config size, origin, padding⟩
  have hg : r.IsOutputGrid config p g := by
    refine ⟨hcrs, hsize, .default htile ?_ rfl, horigin, hpadding⟩
    rintro _ ⟨b, hb, hsame, -⟩
    exact absurd hsame (Bool.eq_false_iff.mp (hother b hb))
  have hwidth : g.tileSize.x = config.defaultTilePixels * |g.resolution.x| := by
    show Coordinate.abs size.x * _ = _
    rw [Exact.abs_eq, mul_comm, Exact.ofNat_eq]
  have hheight : g.tileSize.y = config.defaultTilePixels * |g.resolution.y| := by
    show Coordinate.abs size.y * _ = _
    rw [Exact.abs_eq, mul_comm, Exact.ofNat_eq]
  refine ⟨g, outputGrid_eq_ok.mpr ⟨Grid.flaw?_of_whole hconfig hconfig hx hy hwidth hheight, hg⟩, hg,
    rfl, rfl, Grid.pixelShape_of_whole hx hy hwidth hheight⟩

end LoadRequest

/-! ## All sources together -/

namespace LoadRequest

/-- The grid of a load is the one that its sources give, where that is sound, and there is none
otherwise. In another reference system the grid of the product changes nothing, and at another pixel
size its tile size does not. A request that leaves the grid open gets the sound grid of the product. In
exact arithmetic tiles of the default size make a sound grid at every pixel size but zero, with the
configured number of pixels and the border on both sides. -/
theorem outputGrid_sources {V : Type} (config : LoaderConfig)
    (hconfig : 1 ≤ config.defaultTilePixels) :
    (∀ (r : LoadRequest Float) (p : Product Float V),
      (∀ g, r.outputGrid config p = .ok g ↔ g.validate = .ok () ∧ r.IsOutputGrid config p g) ∧
      ∀ b, p.grid = some b →
        (∀ crs, r.outputCrs = some crs → b.crs ≠ crs →
          r.outputGrid config { p with grid := none } = r.outputGrid config p) ∧
        (∀ size, r.resolution = some size → b.resolution.same size = false → ∀ tileSize,
          r.outputGrid config { p with grid := some { b with tileSize } } =
            r.outputGrid config p) ∧
        (r.NamesNoGrid → b.validate = .ok () → r.outputGrid config p = .ok b)) ∧
    ∀ (r : LoadRequest Rat) (p : Product Rat V) (crs : Crs) (size : Point Rat),
      r.HasCrs p crs → r.HasResolution p crs size → r.tileSize = none →
      (∀ b, p.HasGridIn crs b → b.resolution.same size = false) → size.x ≠ 0 → size.y ≠ 0 →
      ∃ g, r.outputGrid config p = .ok g ∧ r.IsOutputGrid config p g ∧ g.crs = crs ∧
        g.resolution = size ∧ g.pixelShape = ⟨config.defaultTilePixels + 2 * g.padding,
          config.defaultTilePixels + 2 * g.padding⟩ := by
  refine ⟨fun r p => ⟨fun g => ?_, fun b hgrid => ⟨fun crs hcrs hne => ?_,
    fun size hresolution hne tileSize => ?_, fun hnames hvalid => ?_⟩⟩,
    fun r p crs size hcrs hsize htile hother hx hy =>
      exists_outputGrid_of_default hconfig hcrs hsize htile hother hx hy⟩
  · rw [Grid.validate_eq_ok]
    exact outputGrid_eq_ok
  · exact outputGrid_of_other_crs hcrs hgrid hne
  · exact outputGrid_of_other_resolution hresolution hgrid hne tileSize
  · exact outputGrid_of_namesNoGrid hnames hgrid (Grid.validate_eq_ok.mp hvalid)

section Example

variable {K : Type} [Coordinate K]

/-- Pixels of 25 metres, forty to a tile, with a border of two. -/
def fineGrid : Grid K := ⟨.australianAlbers, ⟨25.0, -25.0⟩, ⟨1000.0, 1000.0⟩, ⟨500.0, 0.0⟩, 2⟩

def fineProduct : Product K Float32 where
  name := "scenes"
  measurements := [{ name := "red", dtype := .float32, nodata := 0.0 }]
  grid := some fineGrid

/-- A request for pixels of the double size. -/
def coarseRequest : LoadRequest K := { product := "scenes", resolution := some ⟨50.0, -50.0⟩ }

/-- Coarser pixels keep the origin and the border of the product and not its tile size. -/
theorem outputGrid_sources_coarse :
    1 ≤ ({} : LoaderConfig).defaultTilePixels ∧
      ({ product := "scenes" } : LoadRequest Float).outputGrid {} fineProduct = .ok fineGrid ∧
      ∃ g : Grid Rat, coarseRequest.outputGrid {} fineProduct = .ok g ∧
        g.resolution = ⟨50.0, -50.0⟩ ∧ g.origin = ⟨500.0, 0.0⟩ ∧ g.padding = 2 ∧
        g.pixelShape = ⟨260, 260⟩ := by
  have hconfig : 1 ≤ ({} : LoaderConfig).defaultTilePixels := by decide
  obtain ⟨hmachine, hexact⟩ := outputGrid_sources (V := Float32) {} hconfig
  have hvalid : (fineGrid (K := Float)).validate = .ok () := eq_ok_of_test (by decide +kernel)
  have hfine := ((hmachine { product := "scenes" } fineProduct).2 fineGrid rfl).2.2
    ⟨rfl, rfl, rfl, rfl⟩ hvalid
  have hgrid : ∀ {crs : Crs} {b : Grid Rat}, fineProduct.HasGridIn crs b → b = fineGrid :=
    fun h => (Option.some_inj.mp h.1).symm
  have hoffers : fineProduct.HasGridIn .australianAlbers (fineGrid (K := Rat)) := ⟨rfl, rfl⟩
  obtain ⟨g, hg, hsources, hcrs, hsize, hshape⟩ := hexact coarseRequest fineProduct
    .australianAlbers ⟨50.0, -50.0⟩ (.product rfl ⟨_, hoffers⟩) (.request rfl) rfl
    (fun b hb => by rw [hgrid hb]; decide +kernel) (by norm_num) (by norm_num)
  have hoffered : ∀ {α : Type} {field : Grid Rat → α} {a : α},
      (∃ b, fineProduct.HasGridIn g.crs b ∧ field b = a) → a = field fineGrid := by
    rintro α field a ⟨b, hb, rfl⟩
    rw [hgrid hb]
  have horigin := hsources.origin.eq_of_offers ⟨_, hcrs ▸ hoffers, rfl⟩ fun _ => hoffered
  have hpadding : g.padding = 2 :=
    hsources.padding.eq_of_offers ⟨_, hcrs ▸ hoffers, rfl⟩ fun _ => hoffered
  rw [hpadding] at hshape
  exact ⟨hconfig, hfine, g, hg, hsize, horigin, hpadding, hshape⟩

end Example

end LoadRequest

end Mosaic
