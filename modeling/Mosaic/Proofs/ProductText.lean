import Mosaic.Proofs.Documents
import Mosaic.Proofs.Json.Roundtrip
import Mosaic.Proofs.Validation
import Mosaic.Scalar.Machine

/-!
# Products in JSON texts

The text of a sound product is JSON, and reading it gives the product back but for its nodata values
(`ofTree_toJson`). A nodata value is written as the shortest decimal of a single and read as a
double, so it is rounded twice, and a few singles come back as a neighbour. An infinite one is
written as null, which is not read as a nodata value at all.
-/

namespace Mosaic

open Binary Json
open Float.Model (Format UnpackedFloat)

/-! ## Nodata values -/

/-- The nodata value that is read from what a nodata value is written as; an infinite one is written
as null, and nothing is read from it. -/
def rereadNodata (y : Float32) : Option Float32 :=
  if y.isNaN then some y else (Decimal.ofFloat32? y).map fun d => narrow d.toFloat

theorem nan_eq {y : Float32} (h : y.isNaN = true) : (Sample.nan : Float32) = y := by
  apply unpackSingle_injective
  rw [eq_notANumber (u := unpackSingle y) h]
  rfl

theorem nodataOfTree_toJson (y : Float32) :
    Measurement.nodataOfTree (reread (Measurement.nodataToJson y)) =
      match rereadNodata y with
      | some z => .ok z
      | none => .error (.unexpected "a number or a text") := by
  unfold Measurement.nodataToJson rereadNodata
  cases hnan : y.isNaN with
  | true =>
    rw [if_pos (show Sample.isNaN y = true from hnan), if_pos rfl, ← nan_eq hnan]
    rfl
  | false =>
    have hfinite := Decimal.isFinite_eq_isSome_ofFloat32? y
    rw [if_neg (show ¬Sample.isNaN y = true from ne_true_of_eq_false hnan), if_neg Bool.false_ne_true]
    -- what has no decimal is infinite, and null in the text
    show Measurement.nodataOfTree (reread (ofFloat32 y)) = _
    unfold ofFloat32
    cases h : Decimal.ofFloat32? y with
    | none =>
      rw [h] at hfinite
      rw [if_neg (by simp [hfinite])]
      rfl
    | some d =>
      rw [h] at hfinite
      rw [if_pos (show y.isFinite = true from hfinite)]
      simp only [reread, mapScalars, rereadScalar, h]
      rfl

/-- A nodata value comes back when it is not a number, or when its shortest decimal, read as a double,
is narrowed to it again. -/
def NodataSurvives (y : Float32) : Prop :=
  y.isNaN = true ∨ ∃ d, Decimal.ofFloat32? y = some d ∧ narrow d.toFloat = y

theorem rereadNodata_eq_self {y : Float32} : rereadNodata y = some y ↔ NodataSurvives y := by
  unfold rereadNodata NodataSurvives
  cases y.isNaN with
  | true => exact iff_of_true rfl (.inl rfl)
  | false =>
    rw [if_neg Bool.false_ne_true, Option.map_eq_some_iff]
    exact ⟨.inr, fun h => h.resolve_left Bool.false_ne_true⟩

theorem exists_rereadNodata {y : Float32} :
    (∃ z, rereadNodata y = some z) ↔ y.isNaN = true ∨ y.isFinite = true := by
  unfold rereadNodata
  rw [Decimal.isFinite_eq_isSome_ofFloat32?]
  cases y.isNaN with
  | true => exact iff_of_true ⟨y, rfl⟩ (.inl rfl)
  | false => simp [Option.isSome_iff_exists]

/-- A whole number of at most 52 bits comes back. -/
theorem nodataSurvives_of_whole {n : Int} (hn : |n| < 2 ^ 52) {y : Float32}
    (hy : IsFloatOf .binary32 n (unpackSingle y)) : NodataSurvives y := by
  obtain ⟨d, hd⟩ := Option.isSome_iff_exists.mp
    ((Decimal.isFinite_eq_isSome_ofFloat32? y).symm.trans hy.isFinite)
  exact .inr ⟨d, hd, Decimal.narrow_of_ofFloat32? hd hy hn⟩

theorem nodataSurvives_of_canRepresent {d : DataType} {lo hi : Int}
    (hrange : d.range? = some (lo, hi)) {y : Float32} (h : d.canRepresent y = true) :
    NodataSurvives y := by
  obtain ⟨n, hlow, hhigh, hfloat⟩ := DataType.exists_whole_of_canRepresent hrange h
  obtain ⟨-, -, hlo, hhi⟩ := DataType.range_bounds hrange
  have hn : |n| < 2 ^ 52 := by
    rw [abs_le] at hlo hhi
    rw [abs_lt]
    omega
  exact nodataSurvives_of_whole hn hfloat

theorem nodataOfTree_eq_ok {y z : Float32} :
    Measurement.nodataOfTree (reread (Measurement.nodataToJson y)) = .ok z ↔
      rereadNodata y = some z := by
  rw [nodataOfTree_toJson]
  cases rereadNodata y with
  | none => exact iff_of_false nofun nofun
  | some w => exact ⟨fun h => congrArg some (Except.ok.inj h), fun h => congrArg _ (Option.some.inj h)⟩

/-! ## The parts of a product -/

theorem reread_string (s : String) : reread (string s) = string s := rfl

theorem reread_ofStrings (texts : List String) : reread (ofStrings texts) = ofStrings texts := by
  rw [ofStrings, reread_array, List.map_map]
  rfl

/-- A measurement is read back with the nodata value that is read back. -/
theorem Measurement.ofTree_toJson (m : Measurement Float32) :
    ofTree (V := Float32) (reread m.toJson) =
      (nodataOfTree (reread (nodataToJson m.nodata))).map fun nodata => { m with nodata } := by
  have hdtype : DataType.ofTree (string m.dtype.name) = .ok m.dtype :=
    DataTree.oneOf_string m.dtype.ofName?_name
  have hresampling : Resampling.ofTree (string m.resampling.name) = .ok m.resampling :=
    DataTree.oneOf_string m.resampling.ofName?_name
  have hsource : DataTree.optional DataTree.text (reread (optionalText m.sourceName)) =
      .ok m.sourceName := by
    cases m.sourceName <;> rfl
  have haliases := DataTree.list_ofStrings m.aliases
  simp only [toJson, reread_object, List.map_cons, List.map_nil, reread_string, reread_ofStrings]
  unfold ofTree
  cases hnodata : nodataOfTree (V := Float32) (reread (nodataToJson m.nodata)) <;>
    simp [RecordFields.ofTree, DataTree.record?, RecordFields.required, RecordFields.orElse,
      RecordFields.optional, RecordFields.node?, DataTree.text_string, hdtype, hresampling, hsource,
      haliases, hnodata, bind, Except.bind, pure, Except.pure, Except.map]

theorem Measurement.ofTree_toJson_eq_self {m : Measurement Float32} :
    ofTree (reread m.toJson) = .ok m ↔ NodataSurvives m.nodata := by
  rw [ofTree_toJson, map_eq_ok, ← rereadNodata_eq_self]
  simp only [nodataOfTree_eq_ok]
  constructor
  · rintro ⟨z, hz, hm⟩
    rw [hz, ← congrArg nodata hm]
  · exact fun h => ⟨m.nodata, h, rfl⟩

theorem Measurement.exists_ofTree_toJson {m : Measurement Float32} :
    (∃ m' : Measurement Float32, ofTree (reread m.toJson) = .ok m') ↔
      m.nodata.isNaN = true ∨ m.nodata.isFinite = true := by
  rw [ofTree_toJson, ← exists_rereadNodata]
  simp only [map_eq_ok, nodataOfTree_eq_ok]
  exact ⟨fun ⟨_, z, hz, _⟩ => ⟨z, hz⟩, fun ⟨z, hz⟩ => ⟨_, z, hz, rfl⟩⟩

theorem Point.ofTree_toJson {p : Point Float} (h : p.isFinite = true) :
    ofTree (reread p.toJson) = .ok p := by
  obtain ⟨x, y⟩ := p
  obtain ⟨hx, hy⟩ : x.isFinite = true ∧ y.isFinite = true := Bool.and_eq_true_iff.mp h
  have hjson : toJson (⟨x, y⟩ : Point Float) = array [ofFloat x, ofFloat y] := rfl
  rw [hjson, reread_array, ofFloat, ofFloat, if_pos hx, if_pos hy]
  simp only [List.map_cons, List.map_nil, reread, mapScalars, rereadScalar, ofFloat, if_pos hx,
    if_pos hy]
  rfl

theorem Grid.ofTree_toJson {g : Grid Float} (h : g.flaw? = none) (hpadding : g.padding < 2 ^ 32) :
    ofTree (reread g.toJson) = .ok g := by
  obtain ⟨hresolution, htile, horigin⟩ := Grid.isFinite_of_flaw? h
  have hint : reread (int g.padding) = int g.padding := rfl
  have hpadding : g.padding < 4294967296 := hpadding
  simp only [toJson, reread_object, List.map_cons, List.map_nil, reread_string, hint]
  unfold ofTree
  simp [RecordFields.ofTree, DataTree.record?, RecordFields.required, RecordFields.orElse,
    RecordFields.node?, ok_bind, Crs.ofTree_name, Point.ofTree_toJson hresolution,
    Point.ofTree_toJson htile, Point.ofTree_toJson horigin, DataTree.natural_int hpadding]

theorem StorageLayout.ofTree_toJson {s : StorageLayout} (hsorted : s.chunking.Sorted)
    (hchunks : ∀ c ∈ s.chunking.entries, c.2 < 2 ^ 64) : ofTree (reread s.toJson) = .ok s := by
  have hint : reread (chunkingToJson s.chunking) = chunkingToJson s.chunking := by
    rw [chunkingToJson, reread_object, List.map_map]
    rfl
  have hchunking : chunkingOfTree (chunkingToJson s.chunking) = .ok s.chunking :=
    DataTree.map_entries hsorted (fun n => int n) _ fun c hc => DataTree.natural_int (hchunks c hc)
  simp only [toJson, reread_object, List.map_cons, List.map_nil, reread_ofStrings, hint]
  unfold ofTree
  simp [RecordFields.ofTree, DataTree.record?, RecordFields.orElse, RecordFields.node?, ok_bind,
    hchunking, DataTree.list_ofStrings]

/-! ## The product -/

namespace Product

variable {p : Product Float Float32}

/-- What holds of a product in memory by the types of its fields. -/
structure InMemory (p : Product Float Float32) : Prop where
  padding : ∀ g ∈ p.grid, g.padding < 2 ^ 32
  chunks : ∀ s ∈ p.storage, ∀ c ∈ s.chunking.entries, c.2 < 2 ^ 64
  sorted : ∀ s ∈ p.storage, s.chunking.Sorted

theorem readable_nodata (depth : Nat) (y : Float32) :
    Readable depth (Measurement.nodataToJson y) := by
  unfold Measurement.nodataToJson
  split_ifs
  · exact .string _
  · show Readable depth (ofFloat32 y)
    unfold ofFloat32
    split_ifs
    · exact .single y
    · exact .null

theorem readable_ofStrings (depth : Nat) (texts : List String) :
    Readable (depth + 1) (ofStrings texts) :=
  .array fun v hv => by
    obtain ⟨s, -, rfl⟩ := List.mem_map.mp hv
    exact .string s

theorem readable_measurement (depth : Nat) (m : Measurement Float32) :
    Readable (depth + 2) m.toJson := by
  refine .object ?_ (by simp)
  simp only [List.forall_mem_cons]
  refine ⟨.string _, .string _, readable_nodata _ _, .string _, .string _, ?_,
    readable_ofStrings _ _, nofun⟩
  cases m.sourceName with
  | none => exact .null
  | some s => exact .string s

theorem readable_point (depth : Nat) (p : Point Float) : Readable (depth + 1) p.toJson := by
  have hnumber : ∀ x, Readable depth (ofFloat x) := by
    intro x
    unfold ofFloat
    split_ifs
    · exact .double x
    · exact .null
  refine .array ?_
  simp only [List.forall_mem_cons]
  exact ⟨hnumber _, hnumber _, nofun⟩

theorem readable_natCast (depth : Nat) {n : Nat} (hn : n < 2 ^ 64) : Readable depth (int n) :=
  .int (by omega) (by exact_mod_cast hn)

theorem readable_grid (depth : Nat) {g : Grid Float} (hpadding : g.padding < 2 ^ 32) :
    Readable (depth + 2) g.toJson := by
  refine .object ?_ (by simp)
  simp only [List.forall_mem_cons]
  exact ⟨.string _, readable_point _ _, readable_point _ _, readable_point _ _,
    readable_natCast _ (hpadding.trans (by decide)), nofun⟩

theorem readable_storage (depth : Nat) {s : StorageLayout}
    (hchunks : ∀ c ∈ s.chunking.entries, c.2 < 2 ^ 64) (hsorted : s.chunking.Sorted) :
    Readable (depth + 2) s.toJson := by
  refine .object ?_ (by simp)
  simp only [List.forall_mem_cons]
  refine ⟨.object ?_ ?_, readable_ofStrings _ _, nofun⟩
  · intro c hc
    obtain ⟨e, he, rfl⟩ := List.mem_map.mp hc
    exact readable_natCast _ (hchunks e he)
  · rw [List.map_map]
    exact hsorted.nodup

/-- The text of a product can be read. -/
theorem readable_toJson (h : p.InMemory) : Readable 127 p.toJson := by
  refine .object ?_ (by simp)
  simp only [List.forall_mem_cons]
  refine ⟨.string _, .string _, .array ?_, .string _, ?_, ?_, nofun⟩
  · intro v hv
    obtain ⟨m, -, rfl⟩ := List.mem_map.mp hv
    exact readable_measurement _ m
  · cases hgrid : p.grid with
    | none => exact .null
    | some g => exact readable_grid _ (h.padding g hgrid)
  · cases hstorage : p.storage with
    | none => exact .null
    | some s => exact readable_storage _ (h.chunks s hstorage) (h.sorted s hstorage)

/-- A product with a sound grid is read back with the measurements that are read back. -/
theorem ofTree_toJson (h : p.InMemory) (hgrid : ∀ g ∈ p.grid, g.flaw? = none) :
    ofTree (K := Float) (V := Float32) (reread p.toJson) =
      (p.measurements.mapM fun m => Measurement.ofTree (reread m.toJson)).map
        fun measurements => { p with measurements } := by
  have hfusion : Fusion.ofTree (string p.fusion.name) = .ok p.fusion :=
    DataTree.oneOf_string p.fusion.ofName?_name
  have hgrid : DataTree.optional Grid.ofTree (reread ((p.grid.map Grid.toJson).getD .null)) =
      .ok p.grid := by
    cases hg : p.grid with
    | none => rfl
    | some g =>
      exact DataTree.optional_of_present rfl (Grid.ofTree_toJson (hgrid g hg) (h.padding g hg))
  have hstorage : DataTree.optional StorageLayout.ofTree
      (reread ((p.storage.map StorageLayout.toJson).getD .null)) = .ok p.storage := by
    cases hs : p.storage with
    | none => rfl
    | some s =>
      exact DataTree.optional_of_present rfl
        (StorageLayout.ofTree_toJson (h.sorted s hs) (h.chunks s hs))
  have hmeasurements : DataTree.list (Measurement.ofTree (V := Float32))
      (reread (array (p.measurements.map Measurement.toJson))) =
        p.measurements.mapM fun m => Measurement.ofTree (reread m.toJson) := by
    rw [reread_array, List.map_map]
    exact List.mapM_map
  simp only [toJson, reread_object, List.map_cons, List.map_nil, reread_string]
  unfold ofTree
  rw [← hmeasurements]
  cases hread : DataTree.list (Measurement.ofTree (V := Float32))
      (reread (array (p.measurements.map Measurement.toJson))) <;>
    simp [RecordFields.ofTree, DataTree.record?, RecordFields.required, RecordFields.orElse,
      RecordFields.optional, RecordFields.node?, DataTree.text_string, hfusion, hgrid, hstorage,
      hread, bind, Except.bind, pure, Except.pure, Except.map]

/-- A product comes back as it is when the text gives back all its nodata values. -/
theorem ofTree_toJson_eq_self (h : p.InMemory) (hgrid : ∀ g ∈ p.grid, g.flaw? = none) :
    ofTree (reread p.toJson) = .ok p ↔ ∀ m ∈ p.measurements, NodataSurvives m.nodata := by
  have hsame : ∀ measurements, { p with measurements } = p ↔ measurements = p.measurements := by
    intro measurements
    constructor
    · exact fun heq => congrArg Product.measurements heq
    · rintro rfl
      rfl
  rw [ofTree_toJson h hgrid, map_eq_ok]
  simp only [hsame, exists_eq_right, mapM_eq_self, Measurement.ofTree_toJson_eq_self]

theorem exists_ofTree_toJson (h : p.InMemory) (hgrid : ∀ g ∈ p.grid, g.flaw? = none) :
    (∃ q : Product Float Float32, ofTree (reread p.toJson) = .ok q) ↔
      ∀ m ∈ p.measurements, m.nodata.isNaN = true ∨ m.nodata.isFinite = true := by
  rw [ofTree_toJson h hgrid]
  simp only [map_eq_ok, ← Measurement.exists_ofTree_toJson, ← exists_mapM_ok]
  exact ⟨fun ⟨_, measurements, hms, _⟩ => ⟨measurements, hms⟩,
    fun ⟨measurements, hms⟩ => ⟨_, measurements, hms, rfl⟩⟩

/-- The text of an accepted product is JSON. It is read as a product exactly when no nodata value is
infinite, and as the same product exactly when every nodata value survives. The nodata values of the
integer types do, and so do whole numbers of at most 52 bits in any type. -/
theorem parse_toJson (h : p.InMemory) (hvalid : p.validate = .ok ()) :
    ∃ document, parse? p.toJson.compact = some document ∧
      ((∃ q : Product Float Float32, ofTree document = .ok q) ↔
        ∀ m ∈ p.measurements, m.nodata.isNaN = true ∨ m.nodata.isFinite = true) ∧
      (ofTree document = .ok p ↔ ∀ m ∈ p.measurements, NodataSurvives m.nodata) ∧
      ∀ m ∈ p.measurements, (m.dtype.isInteger = true ∨
        ∃ n : Int, |n| < 2 ^ 52 ∧ IsFloatOf .binary32 n (unpackSingle m.nodata)) →
          NodataSurvives m.nodata := by
  obtain ⟨hfits, hgrid⟩ := of_validate hvalid
  refine ⟨_, parse?_compact (readable_toJson h), exists_ofTree_toJson h hgrid,
    ofTree_toJson_eq_self h hgrid, ?_⟩
  rintro m hm (hinteger | ⟨n, hn, hfloat⟩)
  · obtain ⟨⟨lo, hi⟩, hrange⟩ := Option.isSome_iff_exists.mp hinteger
    exact nodataSurvives_of_canRepresent hrange (hfits m hm)
  · exact nodataSurvives_of_whole hn hfloat

/-! ## Products that come back and products that do not -/

section Example

/-- A product with every part. -/
def storedProduct : Product Float Float32 where
  name := "p"
  measurements :=
    [{ name := "red", dtype := .int16, nodata := -9999, sourceName := some "b4", aliases := ["r"] },
      { name := "sst", dtype := .float32, nodata := 0.0 / 0.0 }]
  fusion := .mean
  grid := some ⟨.utm 54 true, ⟨10.0, -10.0⟩, ⟨1000.0, 1000.0⟩, ⟨0.0, 0.0⟩, 2⟩
  storage := some ⟨⟨[("x", 256), ("y", 128)]⟩, ["time", "x", "y"]⟩

theorem inMemory_storedProduct : storedProduct.InMemory where
  padding := by
    rintro g ⟨⟩
    decide
  chunks := by
    rintro s ⟨⟩
    decide
  sorted := by
    rintro s ⟨⟩
    exact List.pairwise_pair.mpr (by decide)

theorem validate_storedProduct : storedProduct.validate = .ok () := by
  have hlayout : storedProduct.storage.forM StorageLayout.validate = .ok () := by
    refine forM_option_eq_ok.mpr ?_
    rintro s ⟨⟩
    rw [StorageLayout.validate, List.mergeSort_of_pairwise (by decide), if_neg (by decide)]
    decide
  unfold validate
  rw [if_neg (by decide), if_neg (by decide)]
  exact bind_eq_ok.mpr ⟨(), by decide +kernel, bind_eq_ok.mpr ⟨(), by decide +kernel, hlayout⟩⟩

/-- The product comes back from its text. -/
theorem parse_storedProduct : ∃ document, parse? storedProduct.toJson.compact = some document ∧
    ofTree document = .ok storedProduct := by
  obtain ⟨document, hdocument, -, hsame, hsurvives⟩ :=
    parse_toJson inMemory_storedProduct validate_storedProduct
  refine ⟨document, hdocument, hsame.mpr ?_⟩
  have hnan : NodataSurvives (0.0 / 0.0) := .inl (by decide +kernel)
  simp only [storedProduct, List.forall_mem_cons] at hsurvives ⊢
  exact ⟨hsurvives.1 (.inl rfl), hnan, nofun⟩

/-- A product with one measurement of singles. -/
def singleProduct (nodata : Float32) : Product Float Float32 where
  name := "p"
  measurements := [{ name := "red", dtype := .float32, nodata }]

theorem inMemory_singleProduct (nodata : Float32) : (singleProduct nodata).InMemory :=
  ⟨nofun, nofun, nofun⟩

theorem exists_ofTree_singleProduct (y : Float32) :
    (∃ q : Product Float Float32, ofTree (reread (singleProduct y).toJson) = .ok q) ↔
      y.isNaN = true ∨ y.isFinite = true :=
  (exists_ofTree_toJson (inMemory_singleProduct y) nofun).trans List.forall_mem_singleton

theorem ofTree_singleProduct_eq_self (y : Float32) :
    ofTree (reread (singleProduct y).toJson) = .ok (singleProduct y) ↔ NodataSurvives y :=
  (ofTree_toJson_eq_self (inMemory_singleProduct y) nofun).trans List.forall_mem_singleton

/-- A single that is rounded to its neighbour when its shortest decimal is read as a double. -/
theorem not_nodataSurvives : ¬NodataSurvives 7.038531e-26 := by
  have htwice : ((Decimal.ofFloat32? 7.038531e-26).map fun d => narrow d.toFloat) ≠
      some 7.038531e-26 := by
    decide +kernel
  rintro (h | ⟨d, hd, hsame⟩)
  · exact absurd h (by decide +kernel)
  · rw [hd, Option.map_some, hsame] at htwice
    exact htwice rfl

/-- Both products are accepted. The text of the first, whose nodata value is infinite, is not read as
a product; that of the second is read as another product. -/
theorem singleProduct_lost :
    ((singleProduct (1.0 / 0.0)).validate = .ok () ∧
      ∃ document, parse? (singleProduct (1.0 / 0.0)).toJson.compact = some document ∧
        ∀ q : Product Float Float32, ofTree document ≠ .ok q) ∧
    ((singleProduct 7.038531e-26).validate = .ok () ∧
      ∃ document, parse? (singleProduct 7.038531e-26).toJson.compact = some document ∧
        (∃ q : Product Float Float32, ofTree document = .ok q) ∧
        ofTree document ≠ .ok (singleProduct 7.038531e-26)) := by
  have hinfinite : ¬((1.0 / 0.0 : Float32).isNaN = true ∨ (1.0 / 0.0 : Float32).isFinite = true) := by
    decide +kernel
  have hfinite : (7.038531e-26 : Float32).isFinite = true := by decide +kernel
  refine ⟨⟨by decide +kernel, _, parse?_compact (readable_toJson (inMemory_singleProduct _)), ?_⟩,
    by decide +kernel, _, parse?_compact (readable_toJson (inMemory_singleProduct _)), ?_, ?_⟩
  · exact fun q hq => hinfinite ((exists_ofTree_singleProduct _).mp ⟨q, hq⟩)
  · exact (exists_ofTree_singleProduct _).mpr (.inr hfinite)
  · exact fun hq => not_nodataSurvives ((ofTree_singleProduct_eq_self _).mp hq)

end Example

end Product

end Mosaic
