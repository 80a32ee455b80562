import Mosaic.Proofs.CatalogHistory
import Mosaic.Proofs.Contributors
import Mosaic.Proofs.Footprint
import Mosaic.Proofs.Indexing

/-!
# Searching a catalog of indexed documents

A catalog tests the columns of a record, a search tests the dataset that the record describes, and
the columns were computed when the document was indexed, with a number of points on the edges that
has nothing to do with that of the search. In a catalog that only holds indexed objects in longitude
and latitude (`Catalog.Filled`) every record mirrors its dataset (`Catalog.Filled.mirrors`), and in
exact arithmetic the columns let through all that the search admits. The result of a search is then
told by the datasets alone (`Catalog.findDatasets_complete`).
-/

namespace Mosaic

/-! ## Records of indexed documents -/

section Geographic

variable {V : Type} [Reprojection Rat]

theorem DatasetRecord.readable?_eq_some {r : DatasetRecord Rat} {d : Dataset Rat} :
    r.readable? = some d ↔ r.dataset = .ok d := by
  unfold readable?
  cases r.dataset with
  | ok d' => exact ⟨fun h => by cases h; rfl, fun h => by cases h; rfl⟩
  | error stop => exact iff_of_false nofun nofun

/-- The dataset in longitude and latitude from which a record was made. -/
structure DatasetRecord.Mirrors (r : DatasetRecord Rat) (d : Dataset Rat) : Prop where
  dataset : r.dataset = .ok d
  id : d.id = r.id
  product : d.product = r.product
  time : r.time = some d.time
  box : d.geographicBox? boxPoints = .ok r.box
  geographic : d.crs.isGeographic = true

theorem DatasetRecord.mirrors_of_index {fresh : DatasetId} {product : String}
    {members : List (String × Json)} {r : DatasetRecord Rat}
    (h : index fresh product (.object members) = .ok r)
    (hcrs : ∀ d, r.dataset = .ok d → d.crs.isGeographic = true) : ∃ d, r.Mirrors d := by
  obtain ⟨⟨d, hd, hid⟩, -⟩ := index_object h
  obtain ⟨id, -, d', hd', hproduct, box, hbox, rfl⟩ := index_eq_ok.mp h
  cases hd.symm.trans hd'
  exact ⟨d, hd, hid, hproduct, rfl, hbox, hcrs d hd⟩

namespace Catalog

/-- A catalog that only documents in longitude and latitude have been put into, as objects. -/
inductive Filled : Catalog Rat V → Prop
  | empty : Filled {}
  | product {c c' : Catalog Rat V} {p : Product Rat V} (h : Filled c)
      (hadd : c.addProduct p = .ok c') : Filled c'
  | record {c c' : Catalog Rat V} {fresh : DatasetId} {product : String}
      {members : List (String × Json)} {r : DatasetRecord Rat} (h : Filled c)
      (hindex : DatasetRecord.index fresh product (.object members) = .ok r)
      (hcrs : ∀ d, r.dataset = .ok d → d.crs.isGeographic = true)
      (hadd : c.addRecord r = .ok c') : Filled c'
  | removal {c : Catalog Rat V} (h : Filled c) (id : DatasetId) : Filled (c.removeRecord id)

/-- The records of a catalog go by their identifiers and mirror their datasets. -/
structure IsMirror (c : Catalog Rat V) : Prop where
  online : c.isOnline = true
  sorted : c.records.Sorted
  entries : ∀ e ∈ c.records.entries, e.1 = e.2.id ∧ ∃ d, e.2.Mirrors d

theorem isMirror_empty : IsMirror ({} : Catalog Rat V) := ⟨rfl, SortedMap.sorted_empty, nofun⟩

theorem IsMirror.addProduct {c c' : Catalog Rat V} {p : Product Rat V} (h : c.IsMirror)
    (hadd : c.addProduct p = .ok c') : c'.IsMirror := by
  rw [Catalog.addProduct, whileOnline, if_pos h.online] at hadd
  cases hadd
  exact ⟨h.online, h.sorted, h.entries⟩

theorem IsMirror.addRecord {c c' : Catalog Rat V} {r : DatasetRecord Rat} (h : c.IsMirror)
    (hr : ∃ d, r.Mirrors d) (hadd : c.addRecord r = .ok c') : c'.IsMirror := by
  rw [Catalog.addRecord, whileOnline, if_pos h.online] at hadd
  cases hadd
  refine ⟨h.online, SortedMap.sorted_alter h.sorted _ _, fun e he => ?_⟩
  rcases SortedMap.mem_entries_alter he with he | ⟨hkey, old, hvalue⟩
  · exact h.entries e he
  · cases hvalue
    exact ⟨hkey, hr⟩

theorem IsMirror.removeRecord {c : Catalog Rat V} (h : c.IsMirror) (id : DatasetId) :
    (c.removeRecord id).IsMirror := by
  refine ⟨h.online, SortedMap.sorted_alter h.sorted _ _, fun e he => ?_⟩
  rcases SortedMap.mem_entries_alter he with he | ⟨-, old, hvalue⟩
  · exact h.entries e he
  · cases hvalue

theorem Filled.isMirror {c : Catalog Rat V} (h : Filled c) : c.IsMirror := by
  induction h with
  | empty => exact isMirror_empty
  | product _ hadd ih => exact ih.addProduct hadd
  | record _ hindex hcrs hadd ih =>
    exact ih.addRecord (DatasetRecord.mirrors_of_index hindex hcrs) hadd
  | removal _ id ih => exact ih.removeRecord id

/-- Documents in longitude and latitude that are indexed one after the other fill a catalog. -/
theorem Filled.records {product : String} {documents : List (DatasetId × List (String × Json))} :
    ∀ {c : Catalog Rat V} {records : List (DatasetRecord Rat)}, Filled c →
      documents.mapM (fun e => DatasetRecord.index e.1 product (.object e.2)) = .ok records →
      (∀ r ∈ records, ∀ d, r.dataset = .ok d → d.crs.isGeographic = true) →
      Filled { c with records := records.foldl (fun map r => map.insert r.id r) c.records } := by
  induction documents with
  | nil =>
    intro c records h hindex _
    cases hindex
    exact h
  | cons document rest ih =>
    intro c records h hindex hcrs
    obtain ⟨r, later, hr, hlater, rfl⟩ := mapM_cons_ok.mp hindex
    have hadd : c.addRecord r = .ok { c with records := c.records.insert r.id r } :=
      if_pos h.isMirror.online
    have hfilled := h.record hr (hcrs r List.mem_cons_self) hadd
    have hrest := ih hfilled hlater fun r' hr' => hcrs r' (List.mem_cons_of_mem r hr')
    exact hrest

theorem IsMirror.mirrors {c : Catalog Rat V} (h : c.IsMirror) {r : DatasetRecord Rat}
    (hr : r ∈ c.records.values) : ∃ d, r.Mirrors d := by
  obtain ⟨e, he, rfl⟩ := List.mem_map.mp hr
  exact (h.entries e he).2

/-- No two records of a catalog have one identifier. -/
theorem IsMirror.pairwise_id {c : Catalog Rat V} (h : c.IsMirror) :
    c.records.values.Pairwise fun a b => a.id ≠ b.id := by
  have hlt : c.records.values.Pairwise fun a b => compare a.id b.id = .lt := by
    refine h.sorted.pairwise_values fun id r hfind => ?_
    exact (h.entries _ ((SortedMap.mem_entries_iff h.sorted).mpr hfind)).1.symm
  exact hlt.imp fun hlt heq => by simp [heq] at hlt

/-! ## The two filters -/

section Filters

variable {count : Nat} {range : Option TimeRange} {extent : Option (Box Rat)} {crs : Crs}

theorem admits_iff {d : Dataset Rat} :
    admits count range extent crs d = true ↔ rangeMatches range d = true ∧
      ∃ g, d.footprintIn crs count = .ok g ∧ extentMatches extent g = true := by
  rw [admits, Bool.and_eq_true]
  cases d.footprintIn crs count with
  | error stop => simp
  | ok g => simp

/-- The box in the column of a record is that of every form of the footprint. -/
theorem box_of_mirrors {r : DatasetRecord Rat} {d : Dataset Rat} (h : r.Mirrors d)
    (hcrs : crs.isGeographic = true) {g : Polygon Rat} (hg : d.footprintIn crs count = .ok g)
    {column bounds : Box Rat} (hcolumn : r.box = some column) (hbounds : g.box? = some bounds) :
    column = bounds := by
  have hbox := h.box
  rw [hcolumn] at hbox
  obtain ⟨result, hresult, hbox⟩ := bind_eq_ok.mp hbox
  cases result with
  | error e => cases hbox
  | ok indexed =>
    have hindexed := Stop.attempt_eq_ok.mp hresult
    have hsame : indexed.box? = some column := Except.ok.inj hbox
    refine (Polygon.bounds_box? hsame).unique (Polygon.bounds_box? hbounds) fun outer => ?_
    rw [Dataset.holds_footprintIn h.geographic rfl hindexed,
      Dataset.holds_footprintIn h.geographic hcrs hg]

/-- The columns of a record let through what the search admits. -/
theorem finds_of_admits {r : DatasetRecord Rat} {d : Dataset Rat} (h : r.Mirrors d)
    (hcrs : crs.isGeographic = true) (hadmits : admits count range extent crs d = true)
    (product : String) :
    DatasetQuery.finds ⟨product, range, extent⟩ r = (r.product == product) := by
  obtain ⟨hrange, g, hg, hextent⟩ := admits_iff.mp hadmits
  have htime : DatasetQuery.timeMatches ⟨product, range, extent⟩ r = true := by
    cases range with
    | none => rfl
    | some range => simpa [DatasetQuery.timeMatches, h.time, rangeMatches] using hrange
  have hbox : DatasetQuery.boxMatches ⟨product, range, extent⟩ r = true := by
    cases extent with
    | none => rfl
    | some wanted =>
      cases hcolumn : r.box with
      | none => simp [DatasetQuery.boxMatches, hcolumn]
      | some column =>
        obtain ⟨bounds, hbounds, hmeets⟩ := Polygon.box?_of_overlaps hextent
        rw [← box_of_mirrors h hcrs hg hcolumn hbounds] at hmeets
        simp [DatasetQuery.boxMatches, hcolumn, LoadRequest.not_apart_of_intersects hmeets]
  rw [DatasetQuery.finds, htime, hbox, Bool.and_true, Bool.and_true]

/-- Every footprint has a box. -/
theorem exists_box?_of_mirrors {r : DatasetRecord Rat} {d : Dataset Rat} (h : r.Mirrors d)
    (hcrs : crs.isGeographic = true) {g : Polygon Rat} (hg : d.footprintIn crs count = .ok g) :
    ∃ b, g.box? = some b := by
  rw [Dataset.footprintIn_geographic h.geographic hcrs] at hg
  split at hg
  · cases hg
    obtain ⟨fields, -, hfields⟩ := Dataset.ofDocument_ok h.dataset
    obtain ⟨-, -, -, ⟨ring, hring⟩, -⟩ := Dataset.ofFields_ok hfields
    unfold DatasetDocument.footprintOf at hring
    split at hring
    · next g hg =>
      cases hring
      exact Polygon.exists_box?_of_ofFinite? hg
    · cases hring
  · split at hg
    · next g' hg' =>
      cases hg
      exact Polygon.exists_box?_of_ofFinite? hg'
    · cases hg

/-- A record that mirrors its dataset is no malformed one, and is accepted with a footprint if at
all. -/
theorem candidate_of_mirrors {r : DatasetRecord Rat} {d : Dataset Rat} (h : r.Mirrors d)
    (hcrs : crs.isGeographic = true) :
    ∃ c, candidate count range extent crs r = .ok c ∧
      (c = .rejected ∨ ∃ g, c = .accepted d g ∧ d.footprintIn crs count = .ok g) := by
  have hgeographic := Dataset.footprintIn_geographic h.geographic hcrs count
  unfold candidate
  rw [h.dataset, Stop.attempt_ok, ok_bind]
  dsimp only
  split
  · exact ⟨_, rfl, .inl rfl⟩
  · cases hg : d.footprintIn crs count with
    | ok g =>
      rw [Stop.attempt_ok, ok_bind]
      refine ⟨_, rfl, ?_⟩
      split
      · exact .inr ⟨g, rfl, rfl⟩
      · exact .inl rfl
    | error stop =>
      cases stop with
      | failed e => exact ⟨_, rfl, .inl rfl⟩
      | aborted cause =>
        -- nothing is carried over between the two systems of longitude and latitude
        rw [hg] at hgeographic
        split at hgeographic
        · cases hgeographic
        · split at hgeographic <;> cases hgeographic

end Filters

/-! ## The result of a search -/

/-- The corners of the footprint of a dataset in a reference system; none where it does not exist. -/
def cornersIn (crs : Crs) (count : Nat) (d : Dataset Rat) : List (Point Rat) :=
  match d.footprintIn crs count with
  | .ok g => g.ring
  | .error _ => []

section Search

variable {count : Nat} {range : Option TimeRange} {extent : Option (Box Rat)} {crs : Crs}
  {records : List (DatasetRecord Rat)} {candidates : List (Candidate Rat)}

theorem exists_candidates (h : ∀ r ∈ records, ∃ d, r.Mirrors d)
    (hcrs : crs.isGeographic = true) :
    ∃ candidates, records.mapM (candidate count range extent crs) = .ok candidates := by
  refine exists_mapM_ok.mpr fun r hr => ?_
  obtain ⟨d, hd⟩ := h r hr
  obtain ⟨c, hc, -⟩ := candidate_of_mirrors hd hcrs
  exact ⟨c, hc⟩

/-- Records that mirror their datasets give no warnings, and every accepted footprint has a box. -/
theorem candidates_of_mirrors (h : ∀ r ∈ records, ∃ d, r.Mirrors d)
    (hcrs : crs.isGeographic = true)
    (hcandidates : records.mapM (candidate count range extent crs) = .ok candidates) :
    candidateWarnings candidates = [] ∧
      List.Forall₂ (fun d b => Box.Bounds b (cornersIn crs count d)) (candidateDatasets candidates)
        (candidateBoxes candidates) := by
  induction records generalizing candidates with
  | nil =>
    cases hcandidates
    exact ⟨rfl, .nil⟩
  | cons r rest ih =>
    obtain ⟨c, cs, hc, hcs, rfl⟩ := mapM_cons_ok.mp hcandidates
    obtain ⟨hwarnings, hboxes⟩ := ih (fun r' hr' => h r' (List.mem_cons_of_mem r hr')) hcs
    obtain ⟨d, hd⟩ := h r List.mem_cons_self
    obtain ⟨c', hc', hkind⟩ : ∃ c', candidate count range extent crs r = .ok c' ∧ _ :=
      candidate_of_mirrors hd hcrs
    cases hc.symm.trans hc'
    rcases hkind with rfl | ⟨g, rfl, hg⟩
    · exact ⟨hwarnings, hboxes⟩
    · obtain ⟨b, hb⟩ := exists_box?_of_mirrors hd hcrs hg
      have hcorners : cornersIn crs count d = g.ring := by rw [cornersIn, hg]
      have hwhole : candidateBoxes (.accepted d g :: cs) = b :: candidateBoxes cs :=
        List.filterMap_cons_some hb
      rw [hwhole]
      exact ⟨hwarnings, .cons (hcorners ▸ Polygon.bounds_box? hb) hboxes⟩

/-- The extent of a search without one is the smallest box round the footprints. -/
theorem unionOf?_of_bounds {datasets : List (Dataset Rat)} {boxes : List (Box Rat)}
    (h : List.Forall₂ (fun d b => Box.Bounds b (cornersIn crs count d)) datasets boxes) :
    (unionOf? boxes = none ↔ datasets = []) ∧
      ∀ b, unionOf? boxes = some b → b.Bounds (datasets.flatMap (cornersIn crs count)) := by
  cases h with
  | nil => exact ⟨iff_of_true rfl rfl, nofun⟩
  | cons hhead hrest =>
    refine ⟨iff_of_false nofun (List.cons_ne_nil _ _), fun b hb => ?_⟩
    cases hb
    exact Box.Bounds.foldl_union hrest hhead

/-- An extent in longitude and latitude is looked for as it is. -/
theorem searchBox_geographic (hcrs : crs.isGeographic = true) (extent : Option (Box Rat))
    (count : Nat) : searchBox extent crs count = .ok extent := by
  cases extent with
  | none => rfl
  | some box =>
    rw [searchBox, Transformer.applyBox, if_pos (Transformer.isIdentity_of_geographic hcrs rfl)]
    rfl

/-- What the catalog finds comes in the order of the datasets that it describes. -/
theorem IsMirror.pairwise_found {c : Catalog Rat V} (h : c.IsMirror) (q : DatasetQuery Rat) :
    ((c.found q).filterMap DatasetRecord.readable?).Pairwise fun a b =>
      (compare a.time.first b.time.first).then (compare a.id b.id) = .lt := by
  have hsorted := Catalog.pairwise_found h.pairwise_id q
  have hmirrors : ∀ r ∈ c.found q, ∃ d, r.Mirrors d := fun r hr => h.mirrors (mem_found.mp hr).1
  refine List.pairwise_filterMap.mpr (hsorted.imp_of_mem fun {a b} ha hb hlt d hd e he => ?_)
  obtain ⟨d', hd'⟩ := hmirrors a ha
  obtain ⟨e', he'⟩ := hmirrors b hb
  cases (DatasetRecord.readable?_eq_some.mp hd).symm.trans hd'.dataset
  cases (DatasetRecord.readable?_eq_some.mp he).symm.trans he'.dataset
  rw [DatasetRecord.cmp, hd'.time, he'.time] at hlt
  rw [hd'.id, he'.id]
  exact hlt

/-- The datasets that the later tests keep are those of all records that pass the tests, found or
not. -/
theorem IsMirror.mem_candidateDatasets {c : Catalog Rat V} (h : c.IsMirror)
    (hcrs : crs.isGeographic = true) {product : String}
    (hcandidates : (c.found ⟨product, range, extent⟩).mapM (candidate count range extent crs) =
      .ok candidates) {d : Dataset Rat} :
    d ∈ candidateDatasets candidates ↔ ∃ r ∈ c.records.values, r.product = product ∧
      r.dataset = .ok d ∧ rangeMatches range d = true ∧
        ∃ g, d.footprintIn crs count = .ok g ∧ extentMatches extent g = true := by
  rw [candidateDatasets_mapM hcandidates, List.mem_filter, List.mem_filterMap, admits_iff]
  constructor
  · rintro ⟨⟨r, hr, hd⟩, hadmits⟩
    obtain ⟨hvalue, hfinds⟩ := mem_found.mp hr
    have hd := DatasetRecord.readable?_eq_some.mp hd
    obtain ⟨d', hd'⟩ := h.mirrors hvalue
    cases hd.symm.trans hd'.dataset
    rw [finds_of_admits hd' hcrs (admits_iff.mpr hadmits)] at hfinds
    exact ⟨r, hvalue, beq_iff_eq.mp hfinds, hd, hadmits⟩
  · rintro ⟨r, hvalue, hproduct, hd, hadmits⟩
    obtain ⟨d', hd'⟩ := h.mirrors hvalue
    cases hd.symm.trans hd'.dataset
    have hfinds : DatasetQuery.finds ⟨product, range, extent⟩ r = true := by
      rw [finds_of_admits hd' hcrs (admits_iff.mpr hadmits), hproduct, beq_self_eq_true]
    exact ⟨⟨r, mem_found.mpr ⟨hvalue, hfinds⟩, DatasetRecord.readable?_eq_some.mpr hd⟩, hadmits⟩

/-- A search of a catalog of indexed documents in longitude and latitude, in exact arithmetic. Every
record still describes its dataset. The result lists those of the product whose time overlaps the
range and whose footprint exists and shares interior with the extent, in the order of their times
and identifiers. The only warning is that there are none, and without an extent that of the result
is the smallest box round the footprints. -/
theorem findDatasets_complete {c : Catalog Rat V} (hc : Filled c) (hcrs : crs.isGeographic = true)
    (count : Nat) (product : String) (range : Option TimeRange) (extent : Option (Box Rat)) :
    (∀ r ∈ c.records.values, ∃ d, r.Mirrors d) ∧
    ∃ result, c.findDatasets count product range extent crs = .ok result ∧
      (∀ d, d ∈ result.datasets ↔ ∃ r ∈ c.records.values, r.product = product ∧
        r.dataset = .ok d ∧ rangeMatches range d = true ∧
          ∃ g, d.footprintIn crs count = .ok g ∧ extentMatches extent g = true) ∧
      (result.datasets.Pairwise fun a b =>
        (compare a.time.first b.time.first).then (compare a.id b.id) = .lt) ∧
      result.warnings = (if result.datasets = [] then
        [.emptyResult s!"no datasets of '{product}' match the query"] else []) ∧
      (∀ asked, extent = some asked → result.extent = some asked) ∧
      (extent = none → (result.extent = none ↔ result.datasets = []) ∧
        ∀ b, result.extent = some b →
          b.Bounds (result.datasets.flatMap (cornersIn crs count))) := by
  have hmirror := hc.isMirror
  refine ⟨fun r hr => hmirror.mirrors hr, ?_⟩
  let q : DatasetQuery Rat := ⟨product, range, extent⟩
  have hmirrors : ∀ r ∈ c.found q, ∃ d, r.Mirrors d := fun r hr =>
    hmirror.mirrors (mem_found.mp hr).1
  obtain ⟨candidates, hcandidates⟩ := exists_candidates hmirrors hcrs
  obtain ⟨hwarnings, hboxes⟩ := candidates_of_mirrors hmirrors hcrs hcandidates
  obtain ⟨hempty, hbounds⟩ := unionOf?_of_bounds hboxes
  have hdatasets := candidateDatasets_mapM hcandidates
  refine ⟨collect product extent candidates, ?_, fun d => ?_, ?_, ?_, ?_, ?_⟩
  · refine bind_eq_ok.mpr ⟨extent, searchBox_geographic hcrs extent count, ?_⟩
    have hsearch : c.search q = .ok (c.found q) := if_pos hmirror.online
    refine bind_eq_ok.mpr ⟨c.found q, by rw [hsearch]; rfl, ?_⟩
    exact bind_eq_ok.mpr ⟨candidates, Stop.liftAbort_eq_ok.mpr hcandidates, rfl⟩
  · exact hmirror.mem_candidateDatasets hcrs hcandidates
  · show (candidateDatasets candidates).Pairwise _
    rw [hdatasets]
    exact (hmirror.pairwise_found q).filter _
  · show candidateWarnings candidates ++ _ = _
    rw [hwarnings, List.nil_append]
    exact if_congr List.isEmpty_iff rfl rfl
  · rintro asked rfl
    rfl
  · rintro rfl
    exact ⟨hempty, hbounds⟩

end Search

end Catalog

end Geographic

section Example

attribute [local instance] Exact.unmoved

/-- The documents of four scenes: three of the first days of 2020, one of them to the east of the
others, and one of February. -/
def seriesDocuments : List (DatasetId × List (String × Json)) :=
  [(⟨1⟩, LoadRequest.sceneMembers "2020-01-03T00:00:00Z" 0),
    (⟨2⟩, LoadRequest.sceneMembers "2020-01-02T00:00:00Z" 8),
    (⟨3⟩, LoadRequest.sceneMembers "2020-01-01T00:00:00Z" 4),
    (⟨4⟩, LoadRequest.sceneMembers "2020-02-01T00:00:00Z" 0)]

/-- January 2020. -/
def january : TimeRange := ⟨⟨1577836800, 0⟩, ⟨1580515199, 999999999⟩⟩

/-- The datasets of a list of records that a search of the first degrees in January admits. -/
def admittedInJanuary (records : List (DatasetRecord Rat)) : List (Dataset Rat) :=
  (records.filterMap DatasetRecord.readable?).filter
    (Catalog.admits 3 (some january) (some ⟨1, 1, 6, 2⟩) .gda94)

/-- Of four indexed scenes the two of January in the extent are found in the other system of
longitude and latitude, the earlier one first. -/
theorem Catalog.findDatasets_of_indexed_scenes : ∃ (c : Catalog Rat Float32)
    (result : SearchResult Rat), Filled c ∧ c.records.keys = [⟨1⟩, ⟨2⟩, ⟨3⟩, ⟨4⟩] ∧
      c.findDatasets 3 "scenes" (some january) (some ⟨1, 1, 6, 2⟩) .gda94 = .ok result ∧
      result.datasets.map Dataset.id = [⟨3⟩, ⟨1⟩] ∧ result.warnings = [] ∧
      result.extent = some ⟨1, 1, 6, 2⟩ := by
  let filled : List (DatasetRecord Rat) → SortedMap DatasetId (DatasetRecord Rat) :=
    List.foldl (fun map r => map.insert r.id r) ∅
  obtain ⟨records, hindex, htest⟩ := exists_ok_of_test
    (seriesDocuments.mapM fun e => DatasetRecord.index (K := Rat) e.1 "scenes" (.object e.2))
    (fun records => decide (
      (∀ r ∈ records, r.readable?.all (fun d : Dataset Rat => d.crs.isGeographic) = true) ∧
      (filled records).keys = [⟨1⟩, ⟨2⟩, ⟨3⟩, ⟨4⟩] ∧
      (∀ r ∈ (filled records).values, r.product = "scenes") ∧
      (admittedInJanuary (filled records).values).reverse.map Dataset.id = [⟨3⟩, ⟨1⟩] ∧
      (admittedInJanuary (filled records).values).reverse.Pairwise fun a b =>
        (compare a.time.first b.time.first).then (compare a.id b.id) = .lt)) (by decide +kernel)
  obtain ⟨hcrs, hkeys, hproduct, hids, hordered⟩ := of_decide_eq_true htest
  let c : Catalog Rat Float32 := { records := filled records }
  have hc : Filled c := Filled.empty.records hindex fun r hr d hd => by
    have hread := hcrs r hr
    rw [DatasetRecord.readable?_eq_some.mpr hd] at hread
    exact hread
  obtain ⟨-, result, hresult, hmem, hsorted, hwarnings, hextent, -⟩ :=
    findDatasets_complete hc (show Crs.gda94.isGeographic = true from rfl) 3 "scenes"
      (some january) (some ⟨1, 1, 6, 2⟩)
  have horder : Std.TransCmp fun a b : Dataset Rat =>
      (compare a.time.first b.time.first).then (compare a.id b.id) :=
    inferInstanceAs (Std.TransCmp (compareLex (compareOn fun d : Dataset Rat => d.time.first)
      (compareOn Dataset.id)))
  have hdatasets : result.datasets = (admittedInJanuary (filled records).values).reverse := by
    refine eq_of_mem_iff_of_pairwise_lt hsorted hordered fun d => ?_
    rw [hmem, List.mem_reverse, admittedInJanuary, List.mem_filter, List.mem_filterMap, admits_iff]
    constructor
    · rintro ⟨r, hr, -, hd, hadmits⟩
      exact ⟨⟨r, hr, DatasetRecord.readable?_eq_some.mpr hd⟩, hadmits⟩
    · rintro ⟨⟨r, hr, hd⟩, hadmits⟩
      exact ⟨r, hr, hproduct r hr, DatasetRecord.readable?_eq_some.mp hd, hadmits⟩
  have hids : result.datasets.map Dataset.id = [⟨3⟩, ⟨1⟩] := hdatasets ▸ hids
  have hsome : result.datasets ≠ [] := fun hnone => by rw [hnone] at hids; cases hids
  exact ⟨c, result, hc, hkeys, hresult, hids, hwarnings.trans (if_neg hsome), hextent _ rfl⟩

end Example

end Mosaic
