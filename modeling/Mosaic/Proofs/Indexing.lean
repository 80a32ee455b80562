import Mosaic.Catalog.Record
import Mosaic.Proofs.Identifier
import Mosaic.Proofs.Outcome

/-!
# Indexing a document

The record of a document keeps the document with its identifier written into it, and reading the
record reads that document. For an object both readings find the same identifier, so the record
agrees with its dataset and is the same when its document is indexed again. A document may also be
the list of its fields. There the identifier is not looked for and not written back: the record goes
by the fresh identifier and its dataset by the one in the list (`index_agrees`).
-/

namespace Mosaic

namespace Dataset

variable {K : Type} [Coordinate K] [Reprojection K]

/-- The parts that the dataset of a document is made of. -/
theorem ofFields_ok {id : DatasetId} {product : String} {doc : DatasetDocument} {d : Dataset K}
    (h : ofFields id product doc = .ok d) :
    d.id = doc.id.getD id ∧ d.product = doc.product.getD product ∧ doc.span = .ok d.time ∧
      (∃ ring, DatasetDocument.footprintOf ring = .ok d.footprint) ∧
      longitudeOf d.footprint d.crs = .ok d.centroidLongitude := by
  unfold ofFields at h
  obtain ⟨time, htime, h⟩ := bind_eq_ok.mp h
  obtain ⟨crs, -, h⟩ := bind_eq_ok.mp h
  obtain ⟨transform, -, h⟩ := bind_eq_ok.mp h
  obtain ⟨shape, -, h⟩ := bind_eq_ok.mp h
  split at h
  · cases h
  · obtain ⟨footprint, hfootprint, h⟩ := bind_eq_ok.mp (show _ >>= _ = _ from h)
    obtain ⟨longitude, hlongitude, h⟩ := bind_eq_ok.mp h
    cases h
    exact ⟨rfl, rfl, Stop.liftError_eq_ok.mp htime, ⟨_, Stop.liftError_eq_ok.mp hfootprint⟩,
      hlongitude⟩

theorem ofDocument_ok {id : DatasetId} {product : String} {doc : Json} {d : Dataset K}
    (h : ofDocument id product doc = .ok d) :
    ∃ fields, DatasetDocument.ofTree doc = .ok fields ∧ ofFields id product fields = .ok d := by
  unfold ofDocument at h
  split at h
  · next fields hfields => exact ⟨fields, hfields, h⟩
  · cases h

/-- The identifier that a document is read under counts only where it names none. -/
theorem ofFields_fresh (id other : DatasetId) (product : String) (doc : DatasetDocument) :
    ofFields (K := K) other product doc =
      (ofFields id product doc).map fun d => { d with id := doc.id.getD other } := by
  unfold ofFields
  cases Stop.liftError doc.span with
  | error stop => rfl
  | ok time =>
    cases Stop.liftError doc.referenceSystem with
    | error stop => rfl
    | ok crs =>
      cases Stop.liftError (doc.affine (K := K)) with
      | error stop => rfl
      | ok transform =>
        cases Stop.liftError doc.pixelShape with
        | error stop => rfl
        | ok shape =>
          simp only [ok_bind]
          split
          · rfl
          · cases Stop.liftError (DatasetDocument.footprintOf (doc.outline transform shape)) with
            | error stop => rfl
            | ok footprint =>
              simp only [ok_bind]
              cases longitudeOf footprint crs <;> rfl

/-- The box of a dataset in longitude and latitude does not depend on its identifier, which only the
text of an error names. -/
theorem geographicBox?_withId (d : Dataset K) (id : DatasetId) (count : Nat) :
    ({ d with id := id } : Dataset K).geographicBox? count = d.geographicBox? count := by
  unfold geographicBox? footprintIn
  dsimp only
  split
  · rfl
  · generalize (Stop.liftAbort _ : Except (Stop LoadError) (List (Point K))) = carried
    cases carried with
    | error stop => cases stop <;> simp only [bind, Except.bind, Stop.attempt]
    | ok ring =>
      simp only [ok_bind]
      cases Polygon.ofFinite? ring <;> simp only [throw, throwThe, MonadExceptOf.throw, pure,
        Except.pure, Stop.attempt, ok_bind]

end Dataset

/-! ## The identifier in a document -/

theorem Json.setMember_setMember (key : String) (value other : Json)
    (members : List (String × Json)) :
    setMember key value (setMember key other members) = setMember key value members := by
  induction members with
  | nil => simp [setMember]
  | cons m rest ih =>
    obtain ⟨k, v⟩ := m
    by_cases h : k = key <;> simp [setMember, h, ih]

/-- A member that has been set is the one that its key names, unless the key is there twice. -/
theorem RecordFields.node?_setMember {key : String} {value : Json}
    {members : List (String × Json)} {index : Nat} {node : Option Json}
    (h : node? (.named (Json.setMember key value members)) index [key] = .ok node) :
    node = some value := by
  have hfilter : ∃ rest, (Json.setMember key value members).filter
      (fun m => [key].contains m.1) = (key, value) :: rest := by
    clear h
    induction members with
    | nil => exact ⟨[], by simp [Json.setMember]⟩
    | cons m rest ih =>
      obtain ⟨k, v⟩ := m
      by_cases h : k = key
      · exact ⟨_, by simp [Json.setMember, h]; rfl⟩
      · obtain ⟨others, hothers⟩ := ih
        exact ⟨others, by simpa [Json.setMember, h] using hothers⟩
  obtain ⟨rest, hrest⟩ := hfilter
  simp only [node?, hrest] at h
  cases rest with
  | nil =>
    cases h
    rfl
  | cons m rest => cases h

/-- An identifier is read from the string that it is written as. -/
theorem DatasetId.ofTree_text (id : DatasetId) : ofTree (Json.string id.text) = .ok id := by
  simp only [ofTree, DataTree.named, DataTree.find, DataTree.text?, Json.string?, parse?_text]

namespace DatasetRecord

theorem idOf?_withId (id : DatasetId) (members : List (String × Json)) :
    idOf? (withId id (.object members)) = some id := by
  simp [idOf?, withId, Json.get?, Json.member?_setMember_self, Json.string?]

theorem withId_withId (id : DatasetId) (doc : Json) : withId id (withId id doc) = withId id doc := by
  cases doc with
  | object members => exact congrArg Json.object (Json.setMember_setMember _ _ _ _)
  | _ => rfl

/-- The identifier that has been written into an object is the one that the object is read with. -/
theorem id_of_ofTree_withId {id : DatasetId} {members : List (String × Json)}
    {fields : DatasetDocument}
    (h : DatasetDocument.ofTree (withId id (.object members)) = .ok fields) :
    fields.id = some id := by
  unfold DatasetDocument.ofTree at h
  obtain ⟨all, hall, h⟩ := bind_eq_ok.mp h
  have hnamed : all = .named (Json.setMember "id" (.string id.text) members) := by
    cases hall
    rfl
  obtain ⟨found, hfound, h⟩ := bind_eq_ok.mp h
  have hid : found = some id := by
    subst hnamed
    obtain ⟨node, hnode, hread⟩ := bind_eq_ok.mp hfound
    cases RecordFields.node?_setMember hnode
    have hsome : DataTree.optional DatasetId.ofTree (Json.string id.text) = .ok (some id) := by
      simp only [DataTree.optional, DataTree.isAbsent, DatasetId.ofTree_text]
      rfl
    exact (Except.ok.inj (hsome.symm.trans hread)).symm
  obtain ⟨product, -, h⟩ := bind_eq_ok.mp h
  obtain ⟨time, -, h⟩ := bind_eq_ok.mp h
  obtain ⟨crs, -, h⟩ := bind_eq_ok.mp h
  obtain ⟨footprint, -, h⟩ := bind_eq_ok.mp h
  obtain ⟨geotransform, -, h⟩ := bind_eq_ok.mp h
  obtain ⟨shape, -, h⟩ := bind_eq_ok.mp h
  obtain ⟨measurements, -, h⟩ := bind_eq_ok.mp h
  cases h
  exact hid

variable {K : Type} [Coordinate K] [Reprojection K]

/-- What a record of a document is made of. -/
theorem index_eq_ok {fresh : DatasetId} {product : String} {doc : Json} {r : DatasetRecord K} :
    index fresh product doc = .ok r ↔
      ∃ id, id = (idOf? doc).getD fresh ∧ ∃ d : Dataset K,
        Dataset.ofDocument id product (withId id doc) = .ok d ∧ d.product = product ∧
          ∃ box, d.geographicBox? boxPoints = .ok box ∧
            r = { id, product, time := some d.time, box, metadata := withId id doc } := by
  unfold index
  constructor
  · intro h
    obtain ⟨d, hd, h⟩ := bind_eq_ok.mp h
    split at h
    · cases h
    · next hproduct =>
      obtain ⟨box, hbox, h⟩ := bind_eq_ok.mp (show _ >>= _ = _ from h)
      cases h
      exact ⟨_, rfl, d, hd, not_not.mp hproduct, box, Stop.liftAbort_eq_ok.mp hbox, rfl⟩
  · rintro ⟨id, rfl, d, hd, hproduct, box, hbox, rfl⟩
    refine bind_eq_ok.mpr ⟨d, hd, ?_⟩
    rw [if_neg (not_not.mpr hproduct)]
    exact bind_eq_ok.mpr ⟨box, Stop.liftAbort_eq_ok.mpr hbox, rfl⟩

/-- Indexing an object again changes nothing, and its dataset goes by the identifier of the record. -/
theorem index_object {fresh : DatasetId} {product : String} {members : List (String × Json)}
    {r : DatasetRecord K} (h : index fresh product (.object members) = .ok r) :
    (∃ d, r.dataset = .ok d ∧ d.id = r.id) ∧
      ∀ other, index other product r.metadata = .ok r := by
  obtain ⟨id, -, d, hd, hproduct, box, hbox, rfl⟩ := index_eq_ok.mp h
  obtain ⟨fields, hfields, hof⟩ := Dataset.ofDocument_ok hd
  obtain ⟨hid, -⟩ := Dataset.ofFields_ok hof
  refine ⟨⟨d, hd, by rw [hid, id_of_ofTree_withId hfields]; rfl⟩, fun other => ?_⟩
  refine index_eq_ok.mpr ⟨id, ?_, d, ?_, hproduct, box, hbox, ?_⟩
  · rw [idOf?_withId, Option.getD_some]
  · rw [withId_withId, hd]
  · rw [withId_withId]

/-- A document that is no object is kept as it is, and its record goes by the fresh identifier. -/
theorem index_list {fresh : DatasetId} {product : String} {doc : Json} {r : DatasetRecord K}
    (hlist : ¬∃ members, doc = .object members) (h : index fresh product doc = .ok r) :
    r.id = fresh ∧ (∃ d fields, r.dataset = .ok d ∧ DatasetDocument.ofTree doc = .ok fields ∧
      d.id = fields.id.getD fresh) ∧
      ∀ other, index other product r.metadata = .ok { r with id := other } := by
  have hwith : ∀ id, withId id doc = doc := by
    intro id
    cases doc with
    | object members => exact absurd ⟨members, rfl⟩ hlist
    | _ => rfl
  have hnone : idOf? doc = none := by
    cases doc with
    | object members => exact absurd ⟨members, rfl⟩ hlist
    | _ => rfl
  obtain ⟨id, hid, d, hd, hproduct, box, hbox, rfl⟩ := index_eq_ok.mp h
  rw [hnone, Option.getD_none] at hid
  subst hid
  rw [hwith] at hd ⊢
  obtain ⟨fields, hfields, hof⟩ := Dataset.ofDocument_ok hd
  refine ⟨rfl, ⟨d, fields, hd, hfields, (Dataset.ofFields_ok hof).1⟩, fun other => ?_⟩
  refine index_eq_ok.mpr ⟨other, by rw [hnone, Option.getD_none],
    { d with id := fields.id.getD other }, ?_, hproduct, box, ?_, by rw [hwith]⟩
  · rw [hwith]
    unfold Dataset.ofDocument
    rw [hfields]
    show Dataset.ofFields other product fields = _
    rw [Dataset.ofFields_fresh id other, hof]
    rfl
  · rw [Dataset.geographicBox?_withId, hbox]

/-- A record that has been indexed describes a dataset of its product and of its time. The record
comes out the same when its document is indexed again, under whatever fresh identifier, exactly for
objects; and for a list of fields its identifier is that of the dataset only if the list names no
other one than the fresh one. -/
theorem index_agrees {fresh : DatasetId} {product : String} {doc : Json} {r : DatasetRecord K}
    (h : index fresh product doc = .ok r) :
    ∃ d, r.dataset = .ok d ∧ d.product = product ∧ r.product = product ∧ r.time = some d.time ∧
      (d.id = r.id ↔ (∃ members, doc = .object members) ∨
        ∃ fields, DatasetDocument.ofTree doc = .ok fields ∧ fields.id.getD fresh = fresh) ∧
      ((∀ other, index other product r.metadata = .ok r) ↔ ∃ members, doc = .object members) := by
  obtain ⟨d, hd, hproduct, hname, htime⟩ : ∃ d, r.dataset = .ok d ∧ d.product = product ∧
      r.product = product ∧ r.time = some d.time := by
    obtain ⟨id, -, d, hd, hproduct, box, -, rfl⟩ := index_eq_ok.mp h
    exact ⟨d, hd, hproduct, rfl, rfl⟩
  refine ⟨d, hd, hproduct, hname, htime, ?_⟩
  by_cases hobject : ∃ members, doc = .object members
  · obtain ⟨members, rfl⟩ := hobject
    obtain ⟨⟨d', hd', hid⟩, hagain⟩ := index_object h
    cases hd.symm.trans hd'
    exact ⟨iff_of_true hid (.inl ⟨members, rfl⟩), iff_of_true hagain ⟨members, rfl⟩⟩
  · obtain ⟨hfresh, ⟨d', fields, hd', hfields, hid⟩, hagain⟩ := index_list hobject h
    cases hd.symm.trans hd'
    constructor
    · rw [hid, hfresh]
      constructor
      · exact fun heq => .inr ⟨fields, hfields, heq⟩
      · rintro (hmembers | ⟨_, hsame, heq⟩)
        · exact absurd hmembers hobject
        · cases hfields.symm.trans hsame
          exact heq
    · refine iff_of_false (fun hall => ?_) hobject
      -- an identifier that is not that of the record
      have hsame := (hagain ⟨r.id.bits + 1⟩).symm.trans (hall ⟨r.id.bits + 1⟩)
      have hbits : r.id.bits + 1 = r.id.bits :=
        congrArg (fun r : DatasetRecord K => r.id.bits) (Except.ok.inj hsame)
      bv_omega

/-! ## A document in both forms -/

section Example

/-- The fields of a dataset document without its identifier, in the order in which a list has
them. -/
def fieldNodes : List (String × Json) :=
  [("product", .null), ("time", .string "2016-01-01T00:00:00Z"), ("crs", .string "EPSG:4326"),
    ("footprint", .null), ("geotransform", .array ([0, 1, 0, 4, 0, -1].map .int)),
    ("shape", .array [.int 4, .int 4]),
    ("measurements", .object [("red", .object [("path", .string "a")])])]

/-- The document as a list of its fields. -/
def listDocument (id : DatasetId) : Json := .array (.string id.text :: fieldNodes.map Prod.snd)

/-- The record of the document as an object is that of its dataset, and indexing it again changes
nothing. -/
theorem index_agrees_object : ∃ (r : DatasetRecord Float) (d : Dataset Float),
    index ⟨7⟩ "p" (.object fieldNodes) = .ok r ∧ r.dataset = .ok d ∧ d.id = r.id ∧
      ∀ other, index other "p" r.metadata = .ok r := by
  obtain ⟨r, hr, -⟩ := exists_ok_of_test
    (index (K := Float) ⟨7⟩ "p" (.object fieldNodes)) (fun _ => true) (by decide +kernel)
  obtain ⟨d, hd, -, -, -, hid, hagain⟩ := index_agrees hr
  exact ⟨r, d, hr, hd, hid.mpr (.inl ⟨_, rfl⟩), hagain.mpr ⟨_, rfl⟩⟩

/-- The identifier in a list of fields is that of the dataset and not that of the record. -/
theorem index_list_drops_id : ∃ (r : DatasetRecord Float) (d : Dataset Float),
    index ⟨7⟩ "p" (listDocument ⟨170⟩) = .ok r ∧ r.dataset = .ok d ∧
      r.id = ⟨7⟩ ∧ d.id = ⟨170⟩ := by
  obtain ⟨r, hr, htest⟩ := exists_ok_of_test
    (index (K := Float) ⟨7⟩ "p" (listDocument ⟨170⟩))
    (fun r => match r.dataset with
      | .ok d => decide (r.id = ⟨7⟩ ∧ d.id = ⟨170⟩)
      | .error _ => false) (by decide +kernel)
  split at htest
  · next d hd => exact ⟨r, d, hr, hd, of_decide_eq_true htest⟩
  · cases htest

end Example

end DatasetRecord

end Mosaic
