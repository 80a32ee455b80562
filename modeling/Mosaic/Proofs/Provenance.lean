import Mosaic.Proofs.Isolation

/-!
# Where the pixels of an overlaid tile come from

With the policy `overwrite` every dataset covers those before it in the stack wherever it has data
(`finish_overwrite_cases`). A pixel of a loaded tile is what the last dataset with data there shows:
the value is stored as it is, since it was cast when the window was made, and the dataset is named
among those of the tile (`loadTile_overwrite`).
-/

namespace Mosaic

/-! ## The last valid value -/

namespace FusedPixel

variable {V K : Type} [Coordinate K] [Sample V K]

/-- What overwriting comes to when some members of a list give values: nodata, when none of them is
valid, or the value of a member after which no other gives a valid one. -/
theorem finish_overwrite_cases {α : Type} (nodata : V) (value? : α → Option V) (l : List α) :
    (finish nodata (ofValues .overwrite nodata (l.filterMap value?) : FusedPixel V K) = nodata ∧
      ∀ a ∈ l, ∀ v, value? a = some v → isNodata nodata v = true) ∨
    ∃ below a above v, l = below ++ a :: above ∧ value? a = some v ∧ isNodata nodata v = false ∧
      (∀ b ∈ above, ∀ w, value? b = some w → isNodata nodata w = true) ∧
      finish nodata (ofValues .overwrite nodata (l.filterMap value?) : FusedPixel V K) = v := by
  have hvalid : valid nodata (l.filterMap value?) =
      l.filterMap fun a => (value? a).filter fun v => !isNodata nodata v := List.filter_filterMap ..
  have hnone : ∀ a, (value? a).filter (fun v => !isNodata nodata v) = none →
      ∀ v, value? a = some v → isNodata nodata v = true := by
    intro a ha v hv
    rw [hv, Option.filter_eq_none_iff] at ha
    have hdata := ha v rfl
    rwa [Bool.not_eq_true', Bool.not_eq_false] at hdata
  rw [ofValues_valid, hvalid]
  rcases List.eq_nil_or_concat' (l.filterMap fun a => (value? a).filter fun v => !isNodata nodata v)
    with hnil | ⟨others, v, hlast⟩
  · rw [hnil]
    exact .inl ⟨rfl, fun a ha => hnone a (List.filterMap_eq_nil_iff.mp hnil a ha)⟩
  · obtain ⟨below, rest, rfl, -, hrest⟩ := List.filterMap_eq_append_iff.mp hlast
    obtain ⟨skipped, a, above, rfl, -, ha, habove⟩ := List.filterMap_eq_cons_iff.mp hrest
    obtain ⟨hv, hdata⟩ := Option.filter_eq_some_iff.mp ha
    rw [Bool.not_eq_true'] at hdata
    refine .inr ⟨below ++ skipped, a, above, v, (List.append_assoc ..).symm, hv, hdata,
      fun b hb => hnone b (List.filterMap_eq_nil_iff.mp habove b hb), ?_⟩
    rw [hlast, finish_overwrite_append, if_neg (by rw [hdata]; decide)]

end FusedPixel

namespace LoadPlan

variable {K V : Type} [Coordinate K] [Sample V K] [Reprojection K] [Containment K]
  {p : LoadPlan K V}
  {source : RasterSource V} {tile : TileIndex}

/-! ## What the datasets show at a pixel -/

/-- What a dataset shows at a pixel of a measurement, if it is fused. -/
def fusedValue? (p : LoadPlan K V) (source : RasterSource V) (tile : TileIndex) (m : Measurement V)
    (j : Nat) (d : Dataset K) : Option V :=
  if p.isReadable source tile d then (p.shown? source tile d m).bind (·.data[j]?) else none

/-- In a stack that is put together every dataset gives something. -/
theorem contributions_of_run {progress progress' : TileProgress K V} {stack : List (Dataset K)}
    (h : stack.foldlM (p.addDataset source tile) progress = .ok progress') :
    ∀ d ∈ stack, ∃ c, p.contribution source tile d p.measurements = .ok c := by
  refine foldlM_ok (fun done _ => ∀ d ∈ done, ∃ c, p.contribution source tile d p.measurements =
    .ok c) ?_ nofun h
  intro done _ d _ hdone hstep
  obtain ⟨c, hc, -⟩ := bind_eq_ok.mp hstep
  rw [List.forall_mem_append, List.forall_mem_singleton]
  exact ⟨hdone, c, hc⟩

/-- The datasets of a loaded tile are those of the stack that gave pixels. -/
theorem datasets_of_loadTile {key : TileKey} {t : AssembledTile K V} {stack : List (Dataset K)}
    (hstack : p.cells.find? key = some stack) (h : p.loadTile source key = .ok t) :
    t.datasets = (stack.filter (p.gives source key.tile)).map Dataset.id ∧
      ∀ d ∈ stack, ∃ c, p.contribution source key.tile d p.measurements = .ok c := by
  rw [loadTile_unfold hstack] at h
  obtain ⟨progress, hprogress, hfinish⟩ := bind_eq_ok.mp h
  rw [Stop.liftAbort_eq_ok] at hfinish
  exact ⟨(finish_ok hfinish).2.1.trans (run_ok hprogress).1, contributions_of_run hprogress⟩

/-- The window of a dataset that is fused in a measurement is what it shows there. -/
theorem window?_eq_shown {d : Dataset K} {c : Contribution V}
    (h : p.contribution source tile d p.measurements = .ok c) {i : Nat} {m : Measurement V}
    (hm : p.measurements[i]? = some m) :
    p.window? source tile i d =
      if p.isReadable source tile d then p.shown? source tile d m else none := by
  have hgiven := contribution_ok h
  unfold window? isReadable failure?
  rw [h, hgiven]
  cases p.measurements.findSome? (p.readFailure? source tile d) with
  | some e => rfl
  | none =>
    show ((p.measurements.map (p.shown? source tile d))[i]?).join = _
    rw [List.getElem?_map, hm]
    rfl

theorem fusedValue?_eq_some {m : Measurement V} {j : Nat} {d : Dataset K} {v : V}
    (h : p.fusedValue? source tile m j d = some v) :
    p.isReadable source tile d = true ∧
      ∃ w, p.shown? source tile d m = some w ∧ w.data[j]? = some v := by
  unfold fusedValue? at h
  split at h
  · next hreadable => exact ⟨hreadable, Option.bind_eq_some_iff.mp h⟩
  · cases h

theorem mayShow_of_fusedValue {m : Measurement V} {j : Nat} {d : Dataset K} {v : V}
    (h : p.fusedValue? source tile m j d = some v) : m.MayShow v := by
  obtain ⟨-, w, hw, hv⟩ := fusedValue?_eq_some h
  unfold shown? at hw
  cases hwarp : d.warp source p.densifyPoints p.grid m tile with
  | error stop =>
    rw [hwarp] at hw
    cases hw
  | ok w' =>
    rw [hwarp] at hw
    cases hw
    exact Dataset.mayShow_of_warp hwarp (Array.mem_of_getElem? hv)

section Machine

variable {p : LoadPlan Float Float32} {source : RasterSource Float32} {tile : TileIndex}

/-- The values at a pixel are those of the datasets that are fused, in the order of the stack. -/
theorem values_eq_filterMap {stack : List (Dataset Float)}
    (h : ∀ d ∈ stack, ∃ c, p.contribution source tile d p.measurements = .ok c) {i : Nat}
    {m : Measurement Float32} (hm : p.measurements[i]? = some m) (j : Nat) :
    p.values source tile stack i j = stack.filterMap (p.fusedValue? source tile m j) := by
  unfold values windows
  rw [List.filterMap_filterMap]
  refine List.filterMap_congr fun d hd => ?_
  obtain ⟨c, hc⟩ := h d hd
  rw [window?_eq_shown hc hm, fusedValue?]
  split <;> rfl

/-- A dataset with data at a pixel counts as one that gave pixels. -/
theorem gives_of_fusedValue {m : Measurement Float32} (hm : m ∈ p.measurements) {j : Nat}
    {d : Dataset Float} {v : Float32} (h : p.fusedValue? source tile m j d = some v)
    (hdata : isNodata m.nodata v = false) : p.gives source tile d = true := by
  obtain ⟨hreadable, w, hw, hv⟩ := fusedValue?_eq_some h
  rw [gives, Bool.and_eq_true]
  refine ⟨hreadable, List.any_eq_true.mpr ⟨m, hm, ?_⟩⟩
  rw [hw, Option.any_some, Option.isSome_iff_ne_none]
  intro hwindow
  obtain rfl := (shown?_eq_some hw).2 hwindow
  have hblank := (Array.mem_replicate.mp (Array.mem_of_getElem? hv)).2
  rw [hblank, isNodata_self] at hdata
  cases hdata

/-! ## The pixels of a tile that is overlaid -/

/-- A pixel of an overlaid tile is exactly what the last dataset with data there shows, which is
among the datasets of the tile, and nodata where no dataset has data. -/
theorem loadTile_overwrite {key : TileKey} {t : AssembledTile Float Float32}
    (hfusion : p.product.fusion = .overwrite) (h : p.loadTile source key = .ok t) :
    ∃ stack, p.cells.find? key = some stack ∧ t.datasets.Sublist (p.contributors key) ∧
      ∀ (i : Nat) m, p.measurements[i]? = some m →
        (∀ value, isNodata m.nodata (m.dtype.castValid value m.nodata) = false →
          m.dtype.castValid (m.dtype.castValid value m.nodata) m.nodata =
            m.dtype.castValid value m.nodata) ∧
        ∃ a, t.measurements[i]? = some a ∧ a.nodata = m.nodata ∧
          ∀ j, j < p.grid.pixelShape.count Float →
            (a.data[j]? = some m.nodata ∧ ∀ d ∈ stack, ∀ v,
              p.fusedValue? source key.tile m j d = some v → isNodata m.nodata v = true) ∨
            ∃ below d above v, stack = below ++ d :: above ∧
              p.fusedValue? source key.tile m j d = some v ∧ isNodata m.nodata v = false ∧
              (∀ b ∈ above, ∀ w, p.fusedValue? source key.tile m j b = some w →
                isNodata m.nodata w = true) ∧
              a.data[j]? = some v ∧ m.store v = v ∧ d.id ∈ t.datasets := by
  obtain ⟨stack, hstack, hmeasurements⟩ := loadTile_ok h
  obtain ⟨hdatasets, hgiven⟩ := datasets_of_loadTile hstack h
  refine ⟨stack, hstack, ?_, fun i m hm => ⟨fun value => m.dtype.castValid_castValid, ?_⟩⟩
  · rw [hdatasets, contributors, hstack]
    exact List.filter_sublist.map Dataset.id
  · obtain ⟨fused, -, ha⟩ := hmeasurements i m hm
    refine ⟨_, ha, rfl, fun j hj => ?_⟩
    obtain ⟨stack', a, hstack', ha', -, hpixel⟩ := pixel_of_loadTile h hm hj
    obtain rfl := Option.some_inj.mp (hstack.symm.trans hstack')
    obtain rfl := Option.some_inj.mp (ha.symm.trans ha')
    rw [values_eq_filterMap hgiven hm, hfusion] at hpixel
    rcases FusedPixel.finish_overwrite_cases (K := Float) m.nodata
        (p.fusedValue? source key.tile m j) stack with
      ⟨hfinish, hnone⟩ | ⟨below, d, above, v, hsplit, hv, hdata, habove, hfinish⟩
    · rw [hfinish, m.store_nodata] at hpixel
      exact .inl ⟨hpixel, hnone⟩
    · have hstore := m.store_of_mayShow (mayShow_of_fusedValue hv) hdata
      have hmem : d ∈ stack := by
        rw [hsplit]
        exact List.mem_append_right below List.mem_cons_self
      have hgives := gives_of_fusedValue (List.mem_of_getElem? hm) hv hdata
      rw [hfinish, hstore] at hpixel
      refine .inr ⟨below, d, above, v, hsplit, hv, hdata, habove, hpixel, hstore, ?_⟩
      rw [hdatasets]
      exact List.mem_map_of_mem (List.mem_filter.mpr ⟨hmem, hgives⟩)

/-- A load of the two scenes, the second one above the first. -/
def overlaidScenes : LoadPlan Float Float32 :=
  { meanOfScenes with
    product := { name := "scenes", measurements := [redBand], fusion := .overwrite } }

/-- The upper scene is on top. -/
theorem upper_scene_is_on_top :
    overlaidScenes.product.fusion = .overwrite ∧
      ∃ t a, overlaidScenes.loadTile (evenRasters (-998.0) (-1001.0)) lowerKey = .ok t ∧
        t.datasets.Sublist (overlaidScenes.contributors lowerKey) ∧
        t.measurements[0]? = some a ∧ a.data[0]? = some (-1001.0 : Float32) := by
  obtain ⟨t, ht, -⟩ := exists_ok_of_test
    (overlaidScenes.loadTile (evenRasters (-998.0) (-1001.0)) lowerKey) (fun _ => true)
    (by decide +kernel)
  obtain ⟨stack, hstack, hsublist, hmeasurements⟩ := loadTile_overwrite rfl ht
  obtain rfl : [sceneOf 1#128 "a", sceneOf 2#128 "b"] = stack := Option.some_inj.mp hstack
  obtain ⟨-, a, ha, -, hpixels⟩ := hmeasurements 0 redBand rfl
  refine ⟨rfl, t, a, ht, hsublist, ha, ?_⟩
  have hupper : overlaidScenes.fusedValue? (evenRasters (-998.0) (-1001.0)) lowerKey.tile redBand 0
      (sceneOf 2#128 "b") = some (-1001.0) := by decide +kernel
  have hdata : ¬isNodata redBand.nodata (-1001.0 : Float32) = true := by decide +kernel
  rcases hpixels 0 (by decide +kernel) with
    ⟨-, hnone⟩ | ⟨below, d, above, v, hsplit, hv, -, habove, hpixel, -⟩
  · exact absurd (hnone _ (List.mem_cons_of_mem _ List.mem_cons_self) _ hupper) hdata
  · rcases below with _ | ⟨_, _ | ⟨_, below⟩⟩
    · obtain ⟨-, rfl⟩ := List.cons_eq_cons.mp hsplit
      exact absurd (habove _ List.mem_cons_self _ hupper) hdata
    · obtain ⟨-, hsplit⟩ := List.cons_eq_cons.mp hsplit
      obtain ⟨rfl, -⟩ := List.cons_eq_cons.mp hsplit
      rw [hupper] at hv
      cases hv
      exact hpixel
    · obtain ⟨-, hsplit⟩ := List.cons_eq_cons.mp hsplit
      obtain ⟨-, hsplit⟩ := List.cons_eq_cons.mp hsplit
      exact absurd hsplit.symm (List.append_ne_nil_of_right_ne_nil below (List.cons_ne_nil d above))

end Machine

end LoadPlan

end Mosaic
