import Mosaic.Load.Tile
import Mosaic.Proofs.Outcome

/-!
# What a dataset gives to a tile

Warping a dataset ends in one of four ways: with a value for every pixel, without a source for the
measurement, with a failure to read, or with an abort, which a point of the tile brings about
(`warp_cases`). From the ways in which its measurements end follows what the dataset gives as a
whole (`contribution_eq`): what the first measurement to end the reading ends it with, a failure to
read or an abort, or else the window of every measurement that it has (`contribution_ok`).
-/

namespace Mosaic

/-! ## Changes of coordinates -/

namespace Transformer

variable {K : Type} [Reprojection K] {t : Transformer}

theorem applyAll_error {points : List (Point K)} {cause : Abort}
    (h : t.applyAll points = .error cause) : ∃ pt ∈ points, t.apply pt = .error cause := by
  unfold applyAll at h
  split at h
  · cases h
  · next hidentity =>
    obtain ⟨pt, hpt, herror⟩ := mapM_error h
    exact ⟨pt, hpt, by rw [apply, if_neg hidentity, herror]⟩

theorem applyArray_eq_applyAll (t : Transformer) (points : Array (Point K)) :
    t.applyArray points = (t.applyAll points.toList).map List.toArray := by
  unfold applyArray applyAll
  split
  · rfl
  · rw [Array.mapM_eq_mapM_toList]
    rfl

theorem applyArray_error {points : Array (Point K)} {cause : Abort}
    (h : t.applyArray points = .error cause) :
    ∃ pt ∈ points.toList, t.apply pt = .error cause := by
  rw [applyArray_eq_applyAll] at h
  cases hall : t.applyAll points.toList with
  | ok image =>
    rw [hall] at h
    cases h
  | error cause' =>
    rw [hall] at h
    cases h
    exact applyAll_error hall

theorem size_of_applyArray {points image : Array (Point K)} (h : t.applyArray points = .ok image) :
    image.size = points.size := by
  unfold applyArray at h
  split at h
  · cases h
    rfl
  · rw [Array.mapM_eq_mapM_toList] at h
    cases hall : points.toList.mapM (Reprojection.reproject t.source t.target) with
    | error cause =>
      rw [hall] at h
      cases h
    | ok list =>
      rw [hall] at h
      cases h
      exact length_of_mapM hall

end Transformer

variable {V K : Type} [Coordinate K] [Reprojection K]

/-! ## Warping -/

/-- The points of a tile that are carried over to the reference system of a dataset. -/
def Warp.tilePoints (grid : Grid K) (tile : TileIndex) (count : Nat) : List (Point K) :=
  densify (grid.paddedExtentOf tile).corners count ++ (grid.centers tile).toList ++
    (grid.corners tile).toList

namespace Dataset

/-- Warping a dataset is aborted at a point of the tile. -/
def AbortsAt (d : Dataset K) (grid : Grid K) (tile : TileIndex) (count : Nat) (cause : Abort) :
    Prop :=
  ∃ pt ∈ Warp.tilePoints grid tile count, (Transformer.mk grid.crs d.crs).apply pt = .error cause

variable {d : Dataset K} {grid : Grid K} {count : Nat} {tile : TileIndex}

theorem cornerGrid_error {cause : Abort}
    (h : (Warp.cornerGrid grid tile d).map some = .error cause) :
    ∃ pt ∈ (grid.corners tile).toList, (Transformer.mk grid.crs d.crs).apply pt = .error cause := by
  unfold Warp.cornerGrid at h
  cases hcorners : (Transformer.mk grid.crs d.crs).applyArray (grid.corners tile) with
  | ok corners =>
    rw [hcorners] at h
    cases h
  | error cause' =>
    rw [hcorners] at h
    cases h
    exact Transformer.applyArray_error hcorners

variable [Sample V K]

/-- How warping a dataset can end. -/
inductive WarpEnd (d : Dataset K) (grid : Grid K) (count : Nat) (m : Measurement V)
    (tile : TileIndex) : Except (Stop LoadError) (WarpedTile V) → Prop
  /-- With a value for every pixel, which is nodata where no window was read. -/
  | ok {w} (hlocator : d.locator? m ≠ none) (hsize : w.data.size = grid.pixelShape.count K)
      (hwindow : w.window = none → w = .blank (K := K) grid.pixelShape m.nodata) :
    WarpEnd d grid count m tile (.ok w)
  /-- Without a source for the measurement. -/
  | lacking (hlocator : d.locator? m = none) :
    WarpEnd d grid count m tile (.error (.failed (.missingMeasurement d.id.text m.name)))
  /-- With a failure to open the raster or to read a window of it. -/
  | unreadable {text} (hlocator : d.locator? m ≠ none) :
    WarpEnd d grid count m tile (.error (.failed (.sourceRead d.id.text text)))
  | aborted {cause} (h : d.AbortsAt grid tile count cause) :
    WarpEnd d grid count m tile (.error (.aborted cause))

variable {m : Measurement V}

namespace WarpEnd

variable {α : Type} {next : α → Except (Stop LoadError) (WarpedTile V)}

theorem carry {x : Except Abort α}
    (h : ∀ cause, x = .error cause → d.AbortsAt grid tile count cause)
    (hnext : ∀ a, x = .ok a → WarpEnd d grid count m tile (next a)) :
    WarpEnd d grid count m tile (Stop.liftAbort x >>= next) := by
  cases x with
  | ok a => exact hnext a rfl
  | error cause => exact .aborted (h cause rfl)

theorem read (hlocator : d.locator? m ≠ none) {result : Except LoadError α}
    (hnext : ∀ a, WarpEnd d grid count m tile (next a)) :
    WarpEnd d grid count m tile (d.readResult result >>= next) := by
  cases result with
  | ok a => exact hnext a
  | error e => exact .unreadable hlocator

theorem blank (hlocator : d.locator? m ≠ none) :
    WarpEnd d grid count m tile (.ok (.blank (K := K) grid.pixelShape m.nodata)) :=
  .ok hlocator Array.size_replicate fun _ => rfl

end WarpEnd

variable [Containment K]

theorem warp_cases (d : Dataset K) (source : RasterSource V) (count : Nat) (grid : Grid K)
    (m : Measurement V) (tile : TileIndex) :
    WarpEnd d grid count m tile (d.warp source count grid m tile) := by
  unfold warp
  simp only
  split
  · next locator hsome =>
    have hlocator : d.locator? m ≠ none := by rw [hsome]; nofun
    refine .carry (fun cause h => ?_) fun ring _ => ?_
    · obtain ⟨pt, hpt, herror⟩ := Transformer.applyAll_error h
      exact ⟨pt, List.mem_append_left _ (List.mem_append_left _ hpt), herror⟩
    split
    · refine .carry (fun cause h => ?_) fun centers hcenters => ?_
      · obtain ⟨pt, hpt, herror⟩ := Transformer.applyArray_error h
        exact ⟨pt, List.mem_append_left _ (List.mem_append_right _ hpt), herror⟩
      have hsize : centers.size = grid.pixelShape.count K :=
        (Transformer.size_of_applyArray hcenters).trans Array.size_ofFn
      split
      · exact .blank hlocator
      · refine .read hlocator fun handle => ?_
        split
        · next window _ =>
          refine .read hlocator fun read => ?_
          have hdata : ∀ corners, (Warp.pixelValues m grid.pixelShape.width window read corners
              (centers.map (Warp.position? d (Warp.liesInside d ring)))).size =
                grid.pixelShape.count K := by
            intro corners
            rw [Warp.pixelValues, Array.size_mapIdx, Array.size_map, hsize]
          split
          · refine .carry (fun cause h => ?_) fun corners _ => .ok hlocator (hdata corners) nofun
            obtain ⟨pt, hpt, herror⟩ := cornerGrid_error h
            exact ⟨pt, List.mem_append_right _ hpt, herror⟩
          · exact .ok hlocator (hdata none) nofun
        · exact .blank hlocator
    · exact .blank hlocator
  · next hnone => exact .lacking (Option.eq_none_iff_forall_ne_some.mpr hnone)

end Dataset

/-! ## All measurements of a dataset -/

namespace Contribution

/-- A contribution with the window of one more measurement in front. -/
def cons (window : Option (WarpedTile V)) : Contribution V → Contribution V
  | .windows tiles => .windows (window :: tiles)
  | .unreadable e => .unreadable e

end Contribution

namespace LoadPlan

variable [Sample V K] [Containment K]

/-- What a dataset shows in a measurement, if it has one there and it can be read. -/
def shown? (p : LoadPlan K V) (source : RasterSource V) (tile : TileIndex) (d : Dataset K)
    (m : Measurement V) : Option (WarpedTile V) :=
  (d.warp source p.densifyPoints p.grid m tile).toOption

/-- What ends the reading of a dataset at a measurement: a failure to read it, or an abort. -/
def stop? (p : LoadPlan K V) (source : RasterSource V) (tile : TileIndex) (d : Dataset K)
    (m : Measurement V) : Option (Stop LoadError) :=
  match d.warp source p.densifyPoints p.grid m tile with
  | .error (.aborted cause) => some (.aborted cause)
  | .error (.failed (.sourceRead id text)) => some (.failed (.sourceRead id text))
  | _ => none

/-- The failure to read a measurement of a dataset. -/
def readFailure? (p : LoadPlan K V) (source : RasterSource V) (tile : TileIndex) (d : Dataset K)
    (m : Measurement V) : Option LoadError :=
  match p.stop? source tile d m with
  | some (.failed e) => some e
  | _ => none

/-- The first failure to read a measurement of a dataset. -/
def failure? (p : LoadPlan K V) (source : RasterSource V) (tile : TileIndex) (d : Dataset K) :
    Option LoadError :=
  p.measurements.findSome? (p.readFailure? source tile d)

variable {p : LoadPlan K V} {source : RasterSource V} {tile : TileIndex} {d : Dataset K}

theorem warp_of_shown? {m : Measurement V} {w : WarpedTile V}
    (h : p.shown? source tile d m = some w) :
    d.warp source p.densifyPoints p.grid m tile = .ok w := by
  unfold shown? at h
  cases hwarp : d.warp source p.densifyPoints p.grid m tile with
  | error e =>
    rw [hwarp] at h
    cases h
  | ok w' =>
    rw [hwarp] at h
    exact congrArg Except.ok (Option.some.inj h)

/-- What a dataset gives in one measurement more: with a window or without a source it gives what it
gives in the others, and it gives nothing when the measurement ends the reading. -/
theorem contribution_cons_cases (m : Measurement V) (rest : List (Measurement V)) :
    (p.stop? source tile d m = none ∧
      (p.shown? source tile d m = none ↔ d.locator? m = none) ∧
      p.contribution source tile d (m :: rest) =
        (p.contribution source tile d rest).map (.cons (p.shown? source tile d m))) ∨
    (∃ e, p.stop? source tile d m = some (.failed e) ∧
      p.contribution source tile d (m :: rest) = .ok (.unreadable e)) ∨
    (∃ cause, p.stop? source tile d m = some (.aborted cause) ∧
      p.contribution source tile d (m :: rest) = .error (.aborted cause)) := by
  unfold stop? shown?
  rw [contribution]
  have hend := d.warp_cases source p.densifyPoints p.grid m tile
  generalize d.warp source p.densifyPoints p.grid m tile = warped at *
  cases hend with
  | ok hlocator _ _ =>
    refine .inl ⟨rfl, iff_of_false nofun hlocator, ?_⟩
    cases p.contribution source tile d rest with
    | error stop => rfl
    | ok c => cases c <;> rfl
  | lacking hlocator =>
    refine .inl ⟨rfl, iff_of_true rfl hlocator, ?_⟩
    cases p.contribution source tile d rest with
    | error stop => rfl
    | ok c => cases c <;> rfl
  | unreadable _ => exact .inr (.inl ⟨_, rfl, rfl⟩)
  | aborted _ => exact .inr (.inr ⟨_, rfl, rfl⟩)

/-- What a dataset gives as a whole, as far as the measurements of a list go, is decided by the
first of them that ends the reading. -/
theorem contribution_eq (ms : List (Measurement V)) :
    p.contribution source tile d ms =
      match ms.findSome? (p.stop? source tile d) with
      | some (.aborted cause) => .error (.aborted cause)
      | some (.failed e) => .ok (.unreadable e)
      | none => .ok (.windows (ms.map (p.shown? source tile d))) := by
  induction ms with
  | nil => rfl
  | cons m rest ih =>
    rw [List.findSome?_cons]
    rcases p.contribution_cons_cases m rest with ⟨hstop, -, hcons⟩ | ⟨e, hstop, hcons⟩ |
      ⟨cause, hstop, hcons⟩
    · rw [hstop, hcons, ih]
      cases rest.findSome? (p.stop? source tile d) with
      | none => rfl
      | some stop => cases stop <;> rfl
    · rw [hstop, hcons]
    · rw [hstop, hcons]

/-- What a dataset gives as a whole where nothing aborts the reading. -/
theorem contribution_ok {ms : List (Measurement V)} {c : Contribution V}
    (h : p.contribution source tile d ms = .ok c) :
    c = match ms.findSome? (p.readFailure? source tile d) with
      | some e => .unreadable e
      | none => .windows (ms.map (p.shown? source tile d)) := by
  rw [contribution_eq] at h
  cases hstop : ms.findSome? (p.stop? source tile d) with
  | none =>
    have hnone : ms.findSome? (p.readFailure? source tile d) = none :=
      List.findSome?_eq_none_iff.mpr fun m hm => by
        rw [readFailure?, List.findSome?_eq_none_iff.mp hstop m hm]
    rw [hstop] at h
    cases h
    rw [hnone]
  | some stop =>
    cases stop with
    | aborted cause =>
      rw [hstop] at h
      cases h
    | failed e =>
      -- nothing before the first measurement that ends the reading fails
      obtain ⟨before, m, after, hms, hm, hbefore⟩ := List.findSome?_eq_some_iff.mp hstop
      have hfailure : ms.findSome? (p.readFailure? source tile d) = some e :=
        List.findSome?_eq_some_iff.mpr ⟨before, m, after, hms, by rw [readFailure?, hm],
          fun m' hm' => by rw [readFailure?, hbefore m' hm']⟩
      rw [hstop] at h
      cases h
      rw [hfailure]

/-- Where all measurements can be read, the windows that miss are those without a source. -/
theorem shown?_eq_none_iff {ms : List (Measurement V)} {c : Contribution V}
    (h : p.contribution source tile d ms = .ok c)
    (hreadable : ms.findSome? (p.readFailure? source tile d) = none) {m : Measurement V}
    (hm : m ∈ ms) : p.shown? source tile d m = none ↔ d.locator? m = none := by
  have hnone : ms.findSome? (p.stop? source tile d) = none := by
    rw [contribution_eq] at h
    cases hstop : ms.findSome? (p.stop? source tile d) with
    | none => rfl
    | some stop =>
      cases stop with
      | aborted cause =>
        rw [hstop] at h
        cases h
      | failed e =>
        obtain ⟨m', hm', hfailed⟩ := List.exists_of_findSome?_eq_some hstop
        have hfailure := List.findSome?_eq_none_iff.mp hreadable m' hm'
        rw [readFailure?, hfailed] at hfailure
        cases hfailure
  have hstop := List.findSome?_eq_none_iff.mp hnone m hm
  rcases p.contribution_cons_cases m [] with ⟨-, hshown, -⟩ | ⟨e, he, -⟩ | ⟨cause, hcause, -⟩
  · exact hshown
  · cases hstop.symm.trans he
  · cases hstop.symm.trans hcause

/-! ## One more dataset -/

/-- Whether a dataset counts as one that gave pixels to a tile: a window of it was read, and no
measurement failed. -/
def gives (p : LoadPlan K V) (source : RasterSource V) (tile : TileIndex) (d : Dataset K) : Bool :=
  (p.failure? source tile d).isNone &&
    p.measurements.any fun m => (p.shown? source tile d m).any fun w => w.window.isSome

/-- The warnings that a dataset leaves on a tile: of its first failure, or else of every measurement
that it lacks. -/
def warningsOf (p : LoadPlan K V) (source : RasterSource V) (tile : TileIndex) (d : Dataset K) :
    List LoadWarning :=
  match p.failure? source tile d with
  | some e => [.sourceRead d.id e.message]
  | none => (p.measurements.filter fun m => (d.locator? m).isNone).map fun m =>
      .missingMeasurement d.id s!"no source for measurement '{m.name}'"

theorem lacking_shown {ms : List (Measurement V)}
    (h : ∀ m ∈ ms, p.shown? source tile d m = none ↔ d.locator? m = none) :
    TileProgress.lacking d ms (ms.map (p.shown? source tile d)) =
      (ms.filter fun m => (d.locator? m).isNone).map fun m =>
        .missingMeasurement d.id s!"no source for measurement '{m.name}'" := by
  unfold TileProgress.lacking
  induction ms with
  | nil => rfl
  | cons m rest ih =>
    obtain ⟨hm, hrest⟩ := List.forall_mem_cons.mp h
    have ih := ih hrest
    rw [List.map_cons, List.zip_cons_cons]
    cases hlocator : d.locator? m with
    | none =>
      have hshown := hm.mpr hlocator
      rw [List.filterMap_cons_some (by simp only [hshown]; rfl), ih,
        List.filter_cons_of_pos (by rw [hlocator]; rfl), List.map_cons]
    | some locator =>
      obtain ⟨w, hw⟩ := Option.ne_none_iff_exists'.mp
        ((not_congr hm).mpr (by rw [hlocator]; nofun))
      rw [List.filterMap_cons_none (by simp only [hw]), ih,
        List.filter_cons_of_neg (by rw [hlocator]; exact Bool.false_ne_true)]

/-- What one more dataset changes: with a failure nothing but the warnings, and else the windows of
its measurements are fused. -/
theorem addDataset_ok {progress progress' : TileProgress K V}
    (h : p.addDataset source tile progress d = .ok progress') :
    progress'.datasets =
        progress.datasets ++ (if p.gives source tile d then [d.id] else []) ∧
      progress'.warnings = progress.warnings ++ p.warningsOf source tile d ∧
      match p.failure? source tile d with
      | some _ => progress'.accumulators = progress.accumulators
      | none => TileProgress.pushAll progress.accumulators
          (p.measurements.map (p.shown? source tile d)) = .ok progress'.accumulators := by
  obtain ⟨c, hc, hadd⟩ := bind_eq_ok.mp h
  rw [Stop.liftError_eq_ok] at hadd
  have hgiven := contribution_ok hc
  unfold gives warningsOf failure?
  cases hfailure : p.measurements.findSome? (p.readFailure? source tile d) with
  | some e =>
    rw [hfailure] at hgiven
    subst hgiven
    cases hadd
    exact ⟨(List.append_nil _).symm, rfl, rfl⟩
  | none =>
    rw [hfailure] at hgiven
    subst hgiven
    obtain ⟨accumulators, hpush, hadd⟩ := bind_eq_ok.mp hadd
    cases hadd
    refine ⟨?_, ?_, hpush⟩
    · have hcontributed : TileProgress.contributed (p.measurements.map (p.shown? source tile d)) =
          p.measurements.any fun m => (p.shown? source tile d m).any fun w => w.window.isSome :=
        List.any_map
      show (if TileProgress.contributed _ then _ else _) = _
      rw [hcontributed, Option.isNone_none, Bool.true_and]
      split
      · rfl
      · rw [List.append_nil]
    · exact congrArg _ (lacking_shown fun m hm => shown?_eq_none_iff hc hfailure hm)

/-- What a dataset shows has a value for every pixel, which is nodata where no window was read. -/
theorem shown?_eq_some {m : Measurement V} {w : WarpedTile V}
    (h : p.shown? source tile d m = some w) :
    w.data.size = p.grid.pixelShape.count K ∧
      (w.window = none → w = .blank (K := K) p.grid.pixelShape m.nodata) := by
  unfold shown? at h
  have hend := d.warp_cases source p.densifyPoints p.grid m tile
  generalize d.warp source p.densifyPoints p.grid m tile = warped at *
  cases hend with
  | ok _ hsize hwindow =>
    cases h
    exact ⟨hsize, hwindow⟩
  | lacking _ | unreadable _ | aborted _ => cases h

end LoadPlan

end Mosaic
