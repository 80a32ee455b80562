import Mosaic.Load.Tile
import Mosaic.Proofs.Contribution
import Mosaic.Proofs.Fusion

/-!
# What a loaded tile is made of

The measurements of a tile are put together one dataset after the other. Seen from the end, the
array of a measurement is the fusion of the windows that the datasets of the stack give for it, in
the order of the stack, stored as the type of the measurement asks (`loadTile_ok`). A dataset of
which some measurement cannot be read gives no window at all.
-/

namespace Mosaic

variable {V K : Type} [Coordinate K] [Sample V K]

namespace TileProgress

/-- What an accumulator becomes with the window of a dataset, if it gives one. -/
def pushWindow (acc : FusionAccumulator V K) :
    Option (WarpedTile V) → Except LoadError (FusionAccumulator V K)
  | some w => acc.push w.data
  | none => .ok acc

theorem pushAll_cons {a : FusionAccumulator V K} {accs accs' : List (FusionAccumulator V K)}
    {t : Option (WarpedTile V)} {tiles : List (Option (WarpedTile V))}
    (h : pushAll (a :: accs) (t :: tiles) = .ok accs') :
    ∃ a' rest, pushWindow a t = .ok a' ∧ pushAll accs tiles = .ok rest ∧ accs' = a' :: rest := by
  unfold pushAll at h
  cases t with
  | none =>
    obtain ⟨a', ha', h⟩ := bind_eq_ok.mp h
    obtain ⟨rest, hrest, h⟩ := bind_eq_ok.mp h
    cases h
    exact ⟨a', rest, ha', hrest, rfl⟩
  | some w =>
    obtain ⟨a', ha', h⟩ := bind_eq_ok.mp h
    obtain ⟨rest, hrest, h⟩ := bind_eq_ok.mp h
    cases h
    exact ⟨a', rest, ha', hrest, rfl⟩

theorem pushAll_nil {accs accs' : List (FusionAccumulator V K)}
    (h : pushAll accs ([] : List (Option (WarpedTile V))) = .ok accs') : accs' = accs := by
  cases accs <;> (cases h; rfl)

/-- Every accumulator takes the window of its own measurement. -/
theorem pushAll_ok {accs accs' : List (FusionAccumulator V K)}
    {tiles : List (Option (WarpedTile V))} (h : pushAll accs tiles = .ok accs') :
    accs'.length = accs.length ∧ ∀ (i : Nat) acc, accs[i]? = some acc →
      ∃ acc', accs'[i]? = some acc' ∧ pushWindow acc (tiles[i]?).join = .ok acc' := by
  induction accs generalizing tiles accs' with
  | nil =>
    cases h
    exact ⟨rfl, fun i acc hacc => by cases hacc⟩
  | cons a rest ih =>
    cases tiles with
    | nil =>
      obtain rfl := pushAll_nil h
      exact ⟨rfl, fun i acc hacc => ⟨acc, hacc, rfl⟩⟩
    | cons t tiles =>
      obtain ⟨a', rest', ha', hrest', rfl⟩ := pushAll_cons h
      obtain ⟨hlength, hrest⟩ := ih hrest'
      refine ⟨congrArg Nat.succ hlength, fun i acc hacc => ?_⟩
      cases i with
      | zero =>
        cases hacc
        exact ⟨a', rfl, ha'⟩
      | succ i => exact hrest i acc hacc

end TileProgress

namespace LoadPlan

variable [Reprojection K] [Containment K] {p : LoadPlan K V} {source : RasterSource V}
  {tile : TileIndex}

/-! ## One dataset -/

section Contribution

variable {d : Dataset K}

/-- A dataset whose measurements can all be read gives the window of every one that it has. -/
theorem contribution_cons {m : Measurement V} {rest : List (Measurement V)}
    {tiles : List (Option (WarpedTile V))}
    (h : p.contribution source tile d (m :: rest) = .ok (.windows tiles)) :
    ∃ window others, tiles = window :: others ∧
      p.contribution source tile d rest = .ok (.windows others) ∧
      ∀ w, window = some w → d.warp source p.densifyPoints p.grid m tile = .ok w := by
  rcases p.contribution_cons_cases m rest with ⟨-, -, hcons⟩ | ⟨e, -, hcons⟩ | ⟨cause, -, hcons⟩
  · rw [hcons, map_eq_ok] at h
    obtain ⟨c, hothers, h⟩ := h
    cases c with
    | unreadable e => cases h
    | windows others =>
      cases h
      exact ⟨_, others, rfl, hothers, fun w hw => warp_of_shown? hw⟩
  · rw [hcons] at h
    cases h
  · rw [hcons] at h
    cases h

/-- The windows of a dataset are what warping it gives. -/
theorem warp_of_contribution {ms : List (Measurement V)} {tiles : List (Option (WarpedTile V))}
    (h : p.contribution source tile d ms = .ok (.windows tiles)) {i : Nat} {m : Measurement V}
    (hm : ms[i]? = some m) {w : WarpedTile V} (hw : (tiles[i]?).join = some w) :
    d.warp source p.densifyPoints p.grid m tile = .ok w := by
  induction ms generalizing tiles i with
  | nil => cases hm
  | cons m' rest ih =>
    obtain ⟨window, others, rfl, hothers, hwindow⟩ := contribution_cons h
    cases i with
    | zero =>
      cases hm
      exact hwindow w hw
    | succ i => exact ih hothers hm hw

end Contribution

/-! ## A stack of datasets -/

/-- The window that a dataset gives for a measurement, if all of its measurements can be read. -/
def window? (p : LoadPlan K V) (source : RasterSource V) (tile : TileIndex) (i : Nat)
    (d : Dataset K) : Option (WarpedTile V) :=
  match p.contribution source tile d p.measurements with
  | .ok (.windows tiles) => (tiles[i]?).join
  | _ => none

/-- The windows that the datasets of a stack give for a measurement, in the order of the stack. -/
def windows (p : LoadPlan K V) (source : RasterSource V) (tile : TileIndex)
    (stack : List (Dataset K)) (i : Nat) : List (WarpedTile V) :=
  stack.filterMap (p.window? source tile i)

/-- Every accumulator is the fusion of the windows so far. -/
structure Fuses (p : LoadPlan K V) (source : RasterSource V) (tile : TileIndex)
    (stack : List (Dataset K)) (progress : TileProgress K V) : Prop where
  length_eq : progress.accumulators.length = p.measurements.length
  fused : ∀ i m, p.measurements[i]? = some m → ∃ acc, progress.accumulators[i]? = some acc ∧
    ((p.windows source tile stack i).map (·.data)).foldlM FusionAccumulator.push
      (FusionAccumulator.start p.product.fusion (p.grid.pixelShape.count K) m.nodata) = .ok acc

theorem fuses_noProgress : Fuses p source tile [] p.noProgress where
  length_eq := List.length_map _
  fused i m hm := by
    refine ⟨_, ?_, rfl⟩
    show (p.measurements.map _)[i]? = _
    rw [List.getElem?_map, hm]
    rfl

theorem windows_append (p : LoadPlan K V) (source : RasterSource V) (tile : TileIndex)
    (stack : List (Dataset K)) (d : Dataset K) (i : Nat) :
    p.windows source tile (stack ++ [d]) i =
      p.windows source tile stack i ++ (p.window? source tile i d).toList := by
  unfold windows
  rw [List.filterMap_append]
  cases h : p.window? source tile i d with
  | none => rw [List.filterMap_cons_none h, List.filterMap_nil]; rfl
  | some w => rw [List.filterMap_cons_some h, List.filterMap_nil]; rfl

/-- One more dataset adds its windows. -/
theorem fuses_addDataset {done : List (Dataset K)} {progress progress' : TileProgress K V}
    {d : Dataset K} (h : Fuses p source tile done progress)
    (hstep : p.addDataset source tile progress d = .ok progress') :
    Fuses p source tile (done ++ [d]) progress' := by
  obtain ⟨c, hc, hadd⟩ := bind_eq_ok.mp hstep
  rw [Stop.liftError_eq_ok] at hadd
  cases c with
  -- the accumulators stay, and the dataset counts as one without windows
  | unreadable e =>
    cases hadd
    refine ⟨h.length_eq, fun i m hm => ?_⟩
    have hnone : p.window? source tile i d = none := by rw [window?, hc]
    rw [windows_append, hnone, Option.toList_none, List.append_nil]
    exact h.fused i m hm
  | windows tiles =>
    obtain ⟨accs, haccs, hadd⟩ := bind_eq_ok.mp hadd
    cases hadd
    obtain ⟨hlength, hpush⟩ := TileProgress.pushAll_ok haccs
    refine ⟨hlength.trans h.length_eq, fun i m hm => ?_⟩
    have hwindow : p.window? source tile i d = (tiles[i]?).join := by rw [window?, hc]
    obtain ⟨acc, hacc, hfold⟩ := h.fused i m hm
    obtain ⟨acc', hacc', hstep⟩ := hpush i acc hacc
    refine ⟨acc', hacc', ?_⟩
    rw [windows_append, hwindow, List.map_append, List.foldlM_append, hfold]
    cases hjoin : (tiles[i]?).join with
    | none =>
      rw [hjoin] at hstep
      exact hstep
    | some w =>
      rw [hjoin] at hstep
      show (acc.push w.data >>= fun acc => .ok acc) = .ok acc'
      exact bind_eq_ok.mpr ⟨acc', hstep, rfl⟩

/-- Every measurement of a loaded tile is the stored fusion of its windows. -/
theorem loadTile_ok {key : TileKey} {t : AssembledTile K V} (h : p.loadTile source key = .ok t) :
    ∃ stack, p.cells.find? key = some stack ∧ ∀ i m, p.measurements[i]? = some m →
      ∃ fused, fuse (K := K) p.product.fusion (p.grid.pixelShape.count K) m.nodata
          ((p.windows source key.tile stack i).map (·.data)) = .ok fused ∧
        t.measurements[i]? = some ⟨m.name, m.dtype, m.nodata, fused.map m.store⟩ := by
  unfold loadTile at h
  cases hstack : p.cells.find? key with
  | none =>
    rw [hstack] at h
    cases h
  | some stack =>
    rw [hstack] at h
    obtain ⟨progress, hprogress, hfinish⟩ := bind_eq_ok.mp h
    rw [Stop.liftAbort_eq_ok] at hfinish
    obtain ⟨bounds, -, hfinish⟩ := bind_eq_ok.mp hfinish
    cases hfinish
    have hfuses := foldlM_ok (Fuses p source key.tile) (fun _ _ _ _ => fuses_addDataset)
      fuses_noProgress hprogress
    refine ⟨stack, rfl, fun i m hm => ?_⟩
    obtain ⟨acc, hacc, hfold⟩ := hfuses.fused i m hm
    refine ⟨acc.finish, ?_, ?_⟩
    · rw [fuse, hfold]
      rfl
    · show (p.measurements.zipWith Measurement.arrayOf progress.accumulators)[i]? = _
      rw [List.getElem?_zipWith, hm, hacc]
      rfl

end LoadPlan

end Mosaic
