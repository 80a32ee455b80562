import Mathlib.Tactic.FieldSimp
import Mosaic.Proofs.Footprint
import Mosaic.Proofs.Turning

/-!
# Affine maps in exact arithmetic

An affine map is accepted exactly when its determinant is not zero, and the map by cofactors then undoes
it, first or last (`worldToPixel_pixelToWorld`, `pixelToWorld_worldToPixel`). The outline of a raster is
the image of its four corners. Rotated, sheared or mirrored, it contains what lies strictly inside the
raster, the centre of every pixel above all (`exact_inverse`).
-/

namespace Mosaic

open Mosaic.Polygon (edgesOf)

/-! ## The inverse -/

namespace GeoTransform

variable {t : GeoTransform Rat}

theorem cofactorInverse_apply (h : t.determinant ≠ 0) (p : Point Rat) :
    t.cofactorInverse.apply (t.apply p) = p := by
  unfold apply cofactorInverse
  generalize hd : t.determinant = d at h
  unfold determinant at hd
  refine congrArg₂ Point.mk ?_ ?_ <;>
  · field_simp
    rw [← hd]
    ring

theorem apply_cofactorInverse (h : t.determinant ≠ 0) (p : Point Rat) :
    t.apply (t.cofactorInverse.apply p) = p := by
  unfold apply cofactorInverse
  generalize hd : t.determinant = d at h
  unfold determinant at hd
  refine congrArg₂ Point.mk ?_ ?_ <;>
  · field_simp
    rw [← hd]
    ring

theorem apply_injective (h : t.determinant ≠ 0) : Function.Injective t.apply :=
  Function.LeftInverse.injective (cofactorInverse_apply h)

end GeoTransform

namespace Affine

variable {t : GeoTransform Rat} {a : Affine Rat}

/-- A map with a determinant is accepted, and kept together with its inverse. -/
theorem ofGeoTransform_eq_ok :
    ofGeoTransform t = .ok a ↔ t.determinant ≠ 0 ∧ a = ⟨t, t.cofactorInverse⟩ := by
  have hfinite : ∀ u : GeoTransform Rat, u.isFinite = true := fun _ => rfl
  have hzero : (0.0 : Rat) = 0 := by norm_num
  unfold ofGeoTransform
  simp only [hfinite, Exact.isFinite_eq, Bool.true_and, Bool.and_true, hzero, Bool.not_eq_true',
    beq_eq_false_iff_ne]
  split
  · next hdet => exact ⟨fun h => ⟨hdet, (Except.ok.inj h).symm⟩, fun h => h.2 ▸ rfl⟩
  · next hdet => exact iff_of_false nofun fun h => hdet h.1

theorem worldToPixel_pixelToWorld (h : ofGeoTransform t = .ok a) (p : Point Rat) :
    a.worldToPixel (a.pixelToWorld p) = p := by
  obtain ⟨hdet, rfl⟩ := ofGeoTransform_eq_ok.mp h
  exact GeoTransform.cofactorInverse_apply hdet p

theorem pixelToWorld_worldToPixel (h : ofGeoTransform t = .ok a) (p : Point Rat) :
    a.pixelToWorld (a.worldToPixel p) = p := by
  obtain ⟨hdet, rfl⟩ := ofGeoTransform_eq_ok.mp h
  exact GeoTransform.apply_cofactorInverse hdet p

end Affine

/-! ## The image of a box -/

namespace Box

variable {b : Box Rat} {p : Point Rat} {t : GeoTransform Rat}

/-- Whether a point lies inside the box and not on an edge. -/
def Surrounds (b : Box Rat) (p : Point Rat) : Prop :=
  (b.minX < p.x ∧ p.x < b.maxX) ∧ b.minY < p.y ∧ p.y < b.maxY

/-- Round a point inside, the edges of a box turn to the left. -/
theorem turn_of_surrounds (h : b.Surrounds p) {e : Edge Rat}
    (he : e ∈ edgesOf (b.corners ++ [b.lowerLeft])) : e.turn p = .left := by
  obtain ⟨⟨hleft, hright⟩, hbelow, habove⟩ := h
  simp only [corners, lowerLeft, List.cons_append, List.nil_append, edgesOf, List.mem_cons,
    List.not_mem_nil, or_false] at he
  refine Polygon.turn_eq_left.mpr ?_
  unfold Polygon.products
  rcases he with rfl | rfl | rfl | rfl <;> dsimp only <;> refine sub_pos.mp ?_
  · linarith [mul_pos (sub_pos.mpr (hleft.trans hright)) (sub_pos.mpr hbelow)]
  · linarith [mul_pos (sub_pos.mpr (hbelow.trans habove)) (sub_pos.mpr hright)]
  · linarith [mul_pos (sub_pos.mpr (hleft.trans hright)) (sub_pos.mpr habove)]
  · linarith [mul_pos (sub_pos.mpr (hbelow.trans habove)) (sub_pos.mpr hleft)]

/-- An affine function that is not constant has a greater value at a corner than inside. -/
theorem exists_corner_gt (h : b.Surrounds p) {k l : Rat} (hkl : ¬(k = 0 ∧ l = 0)) (c : Rat) :
    ∃ q ∈ b.corners, k * p.x + l * p.y + c < k * q.x + l * q.y + c := by
  obtain ⟨⟨hleft, hright⟩, hbelow, habove⟩ := h
  by_contra! hcorners
  -- no step from the point to an edge of the box may add to the value
  have hbound : ∀ q : Point Rat, b.Encloses (ofPoint q) →
      k * q.x + l * q.y + c ≤ k * p.x + l * p.y + c := fun q hq => le_of_corners' hcorners hq
  have heast := hbound ⟨b.maxX, p.y⟩ ⟨(hleft.trans hright).le, hbelow.le, le_rfl, habove.le⟩
  have hwest := hbound ⟨b.minX, p.y⟩ ⟨le_rfl, hbelow.le, (hleft.trans hright).le, habove.le⟩
  have hnorth := hbound ⟨p.x, b.maxY⟩ ⟨hleft.le, (hbelow.trans habove).le, hright.le, le_rfl⟩
  have hsouth := hbound ⟨p.x, b.minY⟩ ⟨hleft.le, le_rfl, hright.le, (hbelow.trans habove).le⟩
  dsimp only at heast hwest hnorth hsouth
  have hzero : ∀ {m x y z : Rat}, x < y → y < z → m * z ≤ m * y → m * x ≤ m * y → m = 0 := by
    intro m x y z hxy hyz hz hx
    refine le_antisymm ?_ ?_
    · exact nonpos_of_mul_nonpos_left (by linarith : m * (z - y) ≤ 0) (sub_pos.mpr hyz)
    · exact nonneg_of_mul_nonneg_left (by linarith : 0 ≤ m * (y - x)) (sub_pos.mpr hxy)
  exact hkl ⟨hzero hleft hright (by linarith) (by linarith),
    hzero hbelow habove (by linarith) (by linarith)⟩

/-- The images of the corners make a polygon that ends where it begins. -/
theorem ofFinite?_image (hdet : t.determinant ≠ 0) (h : b.minY < b.maxY) :
    Polygon.ofFinite? (b.corners.map t.apply) =
      some ⟨(b.corners ++ [b.lowerLeft]).map t.apply⟩ := by
  have hopen : t.apply b.upperLeft ≠ t.apply b.lowerLeft := fun heq =>
    h.ne' (congrArg Point.y (GeoTransform.apply_injective hdet heq))
  rw [List.map_append]
  exact Polygon.ofFinite?_of_open (Nat.le_succ 2) fun heq => hopen (Option.some_inj.mp heq)

/-- The image of a point inside lies above that of one corner and below that of another. -/
theorem exists_image_lt (hdet : t.determinant ≠ 0) (h : b.Surrounds p) :
    (∃ q ∈ b.corners, (t.apply q).y < (t.apply p).y) ∧
      ∃ q ∈ b.corners, (t.apply p).y < (t.apply q).y := by
  -- the height of the image is an affine function, and constant only if there is no determinant
  have hnot : ¬(t.ry = 0 ∧ t.dy = 0) := by
    rintro ⟨hry, hdy⟩
    unfold GeoTransform.determinant at hdet
    rw [hry, hdy, mul_zero, mul_zero, sub_zero] at hdet
    exact hdet rfl
  constructor
  · have hnot' : ¬(-t.ry = 0 ∧ -t.dy = 0) := by rwa [neg_eq_zero, neg_eq_zero]
    obtain ⟨q, hq, hlt⟩ := exists_corner_gt h hnot' (-t.y0)
    refine ⟨q, hq, ?_⟩
    show t.ry * q.x + t.dy * q.y + t.y0 < t.ry * p.x + t.dy * p.y + t.y0
    linarith
  · exact exists_corner_gt h hnot t.y0

/-- The ring of the images of the corners contains the image of every point inside the box. -/
theorem contains_image (hdet : t.determinant ≠ 0) (h : b.Surrounds p) :
    ∃ g, Polygon.ofFinite? (b.corners.map t.apply) = some g ∧ g.contains (t.apply p) = true := by
  have hside : ∀ e ∈ edgesOf ((b.corners ++ [b.lowerLeft]).map t.apply),
      e.turn (t.apply p) = if 0 < t.determinant then .left else .right := by
    intro e he
    rw [edgesOf_map] at he
    obtain ⟨f, hf, rfl⟩ := List.mem_map.mp he
    exact turn_map hdet (turn_of_surrounds h hf)
  have hcorner : ∀ q ∈ b.corners, t.apply q ∈ (b.corners ++ [b.lowerLeft]).map t.apply :=
    fun q hq => List.mem_map_of_mem (List.mem_append_left _ hq)
  obtain ⟨⟨low, hlow, hlt⟩, high, hhigh, hgt⟩ := exists_image_lt hdet h
  refine ⟨_, ofFinite?_image hdet (h.2.1.trans h.2.2), Polygon.contains_of_turn rfl rfl ?_ hside
    ⟨_, hcorner low hlow, hlt.le⟩ ⟨_, hcorner high hhigh, hgt⟩⟩
  split <;> exact nofun

end Box

/-! ## The outline of a raster -/

/-- Whether a point lies inside the parallelogram with two given sides from a corner on. -/
def InParallelogram (corner right below p : Point Rat) : Prop :=
  ∃ s t : Rat, (0 < s ∧ s < 1) ∧ (0 < t ∧ t < 1) ∧
    p = ⟨corner.x + s * (right.x - corner.x) + t * (below.x - corner.x),
      corner.y + s * (right.y - corner.y) + t * (below.y - corner.y)⟩

namespace Affine

variable {t : GeoTransform Rat} {a : Affine Rat} {height width row col : Nat}

/-- A raster in its own pixels. -/
def pixelBox (height width : Nat) : Box Rat := ⟨0, 0, width, height⟩

/-- The centre of a pixel in pixels. -/
def pixelCenter (row col : Nat) : Point Rat := ⟨col + 1 / 2, row + 1 / 2⟩

theorem outline_eq (a : Affine Rat) (height width : Nat) :
    a.outline height width = (pixelBox height width).corners.map a.pixelToWorld := by
  unfold outline pixelBox Box.corners
  norm_num

theorem surrounds_pixelCenter (hrow : row < height) (hcol : col < width) :
    (pixelBox height width).Surrounds (pixelCenter row col) := by
  have hrow' : (row : Rat) + 1 ≤ height := by exact_mod_cast hrow
  have hcol' : (col : Rat) + 1 ≤ width := by exact_mod_cast hcol
  have hrow0 : (0 : Rat) ≤ row := row.cast_nonneg
  have hcol0 : (0 : Rat) ≤ col := col.cast_nonneg
  unfold pixelBox pixelCenter
  refine ⟨⟨?_, ?_⟩, ?_, ?_⟩ <;> dsimp only <;> linarith

/-- The image of the centre of a pixel lies between the images of the sides of the raster. -/
theorem inParallelogram_pixelCenter (a : Affine Rat) (hrow : row < height) (hcol : col < width) :
    InParallelogram (a.pixelToWorld ⟨0, 0⟩) (a.pixelToWorld ⟨width, 0⟩)
      (a.pixelToWorld ⟨0, height⟩) (a.pixelToWorld (pixelCenter row col)) := by
  obtain ⟨⟨hx, hx'⟩, hy, hy'⟩ := surrounds_pixelCenter hrow hcol
  have hwidth : (0 : Rat) < width := hx.trans hx'
  have hheight : (0 : Rat) < height := hy.trans hy'
  refine ⟨(pixelCenter row col).x / width, (pixelCenter row col).y / height,
    ⟨div_pos hx hwidth, (div_lt_one hwidth).mpr hx'⟩,
    ⟨div_pos hy hheight, (div_lt_one hheight).mpr hy'⟩, congrArg₂ Point.mk ?_ ?_⟩ <;>
  · unfold pixelToWorld GeoTransform.apply
    field_simp
    ring

/-- Six coefficients make an affine map exactly when the determinant of its two steps is not zero. The
map then has these coefficients and takes columns along the first step and rows along the second. The
maps from pixels to coordinates and back undo each other. The outline of a raster is the image of its
corners in turn, and the centre of every pixel of the raster lies inside. -/
theorem exact_inverse (t : GeoTransform Rat) :
    ((∃ a, ofGeoTransform t = .ok a) ↔ t.dx * t.dy - t.rx * t.ry ≠ 0) ∧
    ∀ a, ofGeoTransform t = .ok a →
      a.toGeoTransform.toList = [t.x0, t.dx, t.rx, t.y0, t.ry, t.dy] ∧
      (∀ col row, a.pixelToWorld ⟨col, row⟩ =
        ⟨t.x0 + col * t.dx + row * t.rx, t.y0 + col * t.ry + row * t.dy⟩) ∧
      (∀ p, a.worldToPixel (a.pixelToWorld p) = p) ∧
      (∀ p, a.pixelToWorld (a.worldToPixel p) = p) ∧
      ∀ height width : Nat,
        a.outline height width =
          [⟨0, 0⟩, ⟨width, 0⟩, ⟨width, height⟩, ⟨0, height⟩].map a.pixelToWorld ∧
        ∀ row < height, ∀ col < width,
          InParallelogram (a.pixelToWorld ⟨0, 0⟩) (a.pixelToWorld ⟨width, 0⟩)
            (a.pixelToWorld ⟨0, height⟩) (a.pixelToWorld (pixelCenter row col)) ∧
          ∃ g, Polygon.ofFinite? (a.outline height width) = some g ∧
            g.contains (a.pixelToWorld (pixelCenter row col)) = true := by
  refine ⟨⟨fun ⟨a, ha⟩ => (ofGeoTransform_eq_ok.mp ha).1, fun hdet =>
    ⟨_, ofGeoTransform_eq_ok.mpr ⟨hdet, rfl⟩⟩⟩, fun a ha => ?_⟩
  obtain ⟨hdet, hforward⟩ := ofGeoTransform_eq_ok.mp ha
  refine ⟨by rw [hforward]; rfl, fun col row => ?_, worldToPixel_pixelToWorld ha,
    pixelToWorld_worldToPixel ha, fun height width => ⟨outline_eq a height width,
      fun row hrow col hcol => ⟨inParallelogram_pixelCenter a hrow hcol, ?_⟩⟩⟩
  · rw [hforward]
    exact congrArg₂ Point.mk (by ring) (by ring)
  · rw [outline_eq, hforward]
    exact Box.contains_image hdet (surrounds_pixelCenter hrow hcol)

section Example

/-- Pixels that are turned and sheared. -/
def skewed : GeoTransform Rat := ⟨100, 2, 1 / 2, 200, 3 / 10, -2⟩

theorem exact_inverse_skewed :
    ∃ a, ofGeoTransform skewed = .ok a ∧
      a.toGeoTransform.toList = [100, 2, 1 / 2, 200, 3 / 10, -2] ∧
      a.pixelToWorld ⟨10, 8⟩ = ⟨124, 187⟩ ∧ a.worldToPixel ⟨124, 187⟩ = ⟨10, 8⟩ ∧
      a.outline 2 3 = [⟨100, 200⟩, ⟨106, 2009 / 10⟩, ⟨107, 1969 / 10⟩, ⟨101, 196⟩] ∧
      ∃ g, Polygon.ofFinite? (a.outline 2 3) = some g ∧
        g.contains (a.pixelToWorld (pixelCenter 1 2)) = true := by
  obtain ⟨haccepted, hmap⟩ := exact_inverse skewed
  obtain ⟨a, ha⟩ := haccepted.mpr (by unfold skewed; norm_num)
  obtain ⟨hlist, himage, hback, -, houtline⟩ := hmap a ha
  obtain ⟨hring, hcentres⟩ := houtline 2 3
  have hpoint : a.pixelToWorld ⟨10, 8⟩ = ⟨124, 187⟩ := by
    rw [himage]
    unfold skewed
    norm_num
  refine ⟨a, ha, hlist, hpoint, hpoint ▸ hback ⟨10, 8⟩, ?_, (hcentres 1 (by decide) 2 (by decide)).2⟩
  rw [hring]
  simp only [List.map_cons, List.map_nil, himage]
  unfold skewed
  norm_num

end Example

end Affine

end Mosaic
