import Mosaic.Projection.Transformer
import Mosaic.Proofs.Tiling
import Mosaic.Proofs.Winding

/-!
# The outline of a box

A tile is carried over to a raster by points on its edges. The corners are among them, so the box
round the images encloses the image of the whole tile under every affine map (`encloses_image`), and
the ring of the points contains every point strictly inside the tile (`contains_outline`) and none
outside (`encloses_of_outline_contains`).
-/

namespace Mosaic

/-! ## Points on edges -/

/-- The points of a densified edge lie on it, before its end. -/
theorem mem_densifyEdge {count : Nat} {p q r : Point Rat} (h : r ∈ densifyEdge (count + 1) p q) :
    ∃ t : Rat, 0 ≤ t ∧ t < 1 ∧ r = ⟨p.x + (q.x - p.x) * t, p.y + (q.y - p.y) * t⟩ := by
  obtain ⟨s, hs, rfl⟩ := List.mem_map.mp h
  have hpos : (0 : Rat) < ((count + 1 : Nat) : Rat) := by positivity
  have hlt : (s : Rat) < ((count + 1 : Nat) : Rat) := Nat.cast_lt.mpr (List.mem_range.mp hs)
  exact ⟨(s : Rat) / ((count + 1 : Nat) : Rat), by positivity, (div_lt_one hpos).mpr hlt, rfl⟩

theorem densifyEdge_eq_cons (count : Nat) (p q : Point Rat) :
    ∃ rest, densifyEdge (count + 1) p q = p :: rest := by
  have hstart : (⟨p.x + (q.x - p.x) * ((0 : Nat) / (count + 1 : Nat)),
      p.y + (q.y - p.y) * ((0 : Nat) / (count + 1 : Nat))⟩ : Point Rat) = p := by
    rw [Nat.cast_zero, zero_div, mul_zero, mul_zero, add_zero, add_zero]
  unfold densifyEdge
  rw [List.range_succ_eq_map, List.map_cons]
  exact ⟨_, congrArg (· :: _) hstart⟩

/-- The last point of a densified edge is one of its points. -/
theorem exists_last_densifyEdge (count : Nat) (p q : Point Rat) :
    ∃ last ∈ densifyEdge (count + 1) p q, (densifyEdge (count + 1) p q).getLast? = some last := by
  obtain ⟨rest, hrest⟩ := densifyEdge_eq_cons count p q
  rw [hrest]
  exact ⟨_, List.getLast_mem (List.cons_ne_nil p rest), List.getLast?_eq_some_getLast _⟩

/-- The points of a densified edge keep the coordinate that both ends share. -/
theorem mem_side {count : Nat} {p q r : Point Rat} (h : r ∈ densifyEdge (count + 1) p q ++ [q]) :
    (p.x = q.x → r.x = q.x) ∧ (p.y = q.y → r.y = q.y) := by
  rcases List.mem_append.mp h with h | h
  · obtain ⟨t, -, -, rfl⟩ := mem_densifyEdge h
    constructor
    · intro hx
      show p.x + (q.x - p.x) * t = q.x
      rw [hx, sub_self, zero_mul, add_zero]
    · intro hy
      show p.y + (q.y - p.y) * t = q.y
      rw [hy, sub_self, zero_mul, add_zero]
  · rw [List.mem_singleton.mp h]
    exact ⟨fun _ => rfl, fun _ => rfl⟩

namespace Box

def lowerLeft (b : Box Rat) : Point Rat := ⟨b.minX, b.minY⟩

def lowerRight (b : Box Rat) : Point Rat := ⟨b.maxX, b.minY⟩

def upperRight (b : Box Rat) : Point Rat := ⟨b.maxX, b.maxY⟩

def upperLeft (b : Box Rat) : Point Rat := ⟨b.minX, b.maxY⟩

/-- The points on one edge of a box after the other. -/
def sides (b : Box Rat) (count : Nat) : List (Point Rat) :=
  densifyEdge (count + 1) b.lowerLeft b.lowerRight ++
    (densifyEdge (count + 1) b.lowerRight b.upperRight ++
      (densifyEdge (count + 1) b.upperRight b.upperLeft ++
        densifyEdge (count + 1) b.upperLeft b.lowerLeft))

theorem densify_corners {b : Box Rat} (h : b.minY < b.maxY) (count : Nat) :
    densify b.corners count = b.sides count := by
  have hsame : Point.same (⟨b.minX, b.minY⟩ : Point Rat) ⟨b.minX, b.maxY⟩ = false := by
    show (decide (b.minX = b.minX) && decide (b.minY = b.maxY)) = false
    rw [decide_eq_false h.ne, Bool.and_false]
  have hopen : Polygon.openRing b.corners = b.corners := by
    unfold Polygon.openRing corners
    simp only [List.getLast?_cons_cons, List.getLast?_singleton, hsame]
    rfl
  unfold densify
  rw [hopen]
  simp only [corners, sides, List.cons_append, List.nil_append, List.zip_cons_cons,
    List.zip_nil_left, List.flatMap_cons, List.flatMap_nil, List.append_nil]
  rfl

theorem corner_mem_sides {b : Box Rat} {count : Nat} {q : Point Rat} (h : q ∈ b.corners) :
    q ∈ b.sides count := by
  have hstart : ∀ p q : Point Rat, p ∈ densifyEdge (count + 1) p q := by
    intro p q
    obtain ⟨rest, hrest⟩ := densifyEdge_eq_cons count p q
    rw [hrest]
    exact List.mem_cons_self
  simp only [corners, List.mem_cons, List.not_mem_nil, or_false] at h
  simp only [sides, List.mem_append]
  rcases h with rfl | rfl | rfl | rfl
  · exact .inl (hstart _ _)
  · exact .inr (.inl (hstart _ _))
  · exact .inr (.inr (.inl (hstart _ _)))
  · exact .inr (.inr (.inr (hstart _ _)))

/-! ## The box round an image -/

theorem foldl_addPoint (points : List (Point Rat)) (b : Box Rat) :
    points.foldl addPoint (some b) = some ((points.map ofPoint).foldl union b) := by
  induction points generalizing b with
  | nil => rfl
  | cons p rest ih => exact ih (b.union (ofPoint p))

/-- Points have a box round them, and it encloses them all. -/
theorem ofPoints?_encloses {points : List (Point Rat)} (h : points ≠ []) :
    ∃ b, ofPoints? points = some b ∧ ∀ p ∈ points, b.Encloses (ofPoint p) := by
  have hfinite : points.filter Point.isFinite = points := List.filter_eq_self.mpr fun _ _ => rfl
  unfold ofPoints?
  rw [hfinite]
  cases points with
  | nil => exact absurd rfl h
  | cons p rest =>
    refine ⟨_, foldl_addPoint rest (ofPoint p), fun q hq => ?_⟩
    rcases List.mem_cons.mp hq with rfl | hq
    · exact foldl_union_encloses_start _ _
    · exact foldl_union_encloses (List.mem_map_of_mem hq) _

/-- A bound for the values of an affine function at the corners of a box is one for all its values
in the box. -/
theorem le_of_corners {b : Box Rat} {m k l c : Rat} (h : ∀ q ∈ b.corners, m ≤ k * q.x + l * q.y + c)
    {p : Point Rat} (hp : b.Encloses (ofPoint p)) : m ≤ k * p.x + l * p.y + c := by
  obtain ⟨hleft, hbelow, hright, habove⟩ := hp
  simp only [ofPoint] at hleft hbelow hright habove
  simp only [corners, List.mem_cons, List.not_mem_nil, or_false, forall_eq_or_imp, forall_eq] at h
  obtain ⟨h1, h2, h3, h4⟩ := h
  -- the least value lies at the corner that the signs of the coefficients pick
  rcases le_total 0 k with hk | hk <;> rcases le_total 0 l with hl | hl
  · linarith [mul_le_mul_of_nonneg_left hleft hk, mul_le_mul_of_nonneg_left hbelow hl]
  · linarith [mul_le_mul_of_nonneg_left hleft hk, mul_le_mul_of_nonpos_left habove hl]
  · linarith [mul_le_mul_of_nonpos_left hright hk, mul_le_mul_of_nonneg_left hbelow hl]
  · linarith [mul_le_mul_of_nonpos_left hright hk, mul_le_mul_of_nonpos_left habove hl]

theorem le_of_corners' {b : Box Rat} {m k l c : Rat}
    (h : ∀ q ∈ b.corners, k * q.x + l * q.y + c ≤ m) {p : Point Rat}
    (hp : b.Encloses (ofPoint p)) : k * p.x + l * p.y + c ≤ m := by
  have hneg : -m ≤ -k * p.x + -l * p.y + -c :=
    le_of_corners (fun q hq => by linarith [h q hq]) hp
  linarith

/-- The box round the images of points on the edges encloses the image of the whole box. -/
theorem encloses_image {b bounds : Box Rat} (h : b.minY < b.maxY) {count : Nat} {a : Affine Rat}
    (hbounds : ofPoints? ((densify b.corners count).map a.worldToPixel) = some bounds)
    {p : Point Rat} (hp : b.Encloses (ofPoint p)) :
    bounds.Encloses (ofPoint (a.worldToPixel p)) := by
  have hcorners : ∀ q ∈ b.corners, bounds.Encloses (ofPoint (a.worldToPixel q)) := by
    intro q hq
    rw [densify_corners h] at hbounds
    have hmem : a.worldToPixel q ∈ (b.sides count).map a.worldToPixel :=
      List.mem_map_of_mem (corner_mem_sides hq)
    obtain ⟨bounds', hbounds', henc⟩ := ofPoints?_encloses (List.ne_nil_of_mem hmem)
    rw [hbounds] at hbounds'
    cases hbounds'
    exact henc _ hmem
  exact ⟨le_of_corners (fun q hq => (hcorners q hq).left) hp,
    le_of_corners (fun q hq => (hcorners q hq).below) hp,
    le_of_corners' (fun q hq => (hcorners q hq).right) hp,
    le_of_corners' (fun q hq => (hcorners q hq).above) hp⟩

/-! ## The polygon of the points -/

theorem ofFinite?_densify {b : Box Rat} (h : b.minY < b.maxY) (count : Nat) :
    Polygon.ofFinite? (densify b.corners count) = some ⟨b.sides count ++ [b.lowerLeft]⟩ := by
  obtain ⟨first, hfirst⟩ := densifyEdge_eq_cons count b.lowerLeft b.lowerRight
  obtain ⟨last, hmem, hlast⟩ := exists_last_densifyEdge count b.upperLeft b.lowerLeft
  -- the last point comes before the end of its edge, so the ring is still open
  have hne : last ≠ b.lowerLeft := by
    obtain ⟨t, -, ht, rfl⟩ := mem_densifyEdge hmem
    intro heq
    have hy : b.maxY + (b.minY - b.maxY) * t = b.minY := congrArg Point.y heq
    have hzero : (b.maxY - b.minY) * (1 - t) = 0 := by linarith
    rcases mul_eq_zero.mp hzero with hzero | hzero <;> linarith
  rw [densify_corners h]
  unfold sides
  rw [hfirst, List.cons_append]
  refine Polygon.ofFinite?_of_open ?_ fun heq => hne ?_
  · simp only [densifyEdge, List.length_append, List.length_map, List.length_range]
    omega
  · rw [List.getLast?_append, List.getLast?_append, List.getLast?_append, hlast] at heq
    exact Option.some_inj.mp heq

/-- The outline of a box contains every point strictly inside. -/
theorem contains_outline {b : Box Rat} {p : Point Rat} (hx : b.minX < p.x ∧ p.x < b.maxX)
    (hy : b.minY < p.y ∧ p.y < b.maxY) {count : Nat} {g : Polygon Rat}
    (hg : Polygon.ofFinite? (densify b.corners count) = some g) : g.contains p = true := by
  rw [ofFinite?_densify (hy.1.trans hy.2)] at hg
  cases hg
  obtain ⟨right, hright⟩ := densifyEdge_eq_cons count b.lowerRight b.upperRight
  obtain ⟨top, htop⟩ := densifyEdge_eq_cons count b.upperRight b.upperLeft
  obtain ⟨left, hleft⟩ := densifyEdge_eq_cons count b.upperLeft b.lowerLeft
  have hbelow : Polygon.windingOf? p (Polygon.edgesOf
      (densifyEdge (count + 1) b.lowerLeft b.lowerRight ++ [b.lowerRight])) = some 0 :=
    Polygon.windingOf?_of_below fun q hq => by rw [(mem_side hq).2 rfl]; exact hy.1
  have heast : Polygon.windingOf? p (Polygon.edgesOf
      (densifyEdge (count + 1) b.lowerRight b.upperRight ++ [b.upperRight])) = some 1 := by
    have hall : ∀ q ∈ b.lowerRight :: (right ++ [b.upperRight]), p.x < q.x := by
      intro q hq
      rw [← List.cons_append, ← hright] at hq
      rw [(mem_side hq).1 rfl]
      exact hx.2
    rw [hright, List.cons_append,
      Polygon.windingOf?_of_east hall (List.getLast?_concat (l := b.lowerRight :: right)),
      Polygon.level_of_lt (q := b.upperRight) hy.2, Polygon.level_of_le (q := b.lowerRight) hy.1.le]
    rfl
  have habove : Polygon.windingOf? p (Polygon.edgesOf
      (densifyEdge (count + 1) b.upperRight b.upperLeft ++ [b.upperLeft])) = some 0 :=
    Polygon.windingOf?_of_above fun q hq => by rw [(mem_side hq).2 rfl]; exact hy.2
  have hwest : Polygon.windingOf? p (Polygon.edgesOf
      (densifyEdge (count + 1) b.upperLeft b.lowerLeft ++ [b.lowerLeft])) = some 0 :=
    Polygon.windingOf?_of_west fun q hq => by rw [(mem_side hq).1 rfl]; exact hx.1
  -- the four sides meet in the corners
  have hring := Polygon.windingOf?_join (by rw [hright]; rfl) hbelow
    (Polygon.windingOf?_join (by rw [htop]; rfl) heast
      (Polygon.windingOf?_join (by rw [hleft]; rfl) habove hwest))
  refine Polygon.contains_of_winding ?_ (n := 1) ?_ one_ne_zero
  · simp only [sides, densifyEdge, List.length_append, List.length_map, List.length_range]
    omega
  · show Polygon.windingOf? p (Polygon.edgesOf (b.sides count ++ [b.lowerLeft])) = some 1
    simp only [sides, List.append_assoc]
    exact hring

/-- A box encloses the edges between points that it encloses. -/
theorem encloses_densifyEdge {b : Box Rat} {p q r : Point Rat} (hp : b.Encloses (ofPoint p))
    (hq : b.Encloses (ofPoint q)) {count : Nat} (h : r ∈ densifyEdge (count + 1) p q) :
    b.Encloses (ofPoint r) := by
  obtain ⟨t, ht, ht', rfl⟩ := mem_densifyEdge h
  have hbetween : ∀ {lower upper x y : Rat}, lower ≤ x → x ≤ upper → lower ≤ y → y ≤ upper →
      lower ≤ x + (y - x) * t ∧ x + (y - x) * t ≤ upper := by
    intro lower upper x y hx hx' hy hy'
    have hmix : x + (y - x) * t = x * (1 - t) + y * t := by ring
    rw [hmix]
    have hrest : 0 ≤ 1 - t := by linarith
    constructor
    · linarith [mul_le_mul_of_nonneg_right hx hrest, mul_le_mul_of_nonneg_right hy ht]
    · linarith [mul_le_mul_of_nonneg_right hx' hrest, mul_le_mul_of_nonneg_right hy' ht]
  have hx := hbetween hp.left hp.right hq.left hq.right
  have hy := hbetween hp.below hp.above hq.below hq.above
  exact ⟨hx.1, hy.1, hx.2, hy.2⟩

theorem encloses_sides {b : Box Rat} (hx : b.minX ≤ b.maxX) (hy : b.minY ≤ b.maxY) {count : Nat}
    {r : Point Rat} (h : r ∈ b.sides count) : b.Encloses (ofPoint r) := by
  have hlowerLeft : b.Encloses (ofPoint b.lowerLeft) := ⟨le_rfl, le_rfl, hx, hy⟩
  have hlowerRight : b.Encloses (ofPoint b.lowerRight) := ⟨hx, le_rfl, le_rfl, hy⟩
  have hupperRight : b.Encloses (ofPoint b.upperRight) := ⟨hx, hy, le_rfl, le_rfl⟩
  have hupperLeft : b.Encloses (ofPoint b.upperLeft) := ⟨le_rfl, hy, hx, le_rfl⟩
  simp only [sides, List.mem_append] at h
  rcases h with h | h | h | h
  · exact encloses_densifyEdge hlowerLeft hlowerRight h
  · exact encloses_densifyEdge hlowerRight hupperRight h
  · exact encloses_densifyEdge hupperRight hupperLeft h
  · exact encloses_densifyEdge hupperLeft hlowerLeft h

/-- The outline of a box contains nothing outside the box. -/
theorem encloses_of_outline_contains {b : Box Rat} (hx : b.minX ≤ b.maxX) (hy : b.minY < b.maxY)
    {count : Nat} {g : Polygon Rat} (hg : Polygon.ofFinite? (densify b.corners count) = some g)
    {p : Point Rat} (hp : g.contains p = true) : b.Encloses (ofPoint p) := by
  rw [ofFinite?_densify hy] at hg
  cases hg
  have hring : ∀ r ∈ b.sides count ++ [b.lowerLeft], b.Encloses (ofPoint r) := by
    intro r hr
    rcases List.mem_append.mp hr with hr | hr
    · exact encloses_sides hx hy.le hr
    · rw [List.mem_singleton.mp hr]
      exact ⟨le_rfl, le_rfl, hx, hy.le⟩
  obtain ⟨bottom, hbottom⟩ := densifyEdge_eq_cons count b.lowerLeft b.lowerRight
  obtain ⟨rest, hrest⟩ : ∃ rest, b.sides count ++ [b.lowerLeft] = b.lowerLeft :: rest := by
    unfold sides
    rw [hbottom]
    exact ⟨_, rfl⟩
  have hclosed : (b.lowerLeft :: rest).getLast? = some b.lowerLeft := by
    rw [← hrest]
    exact List.getLast?_concat
  obtain ⟨⟨q1, hq1, h1⟩, ⟨q2, hq2, h2⟩, ⟨q3, hq3, h3⟩, ⟨q4, hq4, h4⟩⟩ :=
    Polygon.exists_of_contains hrest hclosed hp
  exact ⟨(hring q1 hq1).left.trans h1, (hring q3 hq3).below.trans h3,
    h2.trans (hring q2 hq2).right, h4.trans (hring q4 hq4).above⟩

end Box

end Mosaic
