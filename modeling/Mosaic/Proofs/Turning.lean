import Mosaic.Geometry.Affine
import Mosaic.Proofs.Winding

/-!
# Rings that turn to one side

Seen from a point inside a convex polygon, every edge of the ring leads on to the same side. Then no
edge takes back what another one adds to the winding number, so a ring that has points above and below
winds round the point (`contains_of_turn`). Straight lines stay straight under an affine map, and the
sides stay as they are or change places all at once (`turn_map`).
-/

namespace Mosaic

/-- What a turn to one side counts, with opposite signs for the two sides. -/
def Turn.sign : Turn → Int
  | .left => 1
  | .straight => 0
  | .right => -1

namespace Polygon

variable {p : Point Rat} {side : Turn}

/-! ## Edges -/

section Edge

variable {e : Edge Rat}

theorem turn_eq_left : e.turn p = .left ↔ (products p e).2 < (products p e).1 := by
  rw [turn_eq]
  split
  · next h => exact iff_of_true rfl h
  · next h =>
    refine iff_of_false ?_ h
    split <;> exact nofun

theorem turn_eq_right : e.turn p = .right ↔ (products p e).1 < (products p e).2 := by
  rw [turn_eq]
  split
  · next h => exact iff_of_false nofun h.not_gt
  · split
    · next h => exact iff_of_true rfl h
    · next h => exact iff_of_false nofun h

/-- An edge that the point is not in line with counts how far it climbs past the point, if it climbs
in the direction of the turn, and nothing otherwise. -/
theorem winding?_of_turn (hside : side ≠ .straight) (h : e.turn p = side) :
    winding? p e =
      some (side.sign * max 0 (side.sign * (level p e.stop - level p e.start))) := by
  unfold winding? level
  rw [h]
  by_cases hstart : e.start.y ≤ p.y
  · rw [if_pos hstart, if_pos hstart]
    rcases lt_trichotomy p.y e.stop.y with hlt | heq | hlt
    · have hne : (e.stop.y == p.y) = false := beq_eq_false_iff_ne.mpr hlt.ne'
      rw [if_pos hlt.le, if_neg (not_le.mpr hlt), hne]
      cases side <;> first | rfl | contradiction
    · have hsame : (e.stop.y == p.y) = true := beq_iff_eq.mpr heq.symm
      rw [if_pos heq.le, if_pos heq.ge, hsame]
      cases side <;> first | rfl | contradiction
    · rw [if_neg (not_le.mpr hlt), if_pos hlt.le, sub_self, mul_zero, max_self, mul_zero]
  · rw [if_neg hstart, if_neg hstart]
    by_cases hstop : e.stop.y ≤ p.y
    · rw [if_pos hstop, if_pos hstop]
      cases side <;> first | rfl | contradiction
    · rw [if_neg hstop, if_neg hstop, sub_self, mul_zero, max_self, mul_zero]

end Edge

/-! ## Rings -/

/-- Along edges that turn to one side the climbs in that direction add up, whatever lies between. -/
theorem exists_windingOf?_of_turn (hside : side ≠ .straight) {q last : Point Rat}
    {rest : List (Point Rat)} (hlast : (q :: rest).getLast? = some last)
    (h : ∀ e ∈ edgesOf (q :: rest), e.turn p = side) :
    ∃ n : Int, windingOf? p (edgesOf (q :: rest)) = some (side.sign * n) ∧ ∀ r ∈ q :: rest,
      side.sign * (level p r - level p q) ≤ n ∧ side.sign * (level p last - level p r) ≤ n := by
  induction rest generalizing q with
  | nil =>
    obtain rfl : q = last := Option.some_inj.mp hlast
    refine ⟨0, by rw [mul_zero]; rfl, fun r hr => ?_⟩
    rw [List.mem_singleton.mp hr, sub_self, mul_zero]
    exact ⟨le_rfl, le_rfl⟩
  | cons q' rest ih =>
    obtain ⟨hedge, hedges⟩ := List.forall_mem_cons.mp h
    obtain ⟨n, hn, hclimb⟩ := ih hlast hedges
    refine ⟨max 0 (side.sign * (level p q' - level p q)) + n, ?_, fun r hr => ?_⟩
    · show (winding? p ⟨q, q'⟩).bind
        (fun k => (windingOf? p (edgesOf (q' :: rest))).bind fun l => some (k + l)) = _
      rw [winding?_of_turn hside hedge, hn, mul_add]
      rfl
    · have hnonneg := le_max_left 0 (side.sign * (level p q' - level p q))
      have hstep := le_max_right 0 (side.sign * (level p q' - level p q))
      rcases List.mem_cons.mp hr with rfl | hr
      · have hstart := hclimb q' List.mem_cons_self
        simp only [mul_sub] at hstart hstep hnonneg ⊢
        omega
      · have hrest := hclimb r hr
        simp only [mul_sub] at hrest hstep hnonneg ⊢
        omega

/-- A closed ring contains a point round which it turns to one side, if the ring does not lie as a
whole below or above the point. -/
theorem contains_of_turn {g : Polygon Rat} {q : Point Rat} {rest : List (Point Rat)}
    (hring : g.ring = q :: rest) (hclosed : (q :: rest).getLast? = some q)
    (hside : side ≠ .straight) (h : ∀ e ∈ g.edges, e.turn p = side)
    (hlow : ∃ r ∈ g.ring, r.y ≤ p.y) (hhigh : ∃ r ∈ g.ring, p.y < r.y) : g.contains p = true := by
  obtain ⟨low, hlow, hle⟩ := hlow
  obtain ⟨high, hhigh, hlt⟩ := hhigh
  unfold edges at h
  rw [hring] at h hlow hhigh
  obtain ⟨n, hn, hclimb⟩ := exists_windingOf?_of_turn hside hclosed h
  have hclimbLow := hclimb low hlow
  have hclimbHigh := hclimb high hhigh
  rw [level_of_le hle] at hclimbLow
  rw [level_of_lt hlt] at hclimbHigh
  -- one of the two points is not at the level of the first one, so the ring climbs there or back
  have hsign : side.sign = 1 ∨ side.sign = -1 := by
    cases side with
    | left => exact .inl rfl
    | right => exact .inr rfl
    | straight => exact absurd rfl hside
  have hzero : side.sign * n ≠ 0 := by
    rcases hsign with hsign | hsign <;> rw [hsign] at hclimbLow hclimbHigh ⊢ <;> omega
  refine contains_of_winding ?_ (by rw [edges, hring]; exact hn) hzero
  cases rest with
  | nil =>
    obtain rfl := List.mem_singleton.mp hlow
    obtain rfl := List.mem_singleton.mp hhigh
    exact absurd hlt (not_lt.mpr hle)
  | cons _ _ =>
    rw [hring]
    exact Nat.le_add_left 2 _

end Polygon

/-! ## Affine maps -/

section Apply

variable {t : GeoTransform Rat}

/-- The edge between the images of the ends of an edge. -/
def Edge.map (t : GeoTransform Rat) (e : Edge Rat) : Edge Rat := ⟨t.apply e.start, t.apply e.stop⟩

theorem edgesOf_map (points : List (Point Rat)) :
    Polygon.edgesOf (points.map t.apply) = (Polygon.edgesOf points).map (Edge.map t) := by
  induction points with
  | nil => rfl
  | cons q rest ih =>
    cases rest with
    | nil => rfl
    | cons q' rest => exact congrArg (_ :: ·) ih

/-- An affine map enlarges all areas alike. -/
theorem products_map (e : Edge Rat) (p : Point Rat) :
    (Polygon.products (t.apply p) (e.map t)).1 - (Polygon.products (t.apply p) (e.map t)).2 =
      t.determinant * ((Polygon.products p e).1 - (Polygon.products p e).2) := by
  unfold Polygon.products Edge.map GeoTransform.apply GeoTransform.determinant
  ring

/-- An affine map keeps turns to the left, or makes all of them turns to the right. -/
theorem turn_map {e : Edge Rat} {p : Point Rat} (hdet : t.determinant ≠ 0)
    (h : e.turn p = .left) :
    (e.map t).turn (t.apply p) = if 0 < t.determinant then .left else .right := by
  have hpos := sub_pos.mpr (Polygon.turn_eq_left.mp h)
  split
  · next hdet =>
    refine Polygon.turn_eq_left.mpr (sub_pos.mp ?_)
    rw [products_map]
    exact mul_pos hdet hpos
  · next hnot =>
    refine Polygon.turn_eq_right.mpr (sub_neg.mp ?_)
    rw [products_map]
    exact mul_neg_of_neg_of_pos ((not_lt.mp hnot).lt_of_ne hdet) hpos

end Apply

end Mosaic
