import Mosaic.Geometry.Polygon
import Mosaic.Proofs.Exact

/-!
# Winding numbers in exact arithmetic

How often a ring winds round a point is counted edge by edge, along the way from the point eastward.
An edge that lies as a whole below, above or to the west of the point adds nothing. Edges to the
east add up to how far they climb past the point, so a ring there adds nothing either, and a polygon
contains only points of the box round it (`exists_of_contains`).
-/

namespace Mosaic.Polygon

variable {p : Point Rat}

/-- Whether a point lies above the height of another one, as a number. -/
def level (p q : Point Rat) : Int := if q.y ≤ p.y then 0 else 1

theorem level_of_le {q : Point Rat} (h : q.y ≤ p.y) : level p q = 0 := if_pos h

theorem level_of_lt {q : Point Rat} (h : p.y < q.y) : level p q = 1 := if_neg (not_le.mpr h)

/-! ## One edge -/

section Edge

variable {e : Edge Rat}

/-- The two products whose order tells the turn of the way along an edge and on to a point. -/
def products (p : Point Rat) (e : Edge Rat) : Rat × Rat :=
  ((e.start.x - p.x) * (e.stop.y - p.y), (e.start.y - p.y) * (e.stop.x - p.x))

theorem turn_eq (e : Edge Rat) (p : Point Rat) :
    e.turn p =
      if (products p e).2 < (products p e).1 then .left
      else if (products p e).1 < (products p e).2 then .right
      else .straight := rfl

theorem not_between {x a b : Rat} (h : (x < a ∧ x < b) ∨ (a < x ∧ b < x)) :
    Edge.between x a b = false := by
  show (if a < b then decide (a ≤ x) && decide (x ≤ b)
    else decide (b ≤ x) && decide (x ≤ a)) = false
  rcases h with ⟨ha, hb⟩ | ⟨ha, hb⟩
  · rw [decide_eq_false (not_le.mpr ha), decide_eq_false (not_le.mpr hb)]
    simp
  · rw [decide_eq_false (not_le.mpr ha), decide_eq_false (not_le.mpr hb)]
    simp

theorem winding?_of_below (h : e.start.y < p.y) (h' : e.stop.y < p.y) : winding? p e = some 0 := by
  unfold winding?
  rw [if_pos h.le, if_neg (not_le.mpr h')]

theorem winding?_of_above (h : p.y < e.start.y) (h' : p.y < e.stop.y) : winding? p e = some 0 := by
  unfold winding?
  rw [if_neg (not_le.mpr h), if_neg (not_le.mpr h')]

/-- An edge to the west turns away from the way eastward. -/
theorem winding?_of_west (h : e.start.x < p.x) (h' : e.stop.x < p.x) : winding? p e = some 0 := by
  have hbetween := not_between (.inr ⟨h, h'⟩)
  unfold winding?
  by_cases hstart : e.start.y ≤ p.y
  · rw [if_pos hstart]
    by_cases hstop : p.y ≤ e.stop.y
    · have hleft : ¬(products p e).2 < (products p e).1 := by
        have h1 := mul_nonneg_of_nonpos_of_nonpos (sub_nonpos.mpr hstart) (sub_neg.mpr h').le
        have h2 := mul_nonpos_of_nonpos_of_nonneg (sub_neg.mpr h).le (sub_nonneg.mpr hstop)
        exact not_lt.mpr (h2.trans h1)
      rw [if_pos hstop, turn_eq, if_neg hleft]
      split
      · next heq => split at heq <;> cases heq
      · simp [hbetween]
      · rfl
    · rw [if_neg hstop]
  · rw [if_neg hstart]
    by_cases hstop : e.stop.y ≤ p.y
    · have hleft : (products p e).2 < (products p e).1 := by
        have h1 := mul_neg_of_pos_of_neg (sub_pos.mpr (not_le.mp hstart)) (sub_neg.mpr h')
        have h2 := mul_nonneg_of_nonpos_of_nonpos (sub_neg.mpr h).le (sub_nonpos.mpr hstop)
        exact h1.trans_le h2
      rw [if_pos hstop, turn_eq, if_pos hleft]
    · rw [if_neg hstop]

/-- An edge to the east counts how far it climbs past the point. -/
theorem winding?_of_east (h : p.x < e.start.x) (h' : p.x < e.stop.x) :
    winding? p e = some (level p e.stop - level p e.start) := by
  have hbetween := not_between (.inl ⟨h, h'⟩)
  unfold winding? level
  by_cases hstart : e.start.y ≤ p.y
  · rw [if_pos hstart, if_pos hstart]
    by_cases hstop : p.y ≤ e.stop.y
    · rw [if_pos hstop, turn_eq]
      rcases hstop.lt_or_eq with hlt | heq
      · have hleft : (products p e).2 < (products p e).1 := by
          have h1 := mul_nonpos_of_nonpos_of_nonneg (sub_nonpos.mpr hstart) (sub_pos.mpr h').le
          have h2 := mul_pos (sub_pos.mpr h) (sub_pos.mpr hlt)
          exact h1.trans_lt h2
        have hne : (e.stop.y == p.y) = false := beq_eq_false_iff_ne.mpr hlt.ne'
        rw [if_pos hleft, if_neg (not_le.mpr hlt)]
        simp [hne]
      · -- an edge that ends at the height of the point does not climb past it
        have hzero : (products p e).1 = 0 := by
          rw [products, ← heq, sub_self, mul_zero]
        have hsame : (e.stop.y == p.y) = true := beq_iff_eq.mpr heq.symm
        rw [hzero, if_pos heq.ge]
        rcases hstart.lt_or_eq with hlt | heq'
        · have hneg : (products p e).2 < 0 :=
            mul_neg_of_neg_of_pos (sub_neg.mpr hlt) (sub_pos.mpr h')
          rw [if_pos hneg]
          simp [hsame]
        · have hzero' : (products p e).2 = 0 := by
            rw [products, heq', sub_self, zero_mul]
          rw [hzero', if_neg (lt_irrefl _), if_neg (lt_irrefl _)]
          simp [hbetween]
    · rw [if_neg hstop, if_pos (not_le.mp hstop).le]
      rfl
  · rw [if_neg hstart, if_neg hstart]
    by_cases hstop : e.stop.y ≤ p.y
    · have hright : (products p e).1 < (products p e).2 := by
        have h1 := mul_nonpos_of_nonneg_of_nonpos (sub_pos.mpr h).le (sub_nonpos.mpr hstop)
        have h2 := mul_pos (sub_pos.mpr (not_le.mp hstart)) (sub_pos.mpr h')
        exact h1.trans_lt h2
      rw [if_pos hstop, if_pos hstop, turn_eq, if_neg hright.not_gt, if_pos hright]
      rfl
    · rw [if_neg hstop, if_neg hstop]
      rfl

end Edge

/-! ## Many edges -/

theorem windingOf?_append {es fs : List (Edge Rat)} {n m : Int} (h : windingOf? p es = some n)
    (h' : windingOf? p fs = some m) : windingOf? p (es ++ fs) = some (n + m) := by
  induction es generalizing n with
  | nil =>
    cases h
    rw [List.nil_append, h', zero_add]
  | cons e rest ih =>
    obtain ⟨k, hk, hrest⟩ := Option.bind_eq_some_iff.mp h
    obtain ⟨l, hl, hsum⟩ := Option.bind_eq_some_iff.mp hrest
    cases hsum
    show (winding? p e).bind (fun k => (windingOf? p (rest ++ fs)).bind fun l => some (k + l)) = _
    rw [hk, Option.bind_some, ih hl, Option.bind_some, add_assoc]

theorem windingOf?_eq_zero {es : List (Edge Rat)} (h : ∀ e ∈ es, winding? p e = some 0) :
    windingOf? p es = some 0 := by
  induction es with
  | nil => rfl
  | cons e rest ih =>
    have hrest := ih fun f hf => h f (List.mem_cons_of_mem e hf)
    show (winding? p e).bind (fun k => (windingOf? p rest).bind fun l => some (k + l)) = _
    rw [h e List.mem_cons_self, hrest]
    rfl

/-- The edges of a ring from one of its points on follow those up to that point. -/
theorem edgesOf_append (xs : List (Point Rat)) (q : Point Rat) (ys : List (Point Rat)) :
    edgesOf (xs ++ q :: ys) = edgesOf (xs ++ [q]) ++ edgesOf (q :: ys) := by
  induction xs with
  | nil => rfl
  | cons x rest ih =>
    cases rest with
    | nil => rfl
    | cons x' rest => exact congrArg (_ :: ·) ih

/-- Two ways that meet in a point wind as often as both together. -/
theorem windingOf?_join {xs ys ys' : List (Point Rat)} {q : Point Rat} (hys : ys = q :: ys')
    {n m : Int} (h : windingOf? p (edgesOf (xs ++ [q])) = some n)
    (h' : windingOf? p (edgesOf ys) = some m) :
    windingOf? p (edgesOf (xs ++ ys)) = some (n + m) := by
  rw [hys] at h' ⊢
  rw [edgesOf_append]
  exact windingOf?_append h h'

theorem mem_of_mem_edgesOf {points : List (Point Rat)} {e : Edge Rat} (h : e ∈ edgesOf points) :
    e.start ∈ points ∧ e.stop ∈ points := by
  induction points with
  | nil => cases h
  | cons q rest ih =>
    cases rest with
    | nil => cases h
    | cons q' rest =>
      rcases List.mem_cons.mp h with rfl | h
      · exact ⟨List.mem_cons_self, List.mem_cons_of_mem q List.mem_cons_self⟩
      · obtain ⟨hstart, hstop⟩ := ih h
        exact ⟨List.mem_cons_of_mem q hstart, List.mem_cons_of_mem q hstop⟩

theorem windingOf?_of_below {points : List (Point Rat)} (h : ∀ q ∈ points, q.y < p.y) :
    windingOf? p (edgesOf points) = some 0 :=
  windingOf?_eq_zero fun _ he =>
    winding?_of_below (h _ (mem_of_mem_edgesOf he).1) (h _ (mem_of_mem_edgesOf he).2)

theorem windingOf?_of_above {points : List (Point Rat)} (h : ∀ q ∈ points, p.y < q.y) :
    windingOf? p (edgesOf points) = some 0 :=
  windingOf?_eq_zero fun _ he =>
    winding?_of_above (h _ (mem_of_mem_edgesOf he).1) (h _ (mem_of_mem_edgesOf he).2)

theorem windingOf?_of_west {points : List (Point Rat)} (h : ∀ q ∈ points, q.x < p.x) :
    windingOf? p (edgesOf points) = some 0 :=
  windingOf?_eq_zero fun _ he =>
    winding?_of_west (h _ (mem_of_mem_edgesOf he).1) (h _ (mem_of_mem_edgesOf he).2)

/-- Along a way to the east the climbs past the point add up. -/
theorem windingOf?_of_east {q last : Point Rat} {rest : List (Point Rat)}
    (h : ∀ r ∈ q :: rest, p.x < r.x) (hlast : (q :: rest).getLast? = some last) :
    windingOf? p (edgesOf (q :: rest)) = some (level p last - level p q) := by
  induction rest generalizing q with
  | nil =>
    cases hlast
    show some 0 = some (level p q - level p q)
    rw [sub_self]
  | cons q' rest ih =>
    have hrest := ih (fun r hr => h r (List.mem_cons_of_mem q hr)) hlast
    have hq := h q List.mem_cons_self
    have hq' := h q' (List.mem_cons_of_mem q List.mem_cons_self)
    show (winding? p ⟨q, q'⟩).bind
      (fun k => (windingOf? p (edgesOf (q' :: rest))).bind fun l => some (k + l)) = _
    rw [winding?_of_east hq hq', hrest, Option.bind_some, Option.bind_some, sub_add_sub_cancel']

/-! ## Polygons -/

theorem same_iff {p q : Point Rat} : p.same q = true ↔ p = q := by
  obtain ⟨x, y⟩ := p
  obtain ⟨x', y'⟩ := q
  show (decide (x = x') && decide (y = y')) = true ↔ _
  rw [Bool.and_eq_true, decide_eq_true_eq, decide_eq_true_eq, Point.mk.injEq]

/-- A polygon of an open ring of three points or more goes on to its first point. -/
theorem ofFinite?_of_open {first : Point Rat} {rest : List (Point Rat)}
    (hlength : 2 ≤ rest.length) (hopen : rest.getLast? ≠ some first) :
    ofFinite? (first :: rest) = some ⟨first :: rest ++ [first]⟩ := by
  have hfinite : (first :: rest).filter Point.isFinite = first :: rest :=
    List.filter_eq_self.mpr fun _ _ => rfl
  have hthree : ¬(first :: rest).length < 3 := by
    rw [List.length_cons]
    omega
  unfold ofFinite?
  simp only [hfinite, if_neg hthree]
  unfold ofRing
  cases hlast : rest.getLast? with
  | none =>
    rw [List.getLast?_eq_none_iff.mp hlast] at hlength
    exact absurd hlength (by decide)
  | some last =>
    have hsame : ¬first.same last = true := fun heq =>
      hopen (by rw [hlast, same_iff.mp heq])
    simp only [hlast, if_neg hsame]

variable {g : Polygon Rat}

theorem contains_of_winding (hring : 2 ≤ g.ring.length) {n : Int}
    (h : windingOf? p g.edges = some n) (hn : n ≠ 0) : g.contains p = true := by
  have hlocate : g.locate p = .inside := by
    unfold locate
    rw [h]
    split
    · next hnil => simp [hnil] at hring
    · next hsingle => simp [hsingle] at hring
    · split
      · next heq => cases heq
      · next heq => exact absurd (Option.some.inj heq) hn
      · rfl
  unfold contains
  rw [hlocate]
  rfl

theorem not_contains_of_winding (h : windingOf? p g.edges = some 0) : g.contains p = false := by
  unfold contains locate
  split
  · rfl
  · split <;> rfl
  · rw [h]
    rfl

/-- A closed ring contains only points of the box round it. -/
theorem exists_of_contains {q : Point Rat} {rest : List (Point Rat)} (hring : g.ring = q :: rest)
    (hclosed : (q :: rest).getLast? = some q) (h : g.contains p = true) :
    (∃ r ∈ g.ring, r.x ≤ p.x) ∧ (∃ r ∈ g.ring, p.x ≤ r.x) ∧ (∃ r ∈ g.ring, r.y ≤ p.y) ∧
      ∃ r ∈ g.ring, p.y ≤ r.y := by
  have hnot : windingOf? p g.edges ≠ some 0 := by
    intro hzero
    rw [not_contains_of_winding hzero] at h
    cases h
  -- a ring that lies as a whole to one side of the point does not wind round it
  refine ⟨?_, ?_, ?_, ?_⟩ <;> by_contra! hall
  · refine hnot ?_
    rw [hring] at hall
    rw [edges, hring, windingOf?_of_east hall hclosed, sub_self]
  · exact hnot (windingOf?_of_west hall)
  · exact hnot (windingOf?_of_above hall)
  · exact hnot (windingOf?_of_below hall)

end Mosaic.Polygon
