import Mosaic.Load.Search
import Mosaic.Proofs.Outcome
import Mosaic.Proofs.Outline

/-!
# The box round a footprint, in exact arithmetic

Points put on the edges of a ring lie between its corners, and the corners stay. So a footprint has
the same smallest box however many points are put on its edges, and between the two systems of
longitude and latitude, where coordinates stay as they are, it has the same one in both
(`Dataset.holds_footprintIn`). A box that an index has computed with its own number of points is
therefore the box of the footprint that a search tests.
-/

namespace Mosaic

/-! ## Smallest boxes -/

namespace Box

theorem Encloses.antisymm {a b : Box Rat} (hab : Encloses a b) (hba : Encloses b a) : a = b := by
  obtain ⟨hleft, hbelow, hright, habove⟩ := hab
  obtain ⟨hleft', hbelow', hright', habove'⟩ := hba
  cases a
  cases b
  simp only [mk.injEq]
  exact ⟨hleft.antisymm hleft', hbelow.antisymm hbelow', hright'.antisymm hright,
    habove'.antisymm habove⟩

/-- A union is the smallest box that encloses both parts. -/
theorem encloses_union {outer a b : Box Rat} (ha : Encloses outer a) (hb : Encloses outer b) :
    Encloses outer (a.union b) := by
  constructor <;> simp only [union, Exact.minimum_eq, Exact.maximum_eq]
  · exact le_min ha.left hb.left
  · exact le_min ha.below hb.below
  · exact max_le ha.right hb.right
  · exact max_le ha.above hb.above

theorem encloses_foldl_union {outer start : Box Rat} {boxes : List (Box Rat)}
    (hstart : Encloses outer start) (h : ∀ b ∈ boxes, Encloses outer b) :
    Encloses outer (boxes.foldl union start) := by
  induction boxes generalizing start with
  | nil => exact hstart
  | cons b rest ih =>
    obtain ⟨hb, hrest⟩ := List.forall_mem_cons.mp h
    exact ih (encloses_union hstart hb) hrest

/-- Whether a box encloses all points of a list. -/
def Holds (b : Box Rat) (points : List (Point Rat)) : Prop :=
  ∀ p ∈ points, b.Encloses (ofPoint p)

theorem holds_append {b : Box Rat} {ps qs : List (Point Rat)} :
    b.Holds (ps ++ qs) ↔ b.Holds ps ∧ b.Holds qs := List.forall_mem_append

/-- The smallest box that encloses all points of a list. -/
structure Bounds (b : Box Rat) (points : List (Point Rat)) : Prop where
  holds : b.Holds points
  least : ∀ outer : Box Rat, outer.Holds points → outer.Encloses b

theorem bounds_singleton (p : Point Rat) : (ofPoint p).Bounds [p] := by
  refine ⟨?_, fun outer h => h p (List.mem_singleton_self p)⟩
  rintro q hq
  rw [List.mem_singleton.mp hq]
  exact Encloses.refl _

theorem Bounds.union {a b : Box Rat} {ps qs : List (Point Rat)} (ha : a.Bounds ps)
    (hb : b.Bounds qs) : (a.union b).Bounds (ps ++ qs) := by
  refine ⟨holds_append.mpr ⟨?_, ?_⟩, fun outer h => ?_⟩
  · exact fun p hp => (union_encloses_left a b).trans (ha.holds p hp)
  · exact fun p hp => (union_encloses_right a b).trans (hb.holds p hp)
  · obtain ⟨hps, hqs⟩ := holds_append.mp h
    exact encloses_union (ha.least outer hps) (hb.least outer hqs)

/-- A union over a list is the smallest box for all that its parts are the smallest boxes for. -/
theorem Bounds.foldl_union {α : Type} {points : α → List (Point Rat)} {parts : List α}
    {boxes : List (Box Rat)} (h : List.Forall₂ (fun a b => Bounds b (points a)) parts boxes)
    {start : Box Rat} {ps : List (Point Rat)} (hstart : start.Bounds ps) :
    (boxes.foldl Box.union start).Bounds (ps ++ parts.flatMap points) := by
  induction h generalizing start ps with
  | nil => rwa [List.flatMap_nil, List.append_nil]
  | cons hhead _ ih =>
    have := ih (hstart.union hhead)
    rwa [List.append_assoc] at this

/-- The smallest box that holds some points is made by uniting them. -/
theorem bounds_points (p : Point Rat) (rest : List (Point Rat)) :
    ((rest.map ofPoint).foldl union (ofPoint p)).Bounds (p :: rest) := by
  have hpoints : List.Forall₂ (fun q b => Box.Bounds b [q]) rest (rest.map ofPoint) := by
    rw [List.forall₂_map_right_iff]
    exact List.forall₂_same.mpr fun q _ => bounds_singleton q
  have hall := Bounds.foldl_union hpoints (bounds_singleton p)
  rwa [List.flatMap_singleton', List.singleton_append] at hall

/-- The box of a list of points is the smallest one that holds them. -/
theorem bounds_ofPoints? {points : List (Point Rat)} {b : Box Rat}
    (h : ofPoints? points = some b) : b.Bounds points := by
  have hfinite : points.filter Point.isFinite = points := List.filter_eq_self.mpr fun _ _ => rfl
  rw [ofPoints?, hfinite] at h
  cases points with
  | nil => cases h
  | cons p rest =>
    obtain rfl := Option.some_inj.mp ((foldl_addPoint rest (ofPoint p)).symm.trans h)
    exact bounds_points p rest

/-- Lists that lie in the same boxes have the same smallest box. -/
theorem Bounds.unique {a b : Box Rat} {ps qs : List (Point Rat)} (ha : a.Bounds ps)
    (hb : b.Bounds qs) (h : ∀ outer : Box Rat, outer.Holds ps ↔ outer.Holds qs) : a = b := by
  have hab : Encloses a b := hb.least a ((h a).mp ha.holds)
  have hba : Encloses b a := ha.least b ((h b).mpr hb.holds)
  exact hab.antisymm hba

end Box

/-- A union is the smallest box that encloses all boxes of a list. -/
theorem Catalog.unionOf?_eq_some {boxes : List (Box Rat)} (hne : boxes ≠ []) {u : Box Rat}
    (h : ∀ b ∈ boxes, u.Encloses b)
    (hleast : ∀ outer : Box Rat, (∀ b ∈ boxes, outer.Encloses b) → outer.Encloses u) :
    unionOf? boxes = some u := by
  cases boxes with
  | nil => exact absurd rfl hne
  | cons b rest =>
    obtain ⟨hb, hrest⟩ := List.forall_mem_cons.mp h
    refine congrArg some (Box.Encloses.antisymm (hleast _ ?_) (Box.encloses_foldl_union hb hrest))
    intro inner hinner
    rcases List.mem_cons.mp hinner with rfl | hinner
    · exact Box.foldl_union_encloses_start rest inner
    · exact Box.foldl_union_encloses hinner b

namespace Polygon

/-- A range of fractions is widened at the end that the next one lies behind. -/
theorem widenRange_eq {range : Rat × Rat} (h : range.1 ≤ range.2) (x : Rat) :
    widenRange range x = (min range.1 x, max range.2 x) := by
  unfold widenRange
  split
  · next hx => rw [min_eq_left (h.trans hx.le), max_eq_right hx.le]
  · next hx =>
    rw [max_eq_left (not_lt.mp hx)]
    split
    · next hx' => rw [min_eq_right hx'.le]
    · next hx' => rw [min_eq_left (not_lt.mp hx')]

/-- The box round a polygon is made by uniting its points. -/
theorem box?_cons (p : Point Rat) (rest : List (Point Rat)) :
    (⟨p :: rest⟩ : Polygon Rat).box? =
      some ((rest.map Box.ofPoint).foldl Box.union (Box.ofPoint p)) := by
  suffices general : ∀ xs ys : Rat × Rat, xs.1 ≤ xs.2 → ys.1 ≤ ys.2 →
      (let xs' := rest.foldl (fun range q => widenRange range q.x) xs
       let ys' := rest.foldl (fun range q => widenRange range q.y) ys
       (⟨xs'.1, ys'.1, xs'.2, ys'.2⟩ : Box Rat)) =
        (rest.map Box.ofPoint).foldl Box.union ⟨xs.1, ys.1, xs.2, ys.2⟩ from
    congrArg some (general (p.x, p.x) (p.y, p.y) le_rfl le_rfl)
  induction rest with
  | nil => exact fun _ _ _ _ => rfl
  | cons q rest ih =>
    intro xs ys hxs hys
    have hunion : (⟨xs.1, ys.1, xs.2, ys.2⟩ : Box Rat).union (Box.ofPoint q) =
        ⟨min xs.1 q.x, min ys.1 q.y, max xs.2 q.x, max ys.2 q.y⟩ := by
      simp only [Box.union, Box.ofPoint, Exact.minimum_eq, Exact.maximum_eq]
    rw [List.map_cons, List.foldl_cons, List.foldl_cons, List.foldl_cons, hunion,
      widenRange_eq hxs, widenRange_eq hys]
    exact ih _ _ ((min_le_left _ _).trans (hxs.trans (le_max_left _ _)))
      ((min_le_left _ _).trans (hys.trans (le_max_left _ _)))

/-- The box round a polygon is the smallest one. -/
theorem bounds_box? {g : Polygon Rat} {b : Box Rat} (h : g.box? = some b) : b.Bounds g.ring := by
  obtain ⟨ring⟩ := g
  cases ring with
  | nil => cases h
  | cons p rest =>
    rw [box?_cons] at h
    cases h
    exact Box.bounds_points p rest

/-! ## Rings -/

/-- Opening a ring drops a point only where it is there twice. -/
theorem mem_openRing {ring : List (Point Rat)} {p : Point Rat} : p ∈ openRing ring ↔ p ∈ ring := by
  unfold openRing
  split
  · next first second rest last hlast =>
    split
    · next hsame =>
      have hfirst : first = last := same_iff.mp hsame
      constructor
      · exact List.mem_of_mem_dropLast
      · intro hp
        rw [← List.dropLast_append_getLast? last hlast, List.mem_append] at hp
        rcases hp with hp | hp
        · exact hp
        · rw [List.mem_singleton.mp hp, ← hfirst]
          exact List.mem_cons_self
    · rfl
  · rfl

theorem mem_ofRing {ring : List (Point Rat)} {p : Point Rat} :
    p ∈ (ofRing ring).ring ↔ p ∈ ring := by
  unfold ofRing
  split
  · rfl
  · next first rest =>
    split
    · next hrest => rw [List.getLast?_eq_none_iff.mp hrest]
    · split
      · rfl
      · simp only [List.cons_append, List.mem_cons, List.mem_append, List.not_mem_nil, or_false]
        tauto

theorem mem_ofFinite? {ring : List (Point Rat)} {g : Polygon Rat} (h : ofFinite? ring = some g)
    {p : Point Rat} : p ∈ g.ring ↔ p ∈ ring := by
  have hfinite : ring.filter Point.isFinite = ring := List.filter_eq_self.mpr fun _ _ => rfl
  simp only [ofFinite?, hfinite] at h
  split at h
  · cases h
  · cases h
    exact mem_ofRing

/-- A polygon of finite points has a box. -/
theorem exists_box?_of_ofFinite? {ring : List (Point Rat)} {g : Polygon Rat}
    (h : ofFinite? ring = some g) : ∃ b, g.box? = some b := by
  obtain ⟨points⟩ := g
  cases points with
  | nil =>
    have hempty : ring = [] :=
      List.eq_nil_iff_forall_not_mem.mpr fun p hp => List.not_mem_nil ((mem_ofFinite? h).mpr hp)
    rw [hempty] at h
    cases h
  | cons p rest => exact ⟨_, box?_cons p rest⟩

end Polygon

/-! ## Points on the edges of a ring -/

/-- The points of a ring are among those on its edges. -/
theorem mem_densify {ring : List (Point Rat)} {p : Point Rat} (h : p ∈ ring) (count : Nat) :
    p ∈ densify ring count := by
  rw [← Polygon.mem_openRing] at h
  unfold densify
  split
  · next first second rest hopen =>
    rw [hopen] at h
    have hlength : (first :: second :: rest).length = (second :: rest ++ [first]).length := by simp
    obtain ⟨i, hi, rfl⟩ := List.mem_iff_getElem.mp h
    have hnext : i < (second :: rest ++ [first]).length := hlength ▸ hi
    have hzip : i < ((first :: second :: rest).zip (second :: rest ++ [first])).length := by
      rw [List.length_zip, ← hlength, min_self]
      exact hi
    refine List.mem_flatMap.mpr ⟨_, List.getElem_mem hzip, ?_⟩
    rw [List.getElem_zip]
    obtain ⟨others, hothers⟩ := densifyEdge_eq_cons count (first :: second :: rest)[i]
      (second :: rest ++ [first])[i]
    rw [hothers]
    exact List.mem_cons_self
  · exact h

/-- The points on the edges of a ring lie in the boxes in which the ring lies. -/
theorem holds_densify {ring : List (Point Rat)} {b : Box Rat} {count : Nat} :
    b.Holds (densify ring count) ↔ b.Holds ring := by
  constructor
  · exact fun h p hp => h p (mem_densify hp count)
  · intro h r hr
    have hopen : b.Holds (Polygon.openRing ring) := fun p hp => h p (Polygon.mem_openRing.mp hp)
    unfold densify at hr
    split at hr
    · next first second rest hring =>
      rw [hring] at hopen
      obtain ⟨⟨p, q⟩, he, hr⟩ := List.mem_flatMap.mp hr
      obtain ⟨hp, hq⟩ := List.of_mem_zip he
      have hq : q ∈ first :: second :: rest := by
        simp only [List.mem_append, List.mem_cons, List.not_mem_nil, or_false] at hq ⊢
        tauto
      exact Box.encloses_densifyEdge (hopen p hp) (hopen q hq) hr
    · exact hopen r hr

/-! ## Footprints in longitude and latitude -/

theorem Transformer.isIdentity_of_geographic {source target : Crs}
    (hsource : source.isGeographic = true) (htarget : target.isGeographic = true) :
    (Transformer.mk source target).isIdentity = true := by
  simp only [isIdentity, hsource, htarget, Bool.and_self, Bool.or_true]

namespace Dataset

variable [Reprojection Rat] {d : Dataset Rat} {crs : Crs}

theorem footprintIn_geographic (hd : d.crs.isGeographic = true) (hcrs : crs.isGeographic = true)
    (count : Nat) : d.footprintIn crs count =
      if crs = d.crs then .ok d.footprint
      else
        match Polygon.ofFinite? (densify d.footprint.points count) with
        | some g => .ok g
        | none => .error (.failed (d.notExpressible crs)) := by
  unfold footprintIn
  split
  · rfl
  · rw [Transformer.applyAll, if_pos (Transformer.isIdentity_of_geographic hd hcrs),
      Stop.liftAbort_ok, ok_bind]
    cases Polygon.ofFinite? (densify d.footprint.points count) <;> rfl

/-- A footprint lies in the same boxes in both systems of longitude and latitude, however many
points are put on its edges. -/
theorem holds_footprintIn (hd : d.crs.isGeographic = true) (hcrs : crs.isGeographic = true)
    {count : Nat} {g : Polygon Rat} (h : d.footprintIn crs count = .ok g) (b : Box Rat) :
    b.Holds g.ring ↔ b.Holds d.footprint.ring := by
  rw [footprintIn_geographic hd hcrs] at h
  split at h
  · cases h
    rfl
  · split at h
    · next g' hg =>
      cases h
      have hring : b.Holds g.ring ↔ b.Holds (densify d.footprint.points count) :=
        forall_congr' fun p => by rw [Polygon.mem_ofFinite? hg]
      have hpoints : b.Holds d.footprint.points ↔ b.Holds d.footprint.ring :=
        forall_congr' fun p => by rw [Polygon.points, Polygon.mem_openRing]
      rw [hring, holds_densify, hpoints]
    · cases h

end Dataset

end Mosaic
