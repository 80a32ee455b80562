import Mosaic.Proofs.Footprint

/-!
# Rings with points on their edges, in exact arithmetic

A ring of `n` points with `count` points on every edge is `n` runs of `count + 1` points, one after the
other: each begins with a point of the ring and goes on at equal steps towards the next one, the last
run back to the first point (`getElem?_densify`). It does not matter whether the ring repeats its first
point at the end. The new points lie between the old ones, so the smallest box stays the same
(`densify_keeps_shape`).
-/

namespace Mosaic

/-! ## Runs of equal length -/

section Runs

variable {α β : Type} {f : α → List β} {width : Nat}

theorem length_flatMap_of_length {l : List α} (h : ∀ a ∈ l, (f a).length = width) :
    (l.flatMap f).length = l.length * width := by
  rw [List.length_flatMap, List.map_congr_left h, List.map_const', List.sum_replicate_nat]

/-- The elements of runs of one length that are put one after the other. -/
theorem getElem?_flatMap_of_length {l : List α} (h : ∀ a ∈ l, (f a).length = width) {i j : Nat}
    {a : α} (hi : l[i]? = some a) (hj : j < width) :
    (l.flatMap f)[i * width + j]? = (f a)[j]? := by
  induction l generalizing i with
  | nil => cases hi
  | cons first rest ih =>
    obtain ⟨hfirst, hrest⟩ := List.forall_mem_cons.mp h
    rw [List.flatMap_cons]
    cases i with
    | zero =>
      cases hi
      rw [Nat.zero_mul, Nat.zero_add, List.getElem?_append_left (hfirst ▸ hj)]
    | succ i =>
      have hshift : (i + 1) * width + j = (f first).length + (i * width + j) := by
        rw [hfirst, Nat.succ_mul]
        omega
      rw [hshift, List.getElem?_append_right (Nat.le_add_right _ _), Nat.add_sub_cancel_left]
      exact ih hrest hi

end Runs

/-! ## Open and closed rings -/

namespace Polygon

variable {ring : List (Point Rat)}

/-- A ring that ends elsewhere than it begins is open. -/
theorem openRing_of_open (h : ring.head? ≠ ring.getLast?) : openRing ring = ring := by
  unfold openRing
  split
  · next first second rest last hlast =>
    have hne : first ≠ last := fun heq => h (by rw [hlast, ← heq, List.head?_cons])
    rw [if_neg (same_iff.not.mpr hne)]
  · rfl

/-- A ring that is closed by its first point is open without it. -/
theorem openRing_concat {first : Point Rat} (h : ring.head? = some first) :
    openRing (ring ++ [first]) = ring := by
  obtain ⟨rest, rfl⟩ : ∃ rest, ring = first :: rest := List.head?_eq_some_iff.mp h
  unfold openRing
  rw [List.getLast?_concat]
  split
  · next p second others last hring hlast =>
    obtain rfl := Option.some_inj.mp hlast
    obtain ⟨rfl, -⟩ := List.cons.inj hring
    rw [if_pos (same_iff.mpr rfl), List.dropLast_concat]
  · next hnot =>
    cases rest with
    | nil => exact (hnot first first [] first rfl rfl).elim
    | cons second rest => exact (hnot first second (rest ++ [first]) first rfl rfl).elim

end Polygon

/-! ## Points in their order -/

/-- The point on the way from one point straight to another, at a part of the way. -/
def Point.towards (p q : Point Rat) (part : Rat) : Point Rat :=
  ⟨p.x + (q.x - p.x) * part, p.y + (q.y - p.y) * part⟩

@[simp] theorem Point.towards_zero (p q : Point Rat) : p.towards q 0 = p := by
  rw [towards, mul_zero, mul_zero, add_zero, add_zero]

theorem getElem?_densifyEdge {steps s : Nat} (h : s < steps) (p q : Point Rat) :
    (densifyEdge steps p q)[s]? = some (p.towards q (s / steps)) := by
  unfold densifyEdge
  rw [List.getElem?_map, List.getElem?_range h]
  rfl

theorem length_densifyEdge (steps : Nat) (p q : Point Rat) :
    (densifyEdge steps p q).length = steps := by
  rw [densifyEdge, List.length_map, List.length_range]

/-- The runs of points from each point of an open ring towards the next one. -/
theorem densify_eq_flatMap {ring : List (Point Rat)} (hlength : 2 ≤ ring.length)
    (hopen : Polygon.openRing ring = ring) (count : Nat) :
    densify ring count =
      (ring.zip (ring.rotate 1)).flatMap fun e => densifyEdge (count + 1) e.1 e.2 := by
  unfold densify
  rw [hopen]
  match ring with
  | p :: q :: rest => rw [List.rotate_cons_succ, List.rotate_zero]

section Ring

variable {ring : List (Point Rat)} (hlength : 2 ≤ ring.length)
  (hopen : ring.head? ≠ ring.getLast?) (count : Nat)

include hlength hopen

theorem length_densify : (densify ring count).length = ring.length * (count + 1) := by
  rw [densify_eq_flatMap hlength (Polygon.openRing_of_open hopen),
    length_flatMap_of_length fun e _ => length_densifyEdge (count + 1) e.1 e.2, List.length_zip,
    List.length_rotate, min_self]

/-- The points of a ring come in turn, each followed by the points on the edge to the next one. -/
theorem getElem?_densify {i s : Nat} {p q : Point Rat} (hp : ring[i]? = some p)
    (hq : ring[(i + 1) % ring.length]? = some q) (hs : s < count + 1) :
    (densify ring count)[i * (count + 1) + s]? = some (p.towards q (s / (count + 1 : Nat))) := by
  obtain ⟨hi, -⟩ := List.getElem?_eq_some_iff.mp hp
  have hedge : (ring.zip (ring.rotate 1))[i]? = some (p, q) := by
    rw [List.getElem?_zip_eq_some, List.getElem?_rotate hi]
    exact ⟨hp, hq⟩
  rw [densify_eq_flatMap hlength (Polygon.openRing_of_open hopen),
    getElem?_flatMap_of_length (fun e _ => length_densifyEdge (count + 1) e.1 e.2) hedge hs]
  exact getElem?_densifyEdge hs p q

end Ring

/-- The smallest box round a ring is that round the points on its edges. -/
theorem ofPoints?_densify (ring : List (Point Rat)) (count : Nat) :
    Box.ofPoints? (densify ring count) = Box.ofPoints? ring := by
  cases ring with
  | nil => rfl
  | cons p rest =>
    have hp : p ∈ p :: rest := List.mem_cons_self
    obtain ⟨b, hb, -⟩ := Box.ofPoints?_encloses (List.ne_nil_of_mem hp)
    obtain ⟨b', hb', -⟩ := Box.ofPoints?_encloses (List.ne_nil_of_mem (mem_densify hp count))
    rw [hb, hb']
    exact congrArg some ((Box.bounds_ofPoints? hb').unique (Box.bounds_ofPoints? hb) fun _ =>
      holds_densify)

/-- Points put on the edges of an open ring of two points or more keep its shape. Every point of the
ring is followed by `count` points at equal steps to the next one, and the last by as many to the first.
A ring that repeats its first point at the end gives the same points. The smallest box round all points
is the one round the ring. -/
theorem densify_keeps_shape {ring : List (Point Rat)} (hlength : 2 ≤ ring.length)
    (hopen : ring.head? ≠ ring.getLast?) (count : Nat) :
    (densify ring count).length = ring.length * (count + 1) ∧
    (∀ i p q, ring[i]? = some p → ring[(i + 1) % ring.length]? = some q →
      (densify ring count)[i * (count + 1)]? = some p ∧
      ∀ s < count + 1, ∃ part : Rat, 0 ≤ part ∧ part < 1 ∧ part = s / (count + 1) ∧
        (densify ring count)[i * (count + 1) + s]? = some (p.towards q part)) ∧
    (∀ first, ring.head? = some first → densify (ring ++ [first]) count = densify ring count) ∧
    Box.ofPoints? (densify ring count) = Box.ofPoints? ring := by
  refine ⟨length_densify hlength hopen count, fun i p q hp hq => ⟨?_, fun s hs => ?_⟩,
    fun first hfirst => ?_, ofPoints?_densify ring count⟩
  · have hstart := getElem?_densify hlength hopen count hp hq (Nat.succ_pos count)
    rwa [Nat.add_zero, Nat.cast_zero, zero_div, Point.towards_zero] at hstart
  · have hpoint := getElem?_densify hlength hopen count hp hq hs
    have hsteps : (0 : Rat) < count + 1 := by positivity
    have hlt : (s : Rat) < count + 1 := by exact_mod_cast hs
    rw [Nat.cast_add, Nat.cast_one] at hpoint
    exact ⟨s / (count + 1), by positivity, (div_lt_one hsteps).mpr hlt, rfl, hpoint⟩
  · unfold densify
    rw [Polygon.openRing_concat hfirst, Polygon.openRing_of_open hopen]

section Example

def triangle : List (Point Rat) := [⟨0, 0⟩, ⟨4, 0⟩, ⟨4, 8⟩]

/-- The last edge of a triangle leads back to its first point, whether or not that is repeated. -/
theorem densify_keeps_triangle :
    2 ≤ triangle.length ∧ triangle.head? ≠ triangle.getLast? ∧
      (densify triangle 3).length = 12 ∧ (densify triangle 3)[8]? = some ⟨4, 8⟩ ∧
      (densify triangle 3)[9]? = some (Point.towards ⟨4, 8⟩ ⟨0, 0⟩ (1 / 4)) ∧
      densify (triangle ++ [⟨0, 0⟩]) 3 = densify triangle 3 ∧
      Box.ofPoints? (densify triangle 3) = Box.ofPoints? triangle := by
  have hlength : 2 ≤ triangle.length := by decide
  have hopen : triangle.head? ≠ triangle.getLast? := by
    intro h
    have hx : (0 : Rat) = 4 := Option.some_inj.mp (congrArg (Option.map Point.x) h)
    norm_num at hx
  obtain ⟨hcount, hpoints, hclosed, hbox⟩ := densify_keeps_shape hlength hopen 3
  obtain ⟨hvertex, hedge⟩ := hpoints 2 ⟨4, 8⟩ ⟨0, 0⟩ rfl rfl
  obtain ⟨part, -, -, hpart, hpoint⟩ := hedge 1 (by decide)
  have hquarter : part = 1 / 4 := hpart.trans (by norm_num)
  exact ⟨hlength, hopen, hcount, hvertex, hquarter ▸ hpoint, hclosed ⟨0, 0⟩ rfl, hbox⟩

end Example

end Mosaic
