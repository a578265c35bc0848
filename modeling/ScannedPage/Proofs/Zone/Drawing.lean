import ScannedPage.Proofs.Page.Zones

/-!
# Zones drawn pixel by pixel

A zone can be drawn straight into a mask: its rows from top to bottom, and in each row one pixel after the other is
set to a value. A polygon sets the intervals of its rows as far as they lie inside, an ellipse the pixels of its
box that it covers. This sets exactly the covered pixels (`Zone.draw_eq_paint`). So the zones of a page with
polygons are painted by the sweep that fills polygons by their winding numbers (`Zone.paint_polygon`).
-/

namespace ScannedPage

namespace Mask

/-- An empty mask selects nothing. -/
theorem get_empty (s : Size) (x y : Nat) : (empty s).get x y = false := by
  rw [empty, get, Grid.getD_filled]
  split <;> rfl

/-- Sets places to a value one after the other; those outside are ignored. -/
def draw (m : Mask) (places : List (Nat × Nat)) (value : Bool) : Mask :=
  places.foldl (fun m q => m.set q.1 q.2 value) m

/-- Drawing keeps the size. -/
theorem size_draw (m : Mask) (places : List (Nat × Nat)) (value : Bool) : (m.draw places value).size = m.size := by
  induction places generalizing m with
  | nil => rfl
  | cons q places ih =>
    rw [draw, List.foldl_cons]
    exact (ih (m.set q.1 q.2 value)).trans (Grid.size_set m q.1 q.2 value)

/-- Drawn places inside read the value, the others as before. -/
theorem get_draw (m : Mask) (places : List (Nat × Nat)) (value : Bool) (x y : Nat) :
    (m.draw places value).get x y = if (x, y) ∈ places ∧ m.size.Contains x y then value else m.get x y := by
  induction places generalizing m with
  | nil => simp [draw]
  | cons q places ih =>
    have hset : get (m.set q.1 q.2 value) x y = if (x, y) = q ∧ m.size.Contains x y then value else m.get x y := by
      rw [get, Grid.getD_set]
      refine if_congr ?_ rfl rfl
      rw [Prod.ext_iff, and_assoc]
      exact and_congr_right fun hx => and_congr_right fun hy => by rw [← hx, ← hy]
    rw [draw, List.foldl_cons]
    refine (ih (m.set q.1 q.2 value)).trans ?_
    rw [hset, Grid.size_set]
    by_cases hxy : m.size.Contains x y
    · simp only [hxy, and_true, List.mem_cons]
      by_cases hq : (x, y) = q <;> simp [hq]
    · simp [hxy]

end Mask

namespace Polygon

variable {K : Type} [Scalar K] [DecidableLE K] [DecidableLT K]

/-- The pixels that a polygon sets in an image, in the order of the sweep; the intervals of a row end at the last
column. -/
def places (vertices : List (Point K)) (s : Size) : List (Nat × Nat) :=
  (List.range s.height).flatMap fun y => (rowSpans vertices y).flatMap fun (first, last) =>
    (List.range' first (min last s.width - first)).map fun x => (x, y)

/-- The pixels that a polygon sets are those it covers in the image. -/
theorem mem_places_iff {vertices : List (Point K)} {s : Size} {x y : Nat} (h : s.Contains x y) :
    (x, y) ∈ places vertices s ↔ covers vertices x y = true := by
  have hx := h.1
  simp only [places, List.mem_flatMap, List.mem_range, List.mem_map, List.mem_range'_1, Prod.mk.injEq, covers,
    List.any_eq_true, decide_eq_true_eq]
  constructor
  · rintro ⟨y', _, ⟨first, last⟩, hspan, x', hx', rfl, rfl⟩
    exact ⟨(first, last), hspan, by omega⟩
  · rintro ⟨⟨first, last⟩, hspan, hbetween⟩
    exact ⟨y, h.2, (first, last), hspan, x, by omega, rfl, rfl⟩

/-- A polygon drawn into a mask. -/
def draw (vertices : List (Point K)) (m : Mask) (value : Bool) : Mask := m.draw (places vertices m.size) value

/-- Drawing a polygon sets the pixels it covers. -/
theorem get_draw {vertices : List (Point K)} {m : Mask} {x y : Nat} (value : Bool) (h : m.size.Contains x y) :
    (draw vertices m value).get x y = if covers vertices x y then value else m.get x y := by
  rw [draw, Mask.get_draw]
  exact if_congr ((and_iff_left h).trans (mem_places_iff h)) rfl rfl

end Polygon

namespace Zone

/-- The pixels that a zone sets in an image, in order. -/
def places (z : Zone) (s : Size) : List (Nat × Nat) :=
  match z.shape with
  | .polygon vertices => Polygon.places vertices s
  | .ellipse centre rx ry angle =>
    let frame := EllipseFrame.ofEllipse centre rx ry angle
    (List.range' frame.y0 (min frame.y1 s.height - frame.y0)).flatMap fun y =>
      ((List.range' frame.x0 (min frame.x1 s.width - frame.x0)).filter fun x => frame.covers x y).map fun x =>
        (x, y)

/-- A zone drawn into a mask. -/
def draw (z : Zone) (m : Mask) (value : Bool) : Mask := m.draw (z.places m.size) value

/-- A zone sets the pixels that it covers. -/
theorem mem_places_iff {z : Zone} {s : Size} {x y : Nat} (h : s.Contains x y) :
    (x, y) ∈ z.places s ↔ z.Covers s x y := by
  rw [places, Covers, coverage]
  cases z.shape with
  | polygon vertices =>
    simp only [Mask.get_ofFn, h, if_true]
    rw [Polygon.mem_places_iff h, Polygon.covers]
    simp [h.2]
  | ellipse centre rx ry angle =>
    simp only [Mask.get_ofFn, h, if_true]
    generalize EllipseFrame.ofEllipse centre rx ry angle = frame
    have hbox (hcovers : frame.covers x y = true) : frame.x0 ≤ x ∧ x < frame.x1 ∧ frame.y0 ≤ y ∧ y < frame.y1 := by
      rw [EllipseFrame.covers] at hcovers
      split at hcovers
      · next hin => omega
      · exact absurd hcovers Bool.false_ne_true
    have hx := h.1
    have hy := h.2
    simp only [List.mem_flatMap, List.mem_range'_1, List.mem_map, List.mem_filter, Prod.mk.injEq]
    constructor
    · rintro ⟨y', _, x', ⟨_, hcovers⟩, rfl, rfl⟩
      exact hcovers
    · intro hcovers
      have hin := hbox hcovers
      exact ⟨y, by omega, x, ⟨by omega, hcovers⟩, rfl, rfl⟩

/-- Drawing a zone paints the area that it covers. -/
theorem draw_eq_paint (z : Zone) (m : Mask) (value : Bool) : z.draw m value = z.paint m value := by
  refine Grid.ext_getD (Mask.size_draw ..) false fun x y hxy => ?_
  rw [draw, Mask.size_draw] at hxy
  refine (Mask.get_draw ..).trans (Eq.trans ?_ (get_paint z m value x y).symm)
  exact if_congr ((and_iff_left hxy).trans (mem_places_iff hxy)) rfl rfl

/-- A zone with a polygon is painted by drawing the polygon. -/
theorem paint_polygon (vertices : List (Point Float)) (tag : ZoneTag) (fillColor : Option Nat) (m : Mask)
    (value : Bool) :
    (⟨.polygon vertices, tag, fillColor⟩ : Zone).paint m value = Polygon.draw vertices m value :=
  (draw_eq_paint ..).symm

end Zone

end ScannedPage
