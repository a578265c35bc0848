import ScannedPage.Rect

/-!
# Rectangles within rectangles

A rectangle lies within another when none of its edges lies further out. A pixel lies within exactly the
rectangles that hold it, and a union within exactly those in which both rectangles lie; so the union of
the pixels of a set lies within a rectangle exactly when that holds the whole set.
-/

namespace ScannedPage.Rect

/-- No edge lies further out than the same edge of another rectangle. -/
def Within (a b : Rect) : Prop := b.x ≤ a.x ∧ a.right ≤ b.right ∧ b.y ≤ a.y ∧ a.bottom ≤ b.bottom

/-- A pixel lies within the rectangles that contain it. -/
theorem pixel_within_iff {x y : Nat} {r : Rect} : (pixel x y).Within r ↔ r.contains x y = true := by
  rw [contains_iff]
  simp only [Within, pixel, right, bottom]
  omega

/-- A union lies within the rectangles in which both parts lie. -/
theorem union_within_iff {a b r : Rect} : (a.union b).Within r ↔ a.Within r ∧ b.Within r := by
  simp only [Within, union, right, bottom]
  omega

end ScannedPage.Rect
