import Mathlib.Data.Set.Basic
import ScannedPage.Proofs.Rect
import ScannedPage.Proofs.Region.Paths

/-!
# Broad components

A component of a set of positions is broad when both sides of the smallest rectangle around it have a given length.
The broad part of a set is what is left of it without its other components. Taking these away leaves every broad
component as it is, with the same positions and paths (`Connectivity.joins_broadPart_iff`). So the broad part of a
broad part is the broad part for the greater of the two lengths (`Connectivity.broadPart_broadPart_iff`).
-/

namespace ScannedPage

namespace Rect

/-- The rectangle is the smallest one that holds every position of a set. -/
def Bounds (b : Rect) (S : Nat × Nat → Prop) : Prop :=
  ∀ r : Rect, b.Within r ↔ ∀ q : Nat × Nat, S q → r.contains q.1 q.2 = true

variable {a b : Rect} {S T : Nat × Nat → Prop}

/-- A rectangle lies within itself. -/
theorem within_refl (b : Rect) : b.Within b :=
  ⟨Int.le_refl _, Int.le_refl _, Int.le_refl _, Int.le_refl _⟩

/-- Rectangles that lie within each other are the same. -/
theorem Within.antisymm (h : a.Within b) (h' : b.Within a) : a = b := by
  obtain ⟨x, y, w, h₁⟩ := a
  obtain ⟨x', y', w', h₁'⟩ := b
  simp only [Within, right, bottom] at h h'
  simp only [mk.injEq]
  omega

/-- A set of positions has only one smallest rectangle. -/
theorem Bounds.unique (h : a.Bounds S) (h' : b.Bounds S) : a = b :=
  Within.antisymm ((h b).mpr ((h' b).mp b.within_refl)) ((h' a).mpr ((h a).mp a.within_refl))

/-- The smallest rectangle holds the positions. -/
theorem Bounds.contains (h : b.Bounds S) {q : Nat × Nat} (hq : S q) : b.contains q.1 q.2 = true :=
  (h b).mp b.within_refl q hq

/-- The smallest rectangle depends on the positions alone. -/
theorem bounds_congr (hST : ∀ q, S q ↔ T q) : b.Bounds S ↔ b.Bounds T := by
  simp only [Bounds, hST]

/-- The smallest rectangle around a set with a position has sides of some length. -/
theorem Bounds.minDimension_pos (h : b.Bounds S) {q : Nat × Nat} (hq : S q) : 0 < b.minDimension := by
  have hin := contains_iff.mp (h.contains hq)
  simp only [minDimension]
  omega

end Rect

namespace Connectivity

variable {c : Connectivity} {S : Nat × Nat → Prop} {p q : Nat × Nat} {t t' : Nat}

/-- The smallest rectangle around the component of a position is nowhere shorter than a length. -/
def Broad (c : Connectivity) (S : Nat × Nat → Prop) (t : Nat) (p : Nat × Nat) : Prop :=
  ∃ b : Rect, b.Bounds (c.Joins S p) ∧ (t : Int) ≤ b.minDimension

/-- The positions of a set whose component is broad. -/
def broadPart (c : Connectivity) (S : Nat × Nat → Prop) (t : Nat) (p : Nat × Nat) : Prop := S p ∧ c.Broad S t p

/-- The connected components of a set of positions. -/
def components (c : Connectivity) (S : Nat × Nat → Prop) : Set (Set (Nat × Nat)) :=
  {C | ∃ p, S p ∧ C = {q | c.Joins S p q}}

/-- A path from a position of the set stays in the set. -/
theorem Joins.mem (h : c.Joins S p q) (hp : S p) : S q := by
  cases h with
  | refl => exact hp
  | tail _ hlink => exact hlink.2.1

/-- Joined positions have the same component. -/
theorem Joins.joins_iff (h : c.Joins S p q) (r : Nat × Nat) : c.Joins S q r ↔ c.Joins S p r :=
  ⟨fun hqr => h.trans hqr, fun hpr => h.symm.trans hpr⟩

/-- Joined positions have a broad component or none of them has. -/
theorem Broad.of_joins (h : c.Broad S t p) (hpq : c.Joins S p q) : c.Broad S t q := by
  obtain ⟨b, hb, hle⟩ := h
  exact ⟨b, (Rect.bounds_congr hpq.joins_iff).mpr hb, hle⟩

/-- A component that is broad for a length is so for smaller ones. -/
theorem Broad.mono (htt' : t ≤ t') (h : c.Broad S t' p) : c.Broad S t p := by
  obtain ⟨b, hb, hle⟩ := h
  exact ⟨b, hb, by omega⟩

/-- A component is broad for two lengths exactly if it is for the greater. -/
theorem broad_max_iff : c.Broad S (max t t') p ↔ c.Broad S t p ∧ c.Broad S t' p := by
  refine ⟨fun h => ⟨h.mono (Nat.le_max_left t t'), h.mono (Nat.le_max_right t t')⟩, ?_⟩
  rintro ⟨⟨b, hb, hle⟩, ⟨b', hb', hle'⟩⟩
  obtain rfl := hb.unique hb'
  exact ⟨b, hb, by omega⟩

/-- Without the other components, the positions of a broad one are joined as before. -/
theorem joins_broadPart_iff (hp : c.broadPart S t p) : c.Joins (c.broadPart S t) p q ↔ c.Joins S p q := by
  refine ⟨Joins.mono fun _ => And.left, fun h => ?_⟩
  induction h with
  | refl => exact .refl
  | tail hpath hlink ih =>
    -- the path never leaves the component, so all its positions are kept
    obtain ⟨hb, hb', hn⟩ := hlink
    have hbroad := hp.2.of_joins hpath
    exact ih.tail ⟨⟨hb, hbroad⟩, ⟨hb', hbroad.of_joins (.single ⟨hb, hb', hn⟩)⟩, hn⟩

/-- Without the other components, a broad one has the same smallest rectangle, and is broad for the same
lengths. -/
theorem broad_broadPart_iff (hp : c.broadPart S t p) : c.Broad (c.broadPart S t) t' p ↔ c.Broad S t' p :=
  exists_congr fun _ => and_congr_left' (Rect.bounds_congr fun _ => joins_broadPart_iff hp)

/-- The broad part of a broad part is that for the greater length. -/
theorem broadPart_broadPart_iff : c.broadPart (c.broadPart S t) t' p ↔ c.broadPart S (max t t') p := by
  constructor
  · rintro ⟨hp, hbroad⟩
    exact ⟨hp.1, broad_max_iff.mpr ⟨hp.2, (broad_broadPart_iff hp).mp hbroad⟩⟩
  · rintro ⟨hp, hbroad⟩
    obtain ⟨hfirst, hsecond⟩ := broad_max_iff.mp hbroad
    exact ⟨⟨hp, hfirst⟩, (broad_broadPart_iff ⟨hp, hfirst⟩).mpr hsecond⟩

/-- The components of the broad part are the broad components. -/
theorem mem_components_broadPart {C : Set (Nat × Nat)} :
    C ∈ c.components (c.broadPart S t) ↔ ∃ p, S p ∧ c.Broad S t p ∧ C = {q | c.Joins S p q} := by
  have hsame {p : Nat × Nat} (hp : c.broadPart S t p) :
      {q | c.Joins (c.broadPart S t) p q} = {q | c.Joins S p q} := Set.ext fun _ => joins_broadPart_iff hp
  constructor
  · rintro ⟨p, hp, rfl⟩
    exact ⟨p, hp.1, hp.2, hsame hp⟩
  · rintro ⟨p, hp, hbroad, rfl⟩
    exact ⟨p, ⟨hp, hbroad⟩, (hsame ⟨hp, hbroad⟩).symm⟩

end Connectivity

end ScannedPage
