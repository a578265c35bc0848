import Mathlib.Tactic.Linarith
import Mathlib.Tactic.LinearCombination
import Mathlib.Tactic.Ring
import ScannedPage.Proofs.Exact
import ScannedPage.Zone.Polygon

/-!
# Edges that cross

Two edges cross when they have a single point in common and this point lies strictly between the ends of both. The
test for a crossing compares signs instead: the ends of each edge lie on different sides of the line through the
other one. In exact arithmetic both say the same (`properlyCross_iff`). The side of a point changes evenly along an
edge (`orientation_pointAt`), so it passes zero strictly between the ends exactly when they have opposite sides;
and edges in parallel that share a point within both share others (`exists_other_common`).
-/

namespace ScannedPage

namespace Polygon

/-- The point of an edge in a given proportion between its ends: the first end at zero, the second at one. -/
def pointAt (e : Edge ℚ) (t : ℚ) : Point ℚ := ⟨e.1.x + t * (e.2.x - e.1.x), e.1.y + t * (e.2.y - e.1.y)⟩

/-- The point lies on the edge, the ends included. -/
def LiesOn (p : Point ℚ) (e : Edge ℚ) : Prop := ∃ t, 0 ≤ t ∧ t ≤ 1 ∧ p = pointAt e t

/-- The point lies strictly between the ends of the edge; an edge without length has no such points. -/
def LiesWithin (p : Point ℚ) (e : Edge ℚ) : Prop := e.1 ≠ e.2 ∧ ∃ t, 0 < t ∧ t < 1 ∧ p = pointAt e t

/-- Two edges cross: they have a single point in common, and it lies within both of them. -/
def Cross (e f : Edge ℚ) : Prop := ∃ p, LiesWithin p e ∧ LiesWithin p f ∧ ∀ q, LiesOn q e → LiesOn q f → q = p

section Points

variable {e f : Edge ℚ} {p q : Point ℚ}

/-- Points are the same when their coordinates are. -/
theorem point_eq_iff : p = q ↔ p.x = q.x ∧ p.y = q.y := by
  obtain ⟨x, y⟩ := p
  obtain ⟨x', y'⟩ := q
  rw [Point.mk.injEq]

/-- Which of two edges is named first does not matter. -/
theorem Cross.symm (h : Cross e f) : Cross f e := by
  obtain ⟨p, hfirst, hsecond, hsingle⟩ := h
  exact ⟨p, hsecond, hfirst, fun q hq hq' => hsingle q hq' hq⟩

/-- Turned around, an edge is run through from the other end. -/
theorem pointAt_swap (e : Edge ℚ) (t : ℚ) : pointAt e.swap t = pointAt e (1 - t) := by
  simp only [point_eq_iff, pointAt, Prod.fst_swap, Prod.snd_swap]
  constructor <;> ring

/-- An edge turned around has the same points. -/
theorem liesOn_swap : LiesOn p e.swap ↔ LiesOn p e := by
  have hturn (e : Edge ℚ) (h : LiesOn p e.swap) : LiesOn p e := by
    obtain ⟨t, hlow, hhigh, rfl⟩ := h
    exact ⟨1 - t, by linarith, by linarith, pointAt_swap e t⟩
  exact ⟨hturn e, hturn e.swap⟩

/-- An edge turned around has the same points between its ends. -/
theorem liesWithin_swap : LiesWithin p e.swap ↔ LiesWithin p e := by
  have hturn (e : Edge ℚ) (h : LiesWithin p e.swap) : LiesWithin p e := by
    obtain ⟨hends, t, hlow, hhigh, rfl⟩ := h
    exact ⟨hends.symm, 1 - t, by linarith, by linarith, pointAt_swap e t⟩
  exact ⟨hturn e, hturn e.swap⟩

/-- Turning two edges around does not change whether they cross. -/
theorem cross_swap : Cross e.swap f.swap ↔ Cross e f := by
  simp only [Cross, liesOn_swap, liesWithin_swap]

/-- Different points of an edge with a length lie in different proportions. -/
theorem pointAt_inj (h : e.1 ≠ e.2) {s t : ℚ} (heq : pointAt e s = pointAt e t) : s = t := by
  simp only [point_eq_iff, pointAt, add_right_inj, mul_eq_mul_right_iff, sub_eq_zero] at heq
  by_contra hne
  exact h (point_eq_iff.mpr ⟨(heq.1.resolve_left hne).symm, (heq.2.resolve_left hne).symm⟩)

end Points

section Sides

/-- Two numbers have opposite signs when the way from the one to the other passes zero strictly in between. -/
theorem mul_neg_iff_between {u v : ℚ} : u * v < 0 ↔ v - u ≠ 0 ∧ ∃ t, 0 < t ∧ t < 1 ∧ u + t * (v - u) = 0 := by
  constructor
  · intro h
    have hne : v - u ≠ 0 := fun heq => by
      rw [sub_eq_zero.mp heq] at h
      exact h.not_ge (mul_self_nonneg u)
    have hsplit : -u / (v - u) * (v - u) = -u := div_mul_cancel₀ _ hne
    refine ⟨hne, -u / (v - u), ?_, ?_, by linarith⟩
    · rcases mul_neg_iff.mp h with ⟨hu, hv⟩ | ⟨hu, hv⟩
      · exact div_pos_of_neg_of_neg (by linarith) (by linarith)
      · exact div_pos (by linarith) (by linarith)
    · rcases mul_neg_iff.mp h with ⟨hu, hv⟩ | ⟨hu, hv⟩
      · rw [div_lt_one_of_neg (by linarith)]
        linarith
      · rw [div_lt_one (by linarith)]
        linarith
  · rintro ⟨hne, t, hlow, hhigh, hzero⟩
    have hu : u = -(t * (v - u)) := by linarith
    have hv : v = (1 - t) * (v - u) := by linarith
    have hpos : 0 < t * (1 - t) * ((v - u) * (v - u)) :=
      mul_pos (mul_pos hlow (by linarith)) (mul_self_pos.mpr hne)
    calc u * v = -(t * (v - u)) * ((1 - t) * (v - u)) := by rw [← hu, ← hv]
      _ = -(t * (1 - t) * ((v - u) * (v - u))) := by ring
      _ < 0 := by linarith

/-- Between two proportions strictly inside there is a step so short that it and its multiple stay inside. -/
theorem exists_short_step {s t : ℚ} (hs : s < 1) (ht : 0 < t) (ht' : t < 1) (ratio : ℚ) :
    ∃ step, 0 < step ∧ s + step ≤ 1 ∧ 0 ≤ t + step * ratio ∧ t + step * ratio ≤ 1 := by
  obtain ⟨room, hroom, hroom₁, hroom₂, hroom₃⟩ : ∃ room, 0 < room ∧ room ≤ 1 - s ∧ room ≤ t ∧ room ≤ 1 - t :=
    ⟨min (1 - s) (min t (1 - t)), by simp [hs, ht, ht'], by simp, by simp, by simp⟩
  have hratio : 0 < 1 + |ratio| := by positivity
  have hstep : 0 < room / (1 + |ratio|) := div_pos hroom hratio
  have hwhole : room / (1 + |ratio|) * (1 + |ratio|) = room := div_mul_cancel₀ _ hratio.ne'
  generalize room / (1 + |ratio|) = step at hstep hwhole
  have hmultiple : |step * ratio| = step * |ratio| := by rw [abs_mul, abs_of_pos hstep]
  obtain ⟨hbelow, habove⟩ := abs_le.mp (hmultiple.trans_le (by linarith : step * |ratio| ≤ room))
  have hnonneg : 0 ≤ step * |ratio| := mul_nonneg hstep.le (abs_nonneg ratio)
  exact ⟨step, hstep, by linarith, by linarith, by linarith⟩

variable [Transcendentals] {e f : Edge ℚ} {p : Point ℚ}

/-- The side of a point in the arithmetic of the field. -/
theorem orientation_eq (a b c : Point ℚ) :
    orientation a b c = (b.x - a.x) * (c.y - a.y) - (b.y - a.y) * (c.x - a.x) := rfl

/-- Along an edge the side changes evenly. -/
theorem orientation_pointAt (a b : Point ℚ) (f : Edge ℚ) (t : ℚ) : orientation a b (pointAt f t) =
    orientation a b f.1 + t * (orientation a b f.2 - orientation a b f.1) := by
  simp only [orientation_eq, pointAt]
  ring

/-- The points of an edge are on neither side of it. -/
theorem orientation_self (e : Edge ℚ) (t : ℚ) : orientation e.1 e.2 (pointAt e t) = 0 := by
  simp only [orientation_eq, pointAt]
  ring

/-- Along the first edge the side changes as much as along the second one, the other way. -/
theorem orientation_sub (e f : Edge ℚ) : orientation f.1 f.2 e.2 - orientation f.1 f.2 e.1 =
    -(orientation e.1 e.2 f.2 - orientation e.1 e.2 f.1) := by
  simp only [orientation_eq]
  ring

/-- The test for a crossing compares the sides on which the ends of each edge lie. -/
theorem properlyCross_iff_sides : properlyCross e f = true ↔
    orientation e.1 e.2 f.1 * orientation e.1 e.2 f.2 < 0 ∧
      orientation f.1 f.2 e.1 * orientation f.1 f.2 e.2 < 0 := by
  rw [properlyCross, Bool.and_eq_true, decide_eq_true_eq, decide_eq_true_eq, Nat.cast_zero]

/-- The difference between the ends of an edge is a multiple of that of an edge in parallel. -/
theorem exists_ratio (h : f.1 ≠ f.2) (hparallel : orientation e.1 e.2 f.2 - orientation e.1 e.2 f.1 = 0) :
    ∃ ratio, e.2.x - e.1.x = ratio * (f.2.x - f.1.x) ∧ e.2.y - e.1.y = ratio * (f.2.y - f.1.y) := by
  simp only [orientation_eq] at hparallel
  by_cases hx : f.2.x - f.1.x = 0
  · have hy : f.2.y - f.1.y ≠ 0 := fun hy =>
      h (point_eq_iff.mpr ⟨(sub_eq_zero.mp hx).symm, (sub_eq_zero.mp hy).symm⟩)
    refine ⟨(e.2.y - e.1.y) / (f.2.y - f.1.y), mul_right_cancel₀ hy ?_, (div_mul_cancel₀ _ hy).symm⟩
    rw [hx, mul_zero, zero_mul]
    linear_combination hparallel + (e.2.y - e.1.y) * hx
  · refine ⟨(e.2.x - e.1.x) / (f.2.x - f.1.x), (div_mul_cancel₀ _ hx).symm, mul_right_cancel₀ hx ?_⟩
    rw [mul_right_comm, div_mul_cancel₀ _ hx]
    linear_combination -hparallel

/-- Two edges in parallel that share a point within both share another one. -/
theorem exists_other_common (hp : LiesWithin p e) (hp' : LiesWithin p f)
    (hparallel : orientation e.1 e.2 f.2 - orientation e.1 e.2 f.1 = 0) :
    ∃ q, q ≠ p ∧ LiesOn q e ∧ LiesOn q f := by
  obtain ⟨hends, s, hs, hs', rfl⟩ := hp
  obtain ⟨hends', t, ht, ht', hcommon⟩ := hp'
  obtain ⟨ratio, hx, hy⟩ := exists_ratio hends' hparallel
  obtain ⟨step, hstep, hfirst, hlow, hhigh⟩ := exists_short_step hs' ht ht' ratio
  have hmoved : pointAt e (s + step) = pointAt f (t + step * ratio) := by
    obtain ⟨hcommonx, hcommony⟩ := point_eq_iff.mp hcommon
    simp only [pointAt] at hcommonx hcommony
    rw [point_eq_iff, pointAt, pointAt]
    constructor
    · linear_combination hcommonx + step * hx
    · linear_combination hcommony + step * hy
  refine ⟨pointAt e (s + step), fun hsame => ?_, ⟨s + step, by linarith, hfirst, rfl⟩, _, hlow, hhigh, hmoved⟩
  linarith [pointAt_inj hends hsame]

/-- Where each edge passes through the line of the other one, both are at the same point. -/
theorem pointAt_eq_pointAt (hne : orientation e.1 e.2 f.2 - orientation e.1 e.2 f.1 ≠ 0) {s t : ℚ}
    (ht : orientation e.1 e.2 f.1 + t * (orientation e.1 e.2 f.2 - orientation e.1 e.2 f.1) = 0)
    (hs : orientation f.1 f.2 e.1 + s * (orientation f.1 f.2 e.2 - orientation f.1 f.2 e.1) = 0) :
    pointAt e s = pointAt f t := by
  simp only [orientation_eq] at hne hs ht
  rw [point_eq_iff, pointAt, pointAt]
  constructor
  · refine mul_left_cancel₀ hne ?_
    linear_combination -(e.2.x - e.1.x) * hs - (f.2.x - f.1.x) * ht
  · refine mul_left_cancel₀ hne ?_
    linear_combination -(e.2.y - e.1.y) * hs - (f.2.y - f.1.y) * ht

/-- The test for a crossing finds the edges that cross. -/
theorem properlyCross_iff : properlyCross e f = true ↔ Cross e f := by
  rw [properlyCross_iff_sides, mul_neg_iff_between, mul_neg_iff_between]
  constructor
  · rintro ⟨⟨hne, t, ht, ht', hzero⟩, hne', s, hs, hs', hzero'⟩
    have hends : e.1 ≠ e.2 := fun heq => hne (by simp only [orientation_eq, heq]; ring)
    have hends' : f.1 ≠ f.2 := fun heq => hne' (by simp only [orientation_eq, heq]; ring)
    have hcommon := pointAt_eq_pointAt hne hzero hzero'
    refine ⟨pointAt e s, ⟨hends, s, hs, hs', rfl⟩, ⟨hends', t, ht, ht', hcommon⟩, ?_⟩
    -- another common point would lie on the line of the first edge, which the second one passes only once
    rintro q ⟨s', -, -, hq⟩ ⟨t', -, -, rfl⟩
    have hline := orientation_self e s'
    rw [← hq, orientation_pointAt] at hline
    have hsame : t' = t := mul_right_cancel₀ hne (by linarith)
    rw [hsame, hcommon]
  · rintro ⟨p, hp, hp', hsingle⟩
    have hne : orientation e.1 e.2 f.2 - orientation e.1 e.2 f.1 ≠ 0 := fun hparallel => by
      obtain ⟨q, hother, hq, hq'⟩ := exists_other_common hp hp' hparallel
      exact hother (hsingle q hq hq')
    obtain ⟨-, s, hs, hs', rfl⟩ := hp
    obtain ⟨-, t, ht, ht', hcommon⟩ := hp'
    refine ⟨⟨hne, t, ht, ht', ?_⟩, ?_, s, hs, hs', ?_⟩
    · rw [← orientation_pointAt, ← hcommon, orientation_self]
    · rw [orientation_sub]
      exact neg_ne_zero.mpr hne
    · rw [← orientation_pointAt, hcommon, orientation_self]

end Sides

end Polygon

end ScannedPage
