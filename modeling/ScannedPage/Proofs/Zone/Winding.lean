import Mathlib.Algebra.BigOperators.Group.List.Basic
import Mathlib.Data.List.Rotate
import Mathlib.Tactic.FieldSimp
import Mathlib.Tactic.Linarith
import Mathlib.Tactic.Ring
import ScannedPage.Proofs.Exact
import ScannedPage.Proofs.Zone.Drawing

/-!
# Filling follows the winding number

In exact arithmetic a polygon covers a pixel when the edges that cross the line through its centre, from the left
up to the centre, do not cancel in their directions. The sweep sorts the crossings of a row and keeps a running sum
from left to right; between two neighbours the sum is that of all crossings up to there (`exists_spansFrom_iff`),
and at the end of a row nothing is left of it, because a closed polygon crosses a line downward as often as upward
(`sum_direction_edges`). The number is the same from every starting vertex and changes its sign when the polygon is
walked backwards, so the drawn pixels are the same. The zones of a page are painted by this sweep in floating point
(`Zone.paint_polygon`), where abscissas are rounded.
-/

namespace ScannedPage

namespace Polygon

section Edges

variable {K : Type}

/-- The edges lead from each vertex to the next one around. -/
theorem edges_eq_zipWith (vertices : List (Point K)) :
    edges vertices = List.zipWith Prod.mk vertices (vertices.rotate 1) := by
  cases vertices with
  | nil => rfl
  | cons p ps => rw [edges, List.rotate_cons_succ, List.rotate_zero, List.zip]

/-- From another starting vertex the same edges come in another order. -/
theorem edges_rotate (vertices : List (Point K)) (n : Nat) :
    edges (vertices.rotate n) = (edges vertices).rotate n := by
  rw [edges_eq_zipWith, edges_eq_zipWith, List.zipWith_rotate_distrib _ _ _ _ (by simp), List.rotate_rotate,
    List.rotate_rotate, Nat.add_comm]

/-- Walked backwards, a polygon has its edges turned around and in the other order. -/
theorem edges_reverse (vertices : List (Point K)) :
    edges vertices.reverse = (((edges vertices).map Prod.swap).reverse).rotate 1 := by
  have hrotate : (vertices.rotate 1).reverse.rotate 1 = vertices.reverse := by
    cases vertices <;> simp
  rw [edges_eq_zipWith, edges_eq_zipWith, List.map_zipWith, List.reverse_zipWith (by simp),
    List.zipWith_rotate_distrib _ _ _ _ (by simp), hrotate, List.zipWith_comm]
  rfl

/-- Walked backwards, a polygon has the same edges, each turned around. -/
theorem edges_reverse_perm (vertices : List (Point K)) :
    (edges vertices.reverse).Perm ((edges vertices).map Prod.swap) := by
  rw [edges_reverse]
  exact (List.rotate_perm _ 1).trans (List.reverse_perm _)

/-- Around a closed polygon the differences between the ends of the edges cancel. -/
theorem sum_edges_sub (f : Point K → Int) (vertices : List (Point K)) :
    ((edges vertices).map fun e => f e.1 - f e.2).sum = 0 := by
  have hlength : vertices.length = (vertices.rotate 1).length := (List.length_rotate ..).symm
  have hfirst : ((edges vertices).map Prod.fst).map f = vertices.map f := by
    rw [edges_eq_zipWith, ← List.zip, List.map_fst_zip hlength.le]
  have hsecond : ((edges vertices).map Prod.snd).map f = (vertices.rotate 1).map f := by
    rw [edges_eq_zipWith, ← List.zip, List.map_snd_zip hlength.ge]
  rw [List.map_map] at hfirst hsecond
  calc ((edges vertices).map fun e => f e.1 - f e.2).sum
    _ = ((edges vertices).map (f ∘ Prod.fst)).sum + -((edges vertices).map (f ∘ Prod.snd)).sum := by
      rw [List.sum_neg, List.map_map, ← List.sum_map_add]
      rfl
    _ = (vertices.map f).sum + -(vertices.map f).sum := by
      rw [hfirst, hsecond, ((List.rotate_perm vertices 1).map f).sum_eq]
    _ = 0 := Int.add_right_neg _

/-- The ends of an edge are vertices. -/
theorem mem_of_mem_edges {vertices : List (Point K)} {e : Edge K} (h : e ∈ edges vertices) :
    e.1 ∈ vertices ∧ e.2 ∈ vertices := by
  rw [edges_eq_zipWith] at h
  obtain ⟨h₁, h₂⟩ := List.of_mem_zip h
  exact ⟨h₁, List.mem_rotate.mp h₂⟩

end Edges

/-- The direction in which an edge crosses the horizontal line at a height: 1 downward, -1 upward, and 0 if it does
not cross. An end on the line counts as below it. -/
def direction (height : ℚ) (e : Edge ℚ) : Int :=
  if e.1.y ≤ height ∧ height < e.2.y then 1 else if e.2.y ≤ height ∧ height < e.1.y then -1 else 0

/-- Where the line through an edge meets the horizontal line at a height. -/
def abscissa (height : ℚ) (e : Edge ℚ) : ℚ := e.1.x + (height - e.1.y) / (e.2.y - e.1.y) * (e.2.x - e.1.x)

/-- The winding number of a polygon around a point: the sum of the directions of all edges that cross the
horizontal line through the point at an abscissa not greater than that of the point. -/
def windingNumber (vertices : List (Point ℚ)) (p : Point ℚ) : Int :=
  ((edges vertices).map fun e => if abscissa p.y e ≤ p.x then direction p.y e else 0).sum

section WindingNumber

variable {vertices : List (Point ℚ)} {p : Point ℚ} {height : ℚ}

/-- An edge goes from one side of the line to the other. -/
theorem direction_eq_sub (height : ℚ) (e : Edge ℚ) :
    direction height e = (if e.1.y ≤ height then 1 else 0) - (if e.2.y ≤ height then 1 else 0) := by
  simp only [direction, ← not_le]
  by_cases h₁ : e.1.y ≤ height <;> by_cases h₂ : e.2.y ≤ height <;> simp [h₁, h₂]

/-- A closed polygon crosses a line downward as often as upward. -/
theorem sum_direction_edges (vertices : List (Point ℚ)) (height : ℚ) :
    ((edges vertices).map (direction height)).sum = 0 := by
  rw [List.map_congr_left fun e _ => direction_eq_sub height e]
  exact sum_edges_sub (fun p => if p.y ≤ height then 1 else 0) vertices

/-- Turned around, an edge crosses a line in the other direction. -/
theorem direction_swap (height : ℚ) (e : Edge ℚ) : direction height e.swap = -direction height e := by
  rw [direction_eq_sub, direction_eq_sub]
  exact (neg_sub _ _).symm

/-- Turned around, an edge crosses a line at the same place. -/
theorem abscissa_swap {e : Edge ℚ} (h : direction height e ≠ 0) : abscissa height e.swap = abscissa height e := by
  have hne : e.1.y ≠ e.2.y := fun heq => h (by rw [direction_eq_sub, heq, sub_self])
  have hpos : e.2.y - e.1.y ≠ 0 := sub_ne_zero.mpr hne.symm
  have hneg : e.1.y - e.2.y ≠ 0 := sub_ne_zero.mpr hne
  simp only [abscissa, Prod.fst_swap, Prod.snd_swap]
  field_simp
  ring

/-- The winding number does not depend on the starting vertex. -/
theorem windingNumber_rotate (vertices : List (Point ℚ)) (n : Nat) (p : Point ℚ) :
    windingNumber (vertices.rotate n) p = windingNumber vertices p := by
  rw [windingNumber, edges_rotate]
  exact ((List.rotate_perm _ _).map _).sum_eq

/-- Walked backwards, a polygon winds the other way. -/
theorem windingNumber_reverse (vertices : List (Point ℚ)) (p : Point ℚ) :
    windingNumber vertices.reverse p = -windingNumber vertices p := by
  rw [windingNumber, ((edges_reverse_perm vertices).map _).sum_eq, List.map_map, windingNumber, List.sum_neg,
    List.map_map]
  refine congrArg List.sum (List.map_congr_left fun e _ => ?_)
  rw [Function.comp_apply, Function.comp_apply, direction_swap]
  by_cases hcross : direction p.y e = 0
  · simp [hcross]
  · rw [abscissa_swap hcross]
    split <;> simp

/-- Fewer than three vertices wind around nothing. -/
theorem windingNumber_of_length_lt (h : vertices.length < 3) (p : Point ℚ) : windingNumber vertices p = 0 := by
  have hreverse : vertices.reverse = vertices.rotate (vertices.length - 1) := by
    match vertices, h with
    | [], _ => rfl
    | [_], _ => rfl
    | [_, _], _ => rfl
  have hneg := windingNumber_reverse vertices p
  rw [hreverse, windingNumber_rotate] at hneg
  omega

/-- Outside of the rows in which all vertices lie nothing is wound around. -/
theorem windingNumber_of_rows {low high : ℚ} (hbounds : ∀ q ∈ vertices, low ≤ q.y ∧ q.y ≤ high) {p : Point ℚ}
    (h : p.y < low ∨ high ≤ p.y) : windingNumber vertices p = 0 := by
  refine List.sum_eq_zero fun w hw => ?_
  obtain ⟨e, he, rfl⟩ := List.mem_map.mp hw
  obtain ⟨hfirst, hsecond⟩ := mem_of_mem_edges he
  have hnone : direction p.y e = 0 := by
    have h₁ := hbounds _ hfirst
    have h₂ := hbounds _ hsecond
    rw [direction, if_neg, if_neg] <;> rintro ⟨h₃, h₄⟩ <;> rcases h with h | h <;> linarith
  rw [hnone, ite_self]

end WindingNumber

/-- The sum of the directions of the crossings up to an abscissa. -/
def windingUpTo (x : ℚ) (cs : List (Crossing ℚ)) : Int := (cs.map fun c => if c.x ≤ x then c.winding else 0).sum

/-- The first crossing counts if it lies so far to the left. -/
theorem windingUpTo_cons (x : ℚ) (c : Crossing ℚ) (cs : List (Crossing ℚ)) :
    windingUpTo x (c :: cs) = (if c.x ≤ x then c.winding else 0) + windingUpTo x cs := by
  rw [windingUpTo, List.map_cons, List.sum_cons, ← windingUpTo]

/-- Nothing is crossed before the first crossing. -/
theorem windingUpTo_eq_zero {x : ℚ} {cs : List (Crossing ℚ)} (h : ∀ c ∈ cs, x < c.x) : windingUpTo x cs = 0 := by
  refine List.sum_eq_zero fun w hw => ?_
  obtain ⟨c, hc, rfl⟩ := List.mem_map.mp hw
  exact if_neg (h c hc).not_ge

section Sweep

variable [Transcendentals]

/-- The first pixel of an abscissa is the first one whose centre is not left of it. -/
theorem firstPixel_le_iff (a : ℚ) (x : Nat) : firstPixel a ≤ x ↔ a ≤ x + 1 / 2 := by
  change (⌈a - ((1 : Nat) : ℚ) / ((2 : Nat) : ℚ)⌉).toNat ≤ x ↔ _
  rw [Int.toNat_le, Int.ceil_le, Nat.cast_one, Nat.cast_ofNat, sub_le_iff_le_add, Int.cast_natCast]

/-- An edge is crossed in its direction at its abscissa, unless it does not cross. -/
theorem crossing?_eq (height : ℚ) (e : Edge ℚ) : crossing? height e =
    if direction height e = 0 then none else some ⟨abscissa height e, 1, direction height e⟩ := by
  obtain ⟨a, b⟩ := e
  simp only [crossing?, Scalar.isNumber_rat, if_true, direction]
  by_cases hdown : a.y ≤ height ∧ height < b.y
  · rw [if_pos hdown, if_pos hdown]
    rfl
  · rw [if_neg hdown, if_neg hdown]
    by_cases hup : b.y ≤ height ∧ height < a.y
    · rw [if_pos hup, if_pos hup]
      rfl
    · rw [if_neg hup, if_neg hup]
      rfl

/-- Crossings are ordered by rank, and at one rank by abscissa. -/
theorem before_iff (c d : Crossing ℚ) : c.before d = true ↔ c.rank < d.rank ∨ c.rank = d.rank ∧ c.x ≤ d.x := by
  rw [Crossing.before, Bool.or_eq_true, Bool.and_eq_true, decide_eq_true_eq, decide_eq_true_eq, Bool.not_eq_true',
    decide_eq_false_iff_not]
  exact or_congr_right (and_congr_right fun _ => not_lt)

/-- Crossings are sorted from left to right. -/
theorem pairwise_crossings (vertices : List (Point ℚ)) (height : ℚ) :
    (crossings vertices height).Pairwise fun c d => c.x ≤ d.x := by
  have hrank : ∀ c ∈ crossings vertices height, c.rank = 1 := fun c hc => by
    obtain ⟨e, _, he⟩ := List.mem_filterMap.mp (List.mem_mergeSort.mp hc)
    rw [crossing?_eq] at he
    split at he
    · exact absurd he nofun
    · rw [← Option.some.inj he]
  have hsorted : (crossings vertices height).Pairwise fun c d => c.before d = true := by
    refine List.pairwise_mergeSort (fun a b c hab hbc => ?_) (fun a b => ?_) _
    · rw [before_iff] at hab hbc ⊢
      grind
    · rw [Bool.or_eq_true, before_iff, before_iff]
      grind
  refine hsorted.imp_of_mem fun {c d} hc hd hbefore => ?_
  rw [before_iff, hrank c hc, hrank d hd] at hbefore
  simpa using hbefore

/-- A sum over the crossings of a line is one over the edges. -/
theorem sum_crossings (f : Crossing ℚ → Int) (vertices : List (Point ℚ)) (height : ℚ) :
    ((crossings vertices height).map f).sum = ((edges vertices).map fun e =>
      if direction height e = 0 then 0 else f ⟨abscissa height e, 1, direction height e⟩).sum := by
  rw [crossings, ((List.mergeSort_perm _ _).map f).sum_eq]
  induction edges vertices with
  | nil => rfl
  | cons e es ih =>
    rw [List.map_cons, List.sum_cons, ← ih, List.filterMap_cons, crossing?_eq]
    by_cases hcross : direction height e = 0
    · simp [hcross]
    · simp [hcross]

/-- A pixel lies in an interval when its centre lies between the first two crossings and the running sum there is
not zero, or when it lies in an interval of the others. -/
theorem exists_spansFrom_cons_iff (sum : Int) (c d : Crossing ℚ) (rest : List (Crossing ℚ)) (x : Nat) :
    (∃ span ∈ spansFrom sum (c :: d :: rest), span.1 ≤ x ∧ x < span.2) ↔
      (sum + c.winding ≠ 0 ∧ c.x ≤ (x : ℚ) + 1 / 2 ∧ (x : ℚ) + 1 / 2 < d.x) ∨
        ∃ span ∈ spansFrom (sum + c.winding) (d :: rest), span.1 ≤ x ∧ x < span.2 := by
  have hspan : firstPixel c.x ≤ x ∧ x < firstPixel d.x ↔ c.x ≤ (x : ℚ) + 1 / 2 ∧ (x : ℚ) + 1 / 2 < d.x := by
    rw [firstPixel_le_iff, ← not_le, firstPixel_le_iff, not_le]
  rw [← hspan, spansFrom]
  by_cases hzero : sum + c.winding = 0 <;> simp [hzero]

/-- Between two neighbours the running sum is that of all crossings so far. So a pixel lies in an interval exactly
when there are crossings on both sides of its centre and the sum up to there is not zero. -/
theorem exists_spansFrom_iff {cs : List (Crossing ℚ)} (hsorted : cs.Pairwise fun c d => c.x ≤ d.x) (sum : Int)
    (x : Nat) :
    (∃ span ∈ spansFrom sum cs, span.1 ≤ x ∧ x < span.2) ↔
      (∃ c ∈ cs, c.x ≤ (x : ℚ) + 1 / 2) ∧ (∃ c ∈ cs, (x : ℚ) + 1 / 2 < c.x) ∧
        sum + windingUpTo (x + 1 / 2) cs ≠ 0 := by
  induction cs generalizing sum with
  | nil => simp [spansFrom]
  | cons c rest ih =>
    cases rest with
    | nil =>
      simp only [spansFrom, List.not_mem_nil, false_and, exists_false, false_iff, List.mem_singleton,
        exists_eq_left]
      exact fun h => absurd h.1 (not_le_of_gt h.2.1)
    | cons d rest =>
      obtain ⟨hhead, htail⟩ := List.pairwise_cons.mp hsorted
      rw [exists_spansFrom_cons_iff, ih htail, windingUpTo_cons _ c]
      generalize (x : ℚ) + 1 / 2 = centre
      rcases lt_or_ge centre c.x with hbefore | hafter
      · -- the centre lies before all crossings
        have hall : ∀ e ∈ c :: d :: rest, ¬ e.x ≤ centre := by
          simp only [List.mem_cons, forall_eq_or_imp]
          refine ⟨hbefore.not_ge, (hbefore.trans_le (hhead d List.mem_cons_self)).not_ge, fun e he => ?_⟩
          exact (hbefore.trans_le (hhead e (List.mem_cons_of_mem d he))).not_ge
        refine iff_of_false ?_ fun h => ?_
        · rintro (⟨_, hc, _⟩ | ⟨⟨e, he, hle⟩, _⟩)
          · exact hall c List.mem_cons_self hc
          · exact hall e (List.mem_cons_of_mem c he) hle
        · obtain ⟨e, he, hle⟩ := h.1
          exact hall e he hle
      · rcases lt_or_ge centre d.x with hbetween | hbehind
        · -- it lies between the first two, so the later ones add nothing to the sum
          have hlater : ∀ e ∈ d :: rest, centre < e.x := by
            rw [List.forall_mem_cons]
            exact ⟨hbetween, fun e he => hbetween.trans_le ((List.pairwise_cons.mp htail).1 e he)⟩
          rw [windingUpTo_eq_zero hlater, if_pos hafter, add_zero, add_zero]
          constructor
          · rintro (⟨hsum, _⟩ | ⟨⟨e, he, hle⟩, _⟩)
            · exact ⟨⟨c, List.mem_cons_self, hafter⟩, ⟨d, by simp, hbetween⟩, hsum⟩
            · exact absurd hle (hlater e he).not_ge
          · rintro ⟨_, _, hsum⟩
            exact Or.inl ⟨hsum, hafter, hbetween⟩
        · -- it lies behind the first two, and the interval between them does not matter
          rw [if_pos hafter, ← add_assoc]
          have hright : (∃ e ∈ c :: d :: rest, centre < e.x) ↔ ∃ e ∈ d :: rest, centre < e.x := by
            rw [List.exists_mem_cons_iff]
            exact or_iff_right hafter.not_gt
          rw [hright]
          constructor
          · rintro (⟨_, _, hlt⟩ | ⟨_, h⟩)
            · exact absurd hlt hbehind.not_gt
            · exact ⟨⟨c, List.mem_cons_self, hafter⟩, h⟩
          · rintro ⟨_, h⟩
            exact Or.inr ⟨⟨d, List.mem_cons_self, hbehind⟩, h⟩

end Sweep

/-- A fold that picks one of two heights, on the same side of both each time, ends on this side of every height. -/
theorem foldl_pick {R : ℚ → ℚ → Prop} [Std.Refl R] [IsTrans ℚ R] {pick : ℚ → ℚ → ℚ}
    (hfirst : ∀ a b, R (pick a b) a) (hsecond : ∀ a b, R (pick a b) b) {ps : List (Point ℚ)} {start height : ℚ}
    (h : start = height ∨ ∃ q ∈ ps, q.y = height) : R (ps.foldl (fun m q => pick m q.y) start) height := by
  induction ps generalizing start height with
  | nil =>
    rw [h.resolve_right (by simp)]
    exact Std.Refl.refl height
  | cons q ps ih =>
    rw [List.foldl_cons]
    rcases h with rfl | ⟨q', hq', rfl⟩
    · exact IsTrans.trans _ _ _ (ih (Or.inl rfl)) (hfirst _ _)
    · rcases List.mem_cons.mp hq' with rfl | hq'
      · exact IsTrans.trans _ _ _ (ih (Or.inl rfl)) (hsecond _ _)
      · exact ih (Or.inr ⟨q', hq', rfl⟩)

section Rows

variable [Transcendentals] {vertices : List (Point ℚ)}

/-- The centre of a row lies half a pixel below its upper edge. -/
theorem rowCentre_eq (y : Nat) : (rowCentre y : ℚ) = y + 1 / 2 := by
  change (y : ℚ) + ((1 : Nat) : ℚ) / ((2 : Nat) : ℚ) = _
  rw [Nat.cast_one, Nat.cast_ofNat]

/-- The rows of a polygon lie between two heights, and so do all vertices. -/
theorem exists_rowRange? (p : Point ℚ) (ps : List (Point ℚ)) : ∃ low high : ℚ,
    rowRange? (p :: ps) = some (firstPixel low, firstPixel high) ∧ ∀ q ∈ p :: ps, low ≤ q.y ∧ q.y ≤ high := by
  refine ⟨_, _, rfl, fun q hq => ?_⟩
  have hmem : p.y = q.y ∨ ∃ q' ∈ ps, q'.y = q.y := by
    rcases List.mem_cons.mp hq with rfl | hq
    · exact Or.inl rfl
    · exact Or.inr ⟨q, hq, rfl⟩
  refine ⟨foldl_pick (R := (· ≤ ·)) (fun a b => ?_) (fun a b => ?_) hmem,
    foldl_pick (R := (· ≥ ·)) (fun a b => ?_) (fun a b => ?_) hmem⟩
  · exact (Scalar.least_rat a b).trans_le (min_le_left a b)
  · exact (Scalar.least_rat a b).trans_le (min_le_right a b)
  · exact (le_max_left a b).trans_eq (Scalar.greatest_rat a b).symm
  · exact (le_max_right a b).trans_eq (Scalar.greatest_rat a b).symm

/-- The sum up to the centre of a pixel is the winding number there. -/
theorem windingUpTo_crossings (vertices : List (Point ℚ)) (p : Point ℚ) :
    windingUpTo p.x (crossings vertices p.y) = windingNumber vertices p := by
  rw [windingUpTo, sum_crossings, windingNumber]
  refine congrArg List.sum (List.map_congr_left fun e _ => ?_)
  by_cases hcross : direction p.y e = 0 <;> simp [hcross]

/-- At a point with a winding number other than zero there are crossings on both sides. -/
theorem exists_crossings {p : Point ℚ} (h : windingNumber vertices p ≠ 0) :
    (∃ c ∈ crossings vertices p.y, c.x ≤ p.x) ∧ ∃ c ∈ crossings vertices p.y, p.x < c.x := by
  rw [← windingUpTo_crossings] at h
  constructor
  · by_contra! hnone
    exact h (windingUpTo_eq_zero hnone)
  · by_contra! hnone
    refine h ?_
    rw [windingUpTo, List.map_congr_left fun c hc => if_pos (hnone c hc), sum_crossings]
    refine Eq.trans (congrArg List.sum (List.map_congr_left fun e _ => ?_)) (sum_direction_edges vertices p.y)
    split
    · next hcross => exact hcross.symm
    · rfl

/-- A polygon covers the pixels around whose centres it winds. -/
theorem covers_iff (vertices : List (Point ℚ)) (x y : Nat) :
    covers vertices x y = true ↔ windingNumber vertices ⟨x + 1 / 2, y + 1 / 2⟩ ≠ 0 := by
  rcases vertices with _ | ⟨p, ps⟩
  · exact iff_of_false Bool.false_ne_true fun h => h rfl
  obtain ⟨low, high, hrange, hbounds⟩ := exists_rowRange? p ps
  have hspans : covers (p :: ps) x y = true ↔ ∃ span ∈ rowSpans (p :: ps) y, span.1 ≤ x ∧ x < span.2 := by
    simp only [covers, List.any_eq_true, decide_eq_true_eq]
  simp only [hspans, rowSpans, hrange]
  split
  · next hnone =>
    refine iff_of_false (by simp) fun h => h ?_
    rcases hnone with hshort | habove | hbelow
    · exact windingNumber_of_length_lt hshort _
    · refine windingNumber_of_rows hbounds (Or.inl ?_)
      rwa [← not_le, firstPixel_le_iff, not_le] at habove
    · exact windingNumber_of_rows hbounds (Or.inr ((firstPixel_le_iff high y).mp hbelow))
  · have hsum := windingUpTo_crossings (p :: ps) ⟨x + 1 / 2, y + 1 / 2⟩
    rw [rowCentre_eq, exists_spansFrom_iff (pairwise_crossings _ _), zero_add]
    constructor
    · rintro ⟨_, _, hne⟩
      rwa [← hsum]
    · intro hne
      obtain ⟨hleft, hright⟩ := exists_crossings hne
      exact ⟨hleft, hright, by rwa [hsum]⟩

/-- Drawn polygons depend on their winding numbers alone, and only on whether these are zero. -/
theorem draw_congr {vertices vertices' : List (Point ℚ)}
    (h : ∀ p, windingNumber vertices p = 0 ↔ windingNumber vertices' p = 0) (m : Mask) (value : Bool) :
    draw vertices m value = draw vertices' m value := by
  have hsize (vs : List (Point ℚ)) : (draw vs m value).size = m.size := Mask.size_draw ..
  refine Grid.ext_getD ((hsize _).trans (hsize _).symm) false fun x y hxy => ?_
  rw [hsize] at hxy
  refine (get_draw value hxy).trans (Eq.trans ?_ (get_draw value hxy).symm)
  refine if_congr ?_ rfl rfl
  rw [covers_iff, covers_iff, ne_eq, h]

end Rows

/-- Filling follows the nonzero winding rule. In exact arithmetic, a polygon that is drawn into a mask sets exactly
the pixels around whose centres its winding number is not zero: the directions of the edges that cross the line
through the centre, half open, at an abscissa not greater than that of the centre have a sum other than zero. This
holds for any list of vertices and any mask. So the pixels set depend neither on the starting vertex nor on the
direction of the list. -/
theorem draw_nonzero_winding [Transcendentals] (vertices : List (Point ℚ)) (m : Mask) (value : Bool) :
    (draw vertices m value).size = m.size ∧
    (∀ x y, m.size.Contains x y → (draw vertices m value).get x y =
      if windingNumber vertices ⟨x + 1 / 2, y + 1 / 2⟩ ≠ 0 then value else m.get x y) ∧
    (∀ n, draw (vertices.rotate n) m value = draw vertices m value) ∧
    draw vertices.reverse m value = draw vertices m value := by
  refine ⟨Mask.size_draw .., fun x y hxy => ?_, fun n => ?_, ?_⟩
  · rw [get_draw value hxy]
    exact if_congr (covers_iff vertices x y) rfl rfl
  · exact draw_congr (fun p => by rw [windingNumber_rotate]) m value
  · exact draw_congr (fun p => by rw [windingNumber_reverse, neg_eq_zero]) m value

/-- A square that is walked around twice winds twice around its inside. -/
example : windingNumber [⟨0, 0⟩, ⟨0, 2⟩, ⟨2, 2⟩, ⟨2, 0⟩, ⟨0, 0⟩, ⟨0, 2⟩, ⟨2, 2⟩, ⟨2, 0⟩] ⟨1, 1⟩ = 2 := by
  decide +kernel

end Polygon

end ScannedPage
