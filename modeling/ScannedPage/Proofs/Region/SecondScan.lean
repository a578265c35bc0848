import ScannedPage.Proofs.Rect
import ScannedPage.Proofs.Region.FirstScan

/-!
# The second scan of a labelling

The second scan numbers the classes of provisional labels in the order in which it meets them, and gathers
the pixels of each number. What holds when it has passed the first `n` positions is `Numbered`: roots and
numbers correspond, smaller numbers stand earlier, and every component counts and encloses its own pixels.
-/

namespace ScannedPage

/-- Writing a label on a place without one adds one place to this label and to no other. -/
theorem Grid.count_set {g : Grid Nat} {x y : Nat} (hxy : g.size.Contains x y) (hold : g.getD x y 0 = 0)
    {value label : Nat} (hlabel : label ≠ 0) :
    (g.set x y value).cells.count label = g.cells.count label + if value = label then 1 else 0 := by
  have hi : g.size.index x y < g.cells.size := g.size_cells ▸ Size.index_lt hxy
  have hcell : g.cells[g.size.index x y] = 0 := by simpa [getD, get?, hxy, hi] using hold
  have hset : (g.set x y value).cells = g.cells.set (g.size.index x y) value := by
    rw [set, if_pos hxy]
    simp only [Array.setIfInBounds, hi, dif_pos]
  rw [hset, Array.count_set hi, hcell]
  simp [Ne.symm hlabel]

/-- A label that is read nowhere has no place. -/
theorem Grid.count_eq_zero {g : Grid Nat} {label : Nat} (h : ∀ x y, g.getD x y 0 ≠ label) :
    g.cells.count label = 0 := by
  refine Array.count_eq_zero.mpr fun hmem => ?_
  obtain ⟨i, hi, hcell⟩ := Array.mem_iff_getElem.mp hmem
  have hin := Size.contains_mod_div (g.size_cells ▸ hi)
  refine h (i % g.size.width) (i / g.size.width) ?_
  simp [getD, get?, hin, Size.index_mod_div, hi, hcell]

namespace Region

/-- A component counts and encloses exactly the pixels with a label. -/
structure Component.Describes (k : Component) (labels : Grid Nat) (label : Nat) : Prop where
  label_eq : k.label = label
  pixelCount_eq : k.pixelCount = labels.cells.count label
  bounds_within_iff : ∀ r : Rect, k.bounds.Within r ↔ ∀ x y, labels.getD x y 0 = label → r.contains x y = true

section Describes

variable {k : Component} {labels : Grid Nat} {x y label : Nat} (hxy : labels.size.Contains x y)
  (hold : labels.getD x y 0 = 0)
include hxy

/-- The pixels with a label after one more place got it. -/
theorem forall_set_iff (P : Nat → Nat → Prop) :
    (∀ x' y', (labels.set x y label).getD x' y' 0 = label → P x' y') ↔
      (∀ x' y', labels.getD x' y' 0 = label → P x' y') ∧ P x y := by
  simp only [Grid.getD_set, hxy, and_true]
  constructor
  · intro h
    refine ⟨fun x' y' hl => h x' y' ?_, h x y (if_pos ⟨rfl, rfl⟩)⟩
    rw [hl, ite_self]
  · rintro ⟨h, hp⟩ x' y' hl
    split at hl
    · next heq => exact heq.1 ▸ heq.2 ▸ hp
    · exact h x' y' hl

include hold

/-- One more pixel for a component keeps it true to its label. -/
theorem Component.Describes.add (h : k.Describes labels label) (hlabel : label ≠ 0) :
    (k.add x y).Describes (labels.set x y label) label := by
  refine ⟨h.label_eq, ?_, fun r => ?_⟩
  · rw [Grid.count_set hxy hold hlabel, if_pos rfl, ← h.pixelCount_eq]
    rfl
  · rw [forall_set_iff hxy, ← h.bounds_within_iff, ← Rect.pixel_within_iff]
    exact Rect.union_within_iff

/-- A component is not changed by pixels with other labels. -/
theorem Component.Describes.of_ne {other : Nat} (h : k.Describes labels label) (hlabel : label ≠ 0)
    (hne : other ≠ label) : k.Describes (labels.set x y other) label := by
  refine ⟨h.label_eq, ?_, fun r => ?_⟩
  · rw [Grid.count_set hxy hold hlabel, if_neg hne, h.pixelCount_eq, Nat.add_zero]
  · rw [h.bounds_within_iff]
    simp only [Grid.getD_set, hxy, and_true]
    constructor
    · intro hr x' y' hl
      split at hl
      · exact absurd hl hne
      · exact hr x' y' hl
    · intro hr x' y' hl
      refine hr x' y' ?_
      rw [if_neg, hl]
      rintro ⟨rfl, rfl⟩
      exact hlabel (hl.symm.trans hold)

/-- The first pixel of a component. -/
theorem Component.describes_first (hlabel : label ≠ 0) (hnone : ∀ x' y', labels.getD x' y' 0 ≠ label) :
    (Component.add ⟨label, 0, .pixel x y⟩ x y).Describes (labels.set x y label) label := by
  refine ⟨rfl, ?_, fun r => ?_⟩
  · rw [Grid.count_set hxy hold hlabel, if_pos rfl, Grid.count_eq_zero hnone]
    rfl
  · rw [forall_set_iff hxy, Component.add, Rect.union_within_iff, Rect.pixel_within_iff, and_self]
    exact ⟨fun hr => ⟨fun x' y' hl => absurd hl (hnone x' y'), hr⟩, And.right⟩

end Describes

/-- The number of a root, zero for a root not met so far. -/
def Numbering.number (s : Numbering) (root : Nat) : Nat := s.numbers.getD root 0

/-- The number that a root has or gets. -/
def Numbering.assigned (s : Numbering) (root : Nat) : Nat :=
  if s.number root = 0 then s.components.size + 1 else s.number root

/-- The final label of a position, as far as the second scan has come. -/
def Numbering.labelAt (s : Numbering) (q : Nat × Nat) : Nat := s.labels.getD q.1 q.2 0

/-- A position with a provisional label among the first `n` of a scan. -/
def Provisional.Passed (p : Provisional) (n : Nat) (q : Nat × Nat) : Prop :=
  p.labelAt q ≠ 0 ∧ p.labels.size.index q.1 q.2 < n

/-- The root of the provisional label of a position. -/
def Provisional.rootAt (p : Provisional) (q : Nat × Nat) : Nat := p.classes.root (p.labelAt q)

/-- What holds when the second scan has passed the first `n` positions. -/
structure Numbered (p : Provisional) (n : Nat) (s : Numbering) : Prop where
  size : s.labels.size = p.labels.size
  roots : UnionFind.SameRoots p.classes s.classes
  size_numbers : s.numbers.size = p.classes.parents.size
  label_eq : ∀ q, p.Passed n q → s.labelAt q = s.number (p.rootAt q)
  label_eq_zero : ∀ q, ¬ p.Passed n q → s.labelAt q = 0
  number_ne_zero_iff : ∀ r, s.number r ≠ 0 ↔ ∃ q, p.Passed n q ∧ p.rootAt q = r
  number_inj : ∀ r r', s.number r ≠ 0 → s.number r = s.number r' → r = r'
  number_eq_iff : ∀ k, k ≠ 0 → ((∃ r, s.number r = k) ↔ k ≤ s.components.size)
  earlier : ∀ (q : Nat × Nat) j, j ≠ 0 → j < s.labelAt q →
    ∃ q' : Nat × Nat, p.labels.size.index q'.1 q'.2 < p.labels.size.index q.1 q.2 ∧ s.labelAt q' = j
  describes : ∀ (i : Nat) (k : Component), s.components[i]? = some k → k.Describes s.labels (i + 1)

section Visit

variable {s : Numbering} {provisional x y : Nat}

/-- A visit writes the number of the root of the pixel. -/
theorem Numbering.labels_visit : (s.visit provisional x y).labels =
    s.labels.set x y (s.assigned (s.classes.root provisional)) := by
  obtain ⟨classes, numbers, components, labels⟩ := s
  by_cases hzero : numbers.getD (classes.root provisional) 0 = 0
  · simp only [visit, UnionFind.fst_find, assigned, number, hzero, ↓reduceIte]
  · simp only [visit, UnionFind.fst_find, assigned, number, hzero, ↓reduceIte]

/-- A visit looks the class of the pixel up. -/
theorem Numbering.classes_visit : (s.visit provisional x y).classes = (s.classes.find provisional).2 := by
  obtain ⟨classes, numbers, components, labels⟩ := s
  simp only [visit]

/-- A visit keeps the number of places for numbers. -/
theorem Numbering.size_numbers_visit : (s.visit provisional x y).numbers.size = s.numbers.size := by
  obtain ⟨classes, numbers, components, labels⟩ := s
  by_cases hzero : numbers.getD (classes.root provisional) 0 = 0
  · simp only [visit, UnionFind.fst_find, hzero, ↓reduceIte, Array.size_setIfInBounds]
  · simp only [visit, UnionFind.fst_find, hzero, ↓reduceIte]

/-- Only the root of the pixel can get a number. -/
theorem Numbering.number_visit (hlt : s.classes.root provisional < s.numbers.size) (r : Nat) :
    (s.visit provisional x y).number r =
      if r = s.classes.root provisional then s.assigned r else s.number r := by
  obtain ⟨classes, numbers, components, labels⟩ := s
  by_cases hzero : numbers.getD (classes.root provisional) 0 = 0
  · simp only [visit, UnionFind.fst_find, assigned, number, hzero, ↓reduceIte, Array.getD_eq_getD_getElem?,
      Array.getElem?_setIfInBounds]
    by_cases hr : r = classes.root provisional
    · subst hr
      rw [if_pos rfl, if_pos hlt, if_pos rfl, ← Array.getD_eq_getD_getElem?, if_pos hzero]
      rfl
    · rw [if_neg (Ne.symm hr), if_neg hr]
  · simp only [visit, UnionFind.fst_find, assigned, number, hzero, ↓reduceIte]
    by_cases hr : r = classes.root provisional
    · simp only [hr, hzero, ↓reduceIte]
    · rw [if_neg hr]

/-- A root met for the first time opens a component; any other adds to the one it has. -/
theorem Numbering.components_visit : (s.visit provisional x y).components =
    if s.number (s.classes.root provisional) = 0 then
      (s.components.push ⟨s.components.size + 1, 0, .pixel x y⟩).modify s.components.size (·.add x y)
    else s.components.modify (s.number (s.classes.root provisional) - 1) (·.add x y) := by
  obtain ⟨classes, numbers, components, labels⟩ := s
  by_cases hzero : numbers.getD (classes.root provisional) 0 = 0
  · simp only [visit, UnionFind.fst_find, number, hzero, ↓reduceIte, Nat.add_sub_cancel]
  · simp only [visit, UnionFind.fst_find, number, hzero, ↓reduceIte]

end Visit

section Numbered

variable {p : Provisional} {s : Numbering} {x y : Nat}

/-- Provisional labels stand inside only. -/
theorem Provisional.contains_of_labelAt {q : Nat × Nat} (hq : p.labelAt q ≠ 0) :
    p.labels.size.Contains q.1 q.2 := by
  by_contra hout
  exact hq (Grid.getD_of_not_contains hout 0)

/-- Passing a position with a provisional label adds this position. -/
theorem Provisional.passed_succ_iff (hlabel : p.labelAt (x, y) ≠ 0) (q : Nat × Nat) :
    p.Passed (p.labels.size.index x y + 1) q ↔ p.Passed (p.labels.size.index x y) q ∨ q = (x, y) := by
  have hxy := contains_of_labelAt hlabel
  constructor
  · rintro ⟨hq, hlt⟩
    exact ((Size.index_lt_succ_iff (contains_of_labelAt hq).1 hxy.1).mp hlt).imp_left fun hlt => ⟨hq, hlt⟩
  · rintro (⟨hq, hlt⟩ | rfl)
    · exact ⟨hq, Nat.lt_succ_of_lt hlt⟩
    · exact ⟨hlabel, Nat.lt_succ_self _⟩

/-- Passing a position without a provisional label adds nothing. -/
theorem Provisional.passed_succ_iff_of_eq_zero (hlabel : p.labelAt (x, y) = 0)
    (hxy : p.labels.size.Contains x y) (q : Nat × Nat) :
    p.Passed (p.labels.size.index x y + 1) q ↔ p.Passed (p.labels.size.index x y) q := by
  refine ⟨fun ⟨hq, hlt⟩ => ⟨hq, ?_⟩, fun ⟨hq, hlt⟩ => ⟨hq, Nat.lt_succ_of_lt hlt⟩⟩
  refine ((Size.index_lt_succ_iff (contains_of_labelAt hq).1 hxy.1).mp hlt).resolve_right ?_
  rintro rfl
  exact hq hlabel

/-- A label stands exactly on the positions passed. -/
theorem Numbered.label_ne_zero_iff {n : Nat} (h : Numbered p n s) (q : Nat × Nat) :
    s.labelAt q ≠ 0 ↔ p.Passed n q := by
  constructor
  · intro hne
    by_contra hq
    exact hne (h.label_eq_zero q hq)
  · intro hq
    rw [h.label_eq q hq]
    exact (h.number_ne_zero_iff _).mpr ⟨q, hq, rfl⟩

/-- No root has a number beyond the components. -/
theorem Numbered.number_le {n : Nat} (h : Numbered p n s) (r : Nat) : s.number r ≤ s.components.size := by
  by_cases hr : s.number r = 0
  · rw [hr]
    exact Nat.zero_le _
  · exact (h.number_eq_iff _ hr).mp ⟨r, rfl⟩

/-- No label lies beyond the components. -/
theorem Numbered.label_le {n : Nat} (h : Numbered p n s) (q : Nat × Nat) : s.labelAt q ≤ s.components.size := by
  by_cases hq : p.Passed n q
  · rw [h.label_eq q hq]
    exact h.number_le _
  · rw [h.label_eq_zero q hq]
    exact Nat.zero_le _

/-- Every number is the label of some position passed. -/
theorem Numbered.exists_passed {n : Nat} (h : Numbered p n s) {k : Nat} (hk : k ≠ 0)
    (hle : k ≤ s.components.size) :
    ∃ q, p.Passed n q ∧ s.labelAt q = k := by
  obtain ⟨r, hr⟩ := (h.number_eq_iff k hk).mpr hle
  obtain ⟨q, hq, hroot⟩ := (h.number_ne_zero_iff r).mp (hr ▸ hk)
  exact ⟨q, hq, by rw [h.label_eq q hq, hroot, hr]⟩

/-- Before the first position nothing has a number. -/
theorem numbered_initial (hord : p.classes.Ordered) {size : Size} (hsize : size = p.labels.size) :
    Numbered p 0 ⟨p.classes, Array.replicate p.classes.parents.size 0, #[], Grid.filled size 0⟩ := by
  subst hsize
  have hnone (q : Nat × Nat) : ¬ p.Passed 0 q := fun hq => Nat.not_lt_zero _ hq.2
  have hlabel (q : Nat × Nat) : Numbering.labelAt
      ⟨p.classes, Array.replicate p.classes.parents.size 0, #[], Grid.filled p.labels.size 0⟩ q = 0 := by
    rw [Numbering.labelAt, Grid.getD_filled, ite_self]
  have hnumber (r : Nat) : Numbering.number
      ⟨p.classes, Array.replicate p.classes.parents.size 0, #[], Grid.filled p.labels.size 0⟩ r = 0 := by
    rw [Numbering.number, Array.getD_eq_getD_getElem?, Array.getElem?_replicate]
    split <;> rfl
  refine ⟨rfl, ⟨rfl, hord, fun _ => rfl⟩, Array.size_replicate, fun q hq => absurd hq (hnone q),
    fun q _ => hlabel q, fun r => ?_, fun r r' hr _ => absurd (hnumber r) hr, fun k hk => ?_, fun q j _ hlt => ?_,
      fun i k hk => ?_⟩
  · exact ⟨fun hr => absurd (hnumber r) hr, fun ⟨q, hq, _⟩ => absurd hq (hnone q)⟩
  · exact ⟨fun ⟨r, hr⟩ => absurd (hr.symm.trans (hnumber r)) hk, fun hle => absurd (Nat.le_zero.mp hle) hk⟩
  · rw [hlabel] at hlt
    exact absurd hlt (Nat.not_lt_zero j)
  · simp at hk

/-- No root gets the number zero. -/
theorem Numbering.assigned_ne_zero (s : Numbering) (r : Nat) : s.assigned r ≠ 0 := by
  rw [assigned]
  split
  · exact Nat.succ_ne_zero _
  · assumption

/-- A root with a number keeps it. -/
theorem Numbering.assigned_of_ne_zero {r : Nat} (h : s.number r ≠ 0) : s.assigned r = s.number r := if_neg h

/-- A root takes the next number at most. -/
theorem Numbered.assigned_le {n : Nat} (h : Numbered p n s) (r : Nat) :
    s.assigned r ≤ s.components.size + 1 := by
  rw [Numbering.assigned]
  split
  · exact Nat.le_refl _
  · exact Nat.le_succ_of_le (h.number_le r)

/-- No other root has the number that a root has or gets. -/
theorem Numbered.eq_of_assigned_eq {n : Nat} (h : Numbered p n s) {r r' : Nat}
    (heq : s.assigned r = s.number r') :
    r = r' := by
  by_cases hr : s.number r = 0
  · rw [Numbering.assigned, if_pos hr] at heq
    exact absurd (heq ▸ h.number_le r') (Nat.not_succ_le_self _)
  · exact h.number_inj r r' hr (Numbering.assigned_of_ne_zero hr ▸ heq)

section Step

variable (h : Numbered p (p.labels.size.index x y) s) (hxy : p.labels.size.Contains x y)
include h

/-- The position that a scan comes to has no label so far. -/
theorem Numbered.labelAt_current : s.labelAt (x, y) = 0 :=
  h.label_eq_zero _ fun hq => Nat.lt_irrefl _ hq.2

/-- The classes give a provisional label the root it had after the first scan. -/
theorem Numbered.root_current : s.classes.root (p.labelAt (x, y)) = p.rootAt (x, y) := h.roots.root _

/-- A root without a number opens one component more. -/
theorem Numbered.size_components_visit : (s.visit (p.labelAt (x, y)) x y).components.size =
    if s.number (p.rootAt (x, y)) = 0 then s.components.size + 1 else s.components.size := by
  rw [Numbering.components_visit, h.root_current]
  split
  · rw [Array.size_modify, Array.size_push]
  · rw [Array.size_modify]

section Numbers

variable (hlt : p.labelAt (x, y) < p.classes.parents.size)
include hlt

/-- The root of the position has its number after the visit, and the others keep theirs. -/
theorem Numbered.number_visit (r : Nat) : (s.visit (p.labelAt (x, y)) x y).number r =
    if r = p.rootAt (x, y) then s.assigned r else s.number r := by
  have hroot : s.classes.root (p.labelAt (x, y)) < s.numbers.size := by
    rw [h.size_numbers]
    exact Nat.lt_of_le_of_lt (UnionFind.root_le h.roots.ordered _) hlt
  rw [Numbering.number_visit hroot, h.root_current]

/-- The roots with a number are those of the positions passed. -/
theorem Numbered.number_ne_zero_iff_visit (hlabel : p.labelAt (x, y) ≠ 0) (r : Nat) :
    (s.visit (p.labelAt (x, y)) x y).number r ≠ 0 ↔
      ∃ q, p.Passed (p.labels.size.index x y + 1) q ∧ p.rootAt q = r := by
  have hpassed := p.passed_succ_iff hlabel
  rw [h.number_visit hlt]
  split
  · next heq =>
    exact ⟨fun _ => ⟨(x, y), (hpassed _).mpr (Or.inr rfl), heq.symm⟩, fun _ => s.assigned_ne_zero r⟩
  · next hne =>
    rw [h.number_ne_zero_iff]
    constructor
    · rintro ⟨q, hq, hr⟩
      exact ⟨q, (hpassed q).mpr (Or.inl hq), hr⟩
    · rintro ⟨q, hq, hr⟩
      rcases (hpassed q).mp hq with hq | rfl
      · exact ⟨q, hq, hr⟩
      · exact absurd hr.symm hne

/-- Different roots keep different numbers. -/
theorem Numbered.number_inj_visit (r r' : Nat) (hr : (s.visit (p.labelAt (x, y)) x y).number r ≠ 0)
    (heq : (s.visit (p.labelAt (x, y)) x y).number r = (s.visit (p.labelAt (x, y)) x y).number r') :
    r = r' := by
  rw [h.number_visit hlt] at hr
  rw [h.number_visit hlt, h.number_visit hlt] at heq
  split at heq
  · split at heq
    · next h₁ h₂ => rw [h₁, h₂]
    · exact h.eq_of_assigned_eq heq
  · next hne =>
    rw [if_neg hne] at hr
    split at heq
    · exact (h.eq_of_assigned_eq heq.symm).symm
    · exact h.number_inj r r' hr heq

/-- The numbers in use stay those of the components. -/
theorem Numbered.number_eq_iff_visit (k : Nat) (hk : k ≠ 0) :
    (∃ r, (s.visit (p.labelAt (x, y)) x y).number r = k) ↔
      k ≤ (s.visit (p.labelAt (x, y)) x y).components.size := by
  rw [h.size_components_visit]
  by_cases hzero : s.number (p.rootAt (x, y)) = 0
  · rw [if_pos hzero]
    constructor
    · rintro ⟨r, rfl⟩
      rw [h.number_visit hlt]
      split
      · exact h.assigned_le r
      · exact Nat.le_succ_of_le (h.number_le r)
    · intro hle
      rcases Nat.lt_or_eq_of_le hle with hlt' | heq
      · obtain ⟨r, hr⟩ := (h.number_eq_iff k hk).mpr (Nat.le_of_lt_succ hlt')
        refine ⟨r, ?_⟩
        rw [h.number_visit hlt, if_neg, hr]
        rintro rfl
        exact hk (hr.symm.trans hzero)
      · refine ⟨p.rootAt (x, y), ?_⟩
        rw [h.number_visit hlt, if_pos rfl, Numbering.assigned, if_pos hzero, heq]
  · rw [if_neg hzero, ← h.number_eq_iff k hk]
    refine exists_congr fun r => ?_
    rw [h.number_visit hlt]
    split
    · next heq => rw [Numbering.assigned_of_ne_zero (heq ▸ hzero)]
    · rfl

end Numbers

include hxy

/-- The position has the number of its root after the visit, and the others keep theirs. -/
theorem Numbered.labelAt_visit (q : Nat × Nat) : (s.visit (p.labelAt (x, y)) x y).labelAt q =
    if q = (x, y) then s.assigned (p.rootAt (x, y)) else s.labelAt q := by
  rw [Numbering.labelAt, Numbering.labels_visit, Grid.getD_set, h.root_current]
  simp only [h.size, hxy, and_true, Prod.ext_iff, Numbering.labelAt]

/-- The component of the position gains this position; every other one stays. -/
theorem Numbered.describes_visit (i : Nat) (k : Component)
    (hk : (s.visit (p.labelAt (x, y)) x y).components[i]? = some k) :
    k.Describes (s.visit (p.labelAt (x, y)) x y).labels (i + 1) := by
  have hxy' : s.labels.size.Contains x y := h.size ▸ hxy
  have hold : s.labels.getD x y 0 = 0 := h.labelAt_current
  rw [Numbering.components_visit, h.root_current] at hk
  rw [Numbering.labels_visit, h.root_current, Numbering.assigned]
  split at hk
  · next hzero =>
    rw [Array.getElem?_modify, Array.getElem?_push] at hk
    rw [if_pos hzero]
    by_cases hi : s.components.size = i
    · subst hi
      rw [if_pos rfl, if_pos rfl, Option.map_some, Option.some.injEq] at hk
      rw [← hk]
      refine Component.describes_first hxy' hold (Nat.succ_ne_zero _) fun x' y' hl => ?_
      have hle := h.label_le (x', y')
      rw [Numbering.labelAt, hl] at hle
      exact Nat.not_succ_le_self _ hle
    · rw [if_neg hi, if_neg (Ne.symm hi)] at hk
      exact (h.describes i k hk).of_ne hxy' hold (Nat.succ_ne_zero i) fun heq => hi (Nat.succ.inj heq)
  · next hne =>
    rw [Array.getElem?_modify] at hk
    rw [if_neg hne]
    have hpred : s.number (p.rootAt (x, y)) - 1 + 1 = s.number (p.rootAt (x, y)) := Nat.succ_pred hne
    split at hk
    · next hi =>
      obtain ⟨k', hk', rfl⟩ := Option.map_eq_some_iff.mp hk
      have hadd := (h.describes i k' hk').add hxy' hold (Nat.succ_ne_zero i)
      rwa [← hi, hpred] at hadd ⊢
    · next hi =>
      refine (h.describes i k hk).of_ne hxy' hold (Nat.succ_ne_zero i) fun heq => hi ?_
      rw [heq, Nat.add_sub_cancel]

/-- Every smaller label stands earlier in the scan. -/
theorem Numbered.earlier_visit (q : Nat × Nat) (j : Nat) (hj : j ≠ 0)
    (hlt : j < (s.visit (p.labelAt (x, y)) x y).labelAt q) :
    ∃ q' : Nat × Nat, p.labels.size.index q'.1 q'.2 < p.labels.size.index q.1 q.2 ∧
      (s.visit (p.labelAt (x, y)) x y).labelAt q' = j := by
  have hkeep (q' : Nat × Nat) (hq' : s.labelAt q' = j) : (s.visit (p.labelAt (x, y)) x y).labelAt q' = j := by
    rw [h.labelAt_visit hxy, if_neg, hq']
    rintro rfl
    exact hj (hq'.symm.trans h.labelAt_current)
  rw [h.labelAt_visit hxy] at hlt
  split at hlt
  · next heq =>
    have hle : j ≤ s.components.size := Nat.le_of_lt_succ (Nat.lt_of_lt_of_le hlt (h.assigned_le _))
    obtain ⟨q', hq', hl⟩ := h.exists_passed hj hle
    exact ⟨q', heq ▸ hq'.2, hkeep q' hl⟩
  · obtain ⟨q', hq', hl⟩ := h.earlier q j hj hlt
    exact ⟨q', hq', hkeep q' hl⟩

/-- Numbering a position with a provisional label takes one step of the scan. -/
theorem Numbered.visit (hlt : p.labelAt (x, y) < p.classes.parents.size) (hlabel : p.labelAt (x, y) ≠ 0) :
    Numbered p (p.labels.size.index x y + 1) (s.visit (p.labelAt (x, y)) x y) := by
  have hroots := UnionFind.sameRoots_find h.roots.ordered (p.labelAt (x, y))
  have hpassed := p.passed_succ_iff hlabel
  refine ⟨?_, ?_, ?_, fun q hq => ?_, fun q hq => ?_, h.number_ne_zero_iff_visit hlt hlabel,
    h.number_inj_visit hlt, h.number_eq_iff_visit hlt, h.earlier_visit hxy, h.describes_visit hxy⟩
  · rw [Numbering.labels_visit, Grid.size_set, h.size]
  · rw [Numbering.classes_visit]
    exact ⟨hroots.size.trans h.roots.size, hroots.ordered, fun l => (hroots.root l).trans (h.roots.root l)⟩
  · rw [Numbering.size_numbers_visit, h.size_numbers]
  · rw [h.labelAt_visit hxy, h.number_visit hlt]
    rcases (hpassed q).mp hq with hq | rfl
    · have hne : q ≠ (x, y) := fun he => Nat.lt_irrefl _ (he ▸ hq).2
      have hold : s.number (p.rootAt q) ≠ 0 := (h.number_ne_zero_iff _).mpr ⟨q, hq, rfl⟩
      rw [if_neg hne, h.label_eq q hq, Numbering.assigned_of_ne_zero hold, ite_self]
    · rw [if_pos rfl, if_pos rfl]
  · rw [hpassed, not_or] at hq
    rw [h.labelAt_visit hxy, if_neg hq.2, h.label_eq_zero q hq.1]

end Step

/-- What the second scan knows depends on the positions passed only. -/
theorem Numbered.congr {n n' : Nat} (h : Numbered p n s) (hiff : ∀ q, p.Passed n' q ↔ p.Passed n q) :
    Numbered p n' s :=
  { h with
    label_eq := fun q hq => h.label_eq q ((hiff q).mp hq)
    label_eq_zero := fun q hq => h.label_eq_zero q fun hq' => hq ((hiff q).mpr hq')
    number_ne_zero_iff := fun r => (h.number_ne_zero_iff r).trans
      (exists_congr fun q => and_congr_left fun _ => (hiff q).symm) }

end Numbered

end Region

end ScannedPage
