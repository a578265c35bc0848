import ScannedPage.Proofs.Region.SecondScan

/-!
# The labelling of a mask gives its connected components

Both scans together say what the labelling of a mask is: two selected pixels share a label exactly when a
path of selected pixels joins them, labels follow the order of the first pixels, and every component counts
and encloses its own pixels (`IsComponentLabeling`).
-/

namespace ScannedPage.Region

/-- A labelling is what the second scan leaves after the last position. -/
theorem exists_numbered (m : Mask) (c : Connectivity) :
    ∃ s, Numbered (provisionalLabels m c) m.size.area s ∧ labelMask m c = ⟨s.labels, s.components⟩ := by
  have hp := scanned_provisionalLabels m c
  refine ⟨_, ?_, rfl⟩
  dsimp only
  apply scan_induction m.size.area _ _ (fun n s => Numbered (provisionalLabels m c) n s)
    (numbered_initial hp.ordered hp.size.symm)
  intro i hi s h
  rw [← hp.size] at hi ⊢
  have hxy := Size.contains_mod_div hi
  rw [← Size.index_mod_div (provisionalLabels m c).labels.size i] at h ⊢
  rw [Size.index_mod hxy.1, Size.index_div hxy.1]
  split
  · next hzero => exact h.congr (Provisional.passed_succ_iff_of_eq_zero hzero hxy)
  · next hne => exact h.visit hxy (hp.label_lt _) hne

/-- The first position of a component in the order of a scan. -/
def IsFirst (m : Mask) (c : Connectivity) (q : Nat × Nat) : Prop :=
  m.Selects q ∧ ∀ q', c.Joins m.Selects q q' → m.size.index q.1 q.2 ≤ m.size.index q'.1 q'.2

/-- A labelling that gives the connected components of a mask, in the order of their first positions. -/
structure IsComponentLabeling (m : Mask) (c : Connectivity) (l : Labeling) : Prop where
  size : l.labels.size = m.size
  label_eq_zero_iff : ∀ x y, l.labelAt x y = 0 ↔ ¬ m.Selects (x, y)
  label_eq_iff : ∀ a b, m.Selects a → m.Selects b →
    (l.labelAt a.1 a.2 = l.labelAt b.1 b.2 ↔ c.Joins m.Selects a b)
  label_used_iff : ∀ label, (∃ q, m.Selects q ∧ l.labelAt q.1 q.2 = label) ↔ 1 ≤ label ∧ label ≤ l.count
  label_lt_iff : ∀ a b, IsFirst m c a → IsFirst m c b →
    (l.labelAt a.1 a.2 < l.labelAt b.1 b.2 ↔ m.size.index a.1 a.2 < m.size.index b.1 b.2)
  describes : ∀ (i : Nat) (k : Component), l.components[i]? = some k → k.Describes l.labels (i + 1)

section LabelMask

variable (m : Mask) (c : Connectivity)

/-- Labels stand on the positions of the mask. -/
theorem size_labelMask : (labelMask m c).labels.size = m.size := by
  obtain ⟨s, h, hl⟩ := exists_numbered m c
  rw [hl]
  exact h.size.trans (scanned_provisionalLabels m c).size

/-- A scan has passed every selected position at its end. -/
theorem selectsBefore_area_iff (q : Nat × Nat) : m.SelectsBefore m.size.area q ↔ m.Selects q :=
  ⟨And.left, fun hq => ⟨hq, Size.index_lt hq.contains⟩⟩

/-- The first scan leaves a label exactly on the selected positions. -/
theorem passed_area_iff (q : Nat × Nat) : (provisionalLabels m c).Passed m.size.area q ↔ m.Selects q := by
  have hp := scanned_provisionalLabels m c
  rw [Provisional.Passed, hp.label_ne_zero_iff, selectsBefore_area_iff, hp.size]
  exact and_iff_left_of_imp fun hq => Size.index_lt hq.contains

/-- Label zero stands on the positions that are not selected. -/
theorem labelAt_labelMask_eq_zero_iff (x y : Nat) : (labelMask m c).labelAt x y = 0 ↔ ¬ m.Selects (x, y) := by
  obtain ⟨s, h, hl⟩ := exists_numbered m c
  rw [← passed_area_iff m c, ← h.label_ne_zero_iff, not_not, hl]
  rfl

/-- A label stands on one component. -/
theorem labelAt_labelMask_eq_iff {a b : Nat × Nat} (ha : m.Selects a) (hb : m.Selects b) :
    (labelMask m c).labelAt a.1 a.2 = (labelMask m c).labelAt b.1 b.2 ↔ c.Joins m.Selects a b := by
  obtain ⟨s, h, hl⟩ := exists_numbered m c
  have hbefore := selectsBefore_area_iff m
  have ha' := (passed_area_iff m c a).mpr ha
  have hb' := (passed_area_iff m c b).mpr hb
  rw [← Connectivity.joins_congr hbefore,
    ← (scanned_provisionalLabels m c).root_eq_iff a b ((hbefore a).mpr ha) ((hbefore b).mpr hb), hl]
  have hroots : s.labelAt a = s.labelAt b ↔
      (provisionalLabels m c).rootAt a = (provisionalLabels m c).rootAt b := by
    rw [h.label_eq a ha', h.label_eq b hb']
    exact ⟨h.number_inj _ _ ((h.number_ne_zero_iff _).mpr ⟨a, ha', rfl⟩), fun hr => by rw [hr]⟩
  exact hroots

/-- The labels in use are the numbers of the components. -/
theorem labelAt_labelMask_used_iff (label : Nat) :
    (∃ q, m.Selects q ∧ (labelMask m c).labelAt q.1 q.2 = label) ↔ 1 ≤ label ∧
      label ≤ (labelMask m c).count := by
  obtain ⟨s, h, hl⟩ := exists_numbered m c
  constructor
  · rintro ⟨q, hq, rfl⟩
    refine ⟨Nat.pos_of_ne_zero fun h0 => (labelAt_labelMask_eq_zero_iff m c _ _).mp h0 hq, ?_⟩
    rw [hl]
    exact h.label_le q
  · rintro ⟨hpos, hle⟩
    rw [hl] at hle
    obtain ⟨q, hq, hlabel⟩ := h.exists_passed (Nat.ne_of_gt hpos) hle
    refine ⟨q, (passed_area_iff m c q).mp hq, ?_⟩
    rw [hl]
    exact hlabel

/-- A component with a smaller label starts earlier. -/
theorem index_lt_of_labelAt_lt {a b : Nat × Nat} (ha : IsFirst m c a)
    (hab : (labelMask m c).labelAt a.1 a.2 < (labelMask m c).labelAt b.1 b.2) :
    m.size.index a.1 a.2 < m.size.index b.1 b.2 := by
  obtain ⟨s, h, hl⟩ := exists_numbered m c
  have hne : (labelMask m c).labelAt a.1 a.2 ≠ 0 := fun h0 => (labelAt_labelMask_eq_zero_iff m c _ _).mp h0 ha.1
  obtain ⟨q, hq, hlabel⟩ : ∃ q : Nat × Nat, m.size.index q.1 q.2 < m.size.index b.1 b.2 ∧
      (labelMask m c).labelAt q.1 q.2 = (labelMask m c).labelAt a.1 a.2 := by
    rw [← (scanned_provisionalLabels m c).size]
    rw [hl] at hab hne ⊢
    exact h.earlier b _ hne hab
  have hsel : m.Selects q := by
    by_contra hc
    exact hne (hlabel ▸ (labelAt_labelMask_eq_zero_iff m c _ _).mpr hc)
  have hjoins := (labelAt_labelMask_eq_iff m c ha.1 hsel).mp hlabel.symm
  exact Nat.lt_of_le_of_lt (ha.2 q hjoins) hq

/-- Components are numbered in the order of their first positions. -/
theorem labelAt_labelMask_lt_iff {a b : Nat × Nat} (ha : IsFirst m c a) (hb : IsFirst m c b) :
    (labelMask m c).labelAt a.1 a.2 < (labelMask m c).labelAt b.1 b.2 ↔
      m.size.index a.1 a.2 < m.size.index b.1 b.2 := by
  refine ⟨index_lt_of_labelAt_lt m c ha, fun hab => ?_⟩
  rcases Nat.lt_trichotomy ((labelMask m c).labelAt a.1 a.2) ((labelMask m c).labelAt b.1 b.2) with hlt | heq | hgt
  · exact hlt
  · have hjoins := (labelAt_labelMask_eq_iff m c hb.1 ha.1).mp heq.symm
    exact absurd hab (Nat.not_lt_of_le (hb.2 a hjoins))
  · exact absurd hab (Nat.lt_asymm (index_lt_of_labelAt_lt m c hb hgt))

/-- Each component counts and encloses the pixels with its label. -/
theorem describes_labelMask {i : Nat} {k : Component} (hk : (labelMask m c).components[i]? = some k) :
    k.Describes (labelMask m c).labels (i + 1) := by
  obtain ⟨s, h, hl⟩ := exists_numbered m c
  rw [hl] at hk ⊢
  exact h.describes i k hk

/-- Labelling a mask gives its connected components. -/
theorem isComponentLabeling_labelMask : IsComponentLabeling m c (labelMask m c) where
  size := size_labelMask m c
  label_eq_zero_iff := labelAt_labelMask_eq_zero_iff m c
  label_eq_iff _ _ := labelAt_labelMask_eq_iff m c
  label_used_iff := labelAt_labelMask_used_iff m c
  label_lt_iff _ _ := labelAt_labelMask_lt_iff m c
  describes _ _ := describes_labelMask m c

end LabelMask

-- the arms of a U get labels of their own before their classes meet
example : (labelMask (Mask.ofFn ⟨3, 3, by decide, by decide⟩ fun x y => x != 1 || y == 2) .fourWay).components =
    #[⟨1, 7, ⟨0, 0, 3, 3⟩⟩] := by decide +kernel

end ScannedPage.Region
