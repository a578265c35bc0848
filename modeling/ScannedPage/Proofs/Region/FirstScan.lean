import Mathlib.Data.List.Induction
import ScannedPage.Region.Labeling
import ScannedPage.Proofs.Region.Paths
import ScannedPage.Proofs.Region.UnionFind

/-!
# The first scan of a labelling

While a scan has passed the first `n` positions, the provisional labels of two selected positions among
them belong to one class exactly when a path of such positions joins them (`Scanned`). A new position
joins what its neighbours already passed can reach, and that is what the union of their classes does.
-/

namespace ScannedPage

/-- A selected position among the first `n` of a scan. -/
def Mask.SelectsBefore (m : Mask) (n : Nat) (q : Nat × Nat) : Prop := m.Selects q ∧ m.size.index q.1 q.2 < n

/-- A scan that passes a selected position adds this position. -/
theorem Mask.selectsBefore_succ_iff {m : Mask} {x y : Nat} (h : m.Selects (x, y)) (q : Nat × Nat) :
    m.SelectsBefore (m.size.index x y + 1) q ↔ m.SelectsBefore (m.size.index x y) q ∨ q = (x, y) := by
  constructor
  · rintro ⟨hq, hlt⟩
    exact ((Size.index_lt_succ_iff hq.contains.1 h.contains.1).mp hlt).imp_left fun hlt => ⟨hq, hlt⟩
  · rintro (⟨hq, hlt⟩ | rfl)
    · exact ⟨hq, Nat.lt_succ_of_lt hlt⟩
    · exact ⟨h, Nat.lt_succ_self _⟩

/-- A scan that passes another position adds nothing. -/
theorem Mask.selectsBefore_succ_iff_of_not {m : Mask} {x y : Nat} (hxy : m.size.Contains x y)
    (h : ¬ m.Selects (x, y)) (q : Nat × Nat) :
    m.SelectsBefore (m.size.index x y + 1) q ↔ m.SelectsBefore (m.size.index x y) q := by
  refine ⟨fun ⟨hq, hlt⟩ => ⟨hq, ?_⟩, fun ⟨hq, hlt⟩ => ⟨hq, Nat.lt_succ_of_lt hlt⟩⟩
  refine ((Size.index_lt_succ_iff hq.contains.1 hxy.1).mp hlt).resolve_right ?_
  rintro rfl
  exact h hq

namespace Region

/-- The labels met around a position, in the order of the steps. -/
def nearLabels (labels : Grid Nat) (steps : List (Int × Int)) (x y : Nat) : List Nat :=
  ((steps.filterMap (labels.size.step? x y)).map fun q => labels.getD q.1 q.2 0).filter (· ≠ 0)

/-- One more label met: the first one is kept, and the class of every other is joined to it. -/
def mergeLabel (s : Nat × UnionFind) (near : Nat) : Nat × UnionFind :=
  if s.1 = 0 then (near, s.2) else if near = s.1 then s else (s.1, s.2.union s.1 near)

/-- Merging around a position takes one label met after the other. -/
theorem mergeNear_eq_foldl (labels : Grid Nat) (steps : List (Int × Int)) (x y : Nat) (u : UnionFind) :
    mergeNear labels steps x y u = (nearLabels labels steps x y).foldl mergeLabel (0, u) := by
  unfold mergeNear nearLabels
  generalize ((0, u) : Nat × UnionFind) = s
  induction steps generalizing s with
  | nil => rfl
  | cons d steps ih =>
    rw [List.foldl_cons, List.filterMap_cons]
    cases hstep : labels.size.step? x y d with
    | none => exact ih s
    | some q =>
      by_cases hq : labels.getD q.1 q.2 0 = 0
      · simp only [hq, List.map_cons, ne_eq, not_true, decide_false, List.filter_cons, Bool.false_eq_true,
          if_false, if_true]
        exact ih s
      · simp only [hq, List.map_cons, ne_eq, not_false_eq_true, decide_true, List.filter_cons, if_true,
          if_false, List.foldl_cons]
        exact ih _

/-- The classes after some labels have been merged: all labels of their classes share a root, and the others
keep theirs. -/
structure Merged (u : UnionFind) (nears : List Nat) (s : Nat × UnionFind) : Prop where
  first : s.1 = nears.headD 0
  size : s.2.parents.size = u.parents.size
  ordered : s.2.Ordered
  root_eq_iff : ∀ a b, s.2.root a = s.2.root b ↔ u.root a = u.root b ∨
    (∃ k ∈ nears, u.root a = u.root k) ∧ (∃ k ∈ nears, u.root b = u.root k)

/-- One more label keeps the description of the merged classes. -/
theorem Merged.mergeLabel {u : UnionFind} {nears : List Nat} {s : Nat × UnionFind} (h : Merged u nears s)
    (hne : ∀ k ∈ nears, k ≠ 0) (hlt : ∀ k ∈ nears, k < u.parents.size) {near : Nat}
    (hnear : near < u.parents.size) : Merged u (nears ++ [near]) (mergeLabel s near) := by
  cases nears with
  | nil =>
    have hfirst : s.1 = 0 := h.first
    rw [Region.mergeLabel, if_pos hfirst]
    refine ⟨rfl, h.size, h.ordered, fun a b => ?_⟩
    rw [h.root_eq_iff]
    simp only [List.nil_append, List.mem_cons, List.not_mem_nil, or_false, exists_eq_left]
    grind
  | cons first rest =>
    have hfirst : s.1 = first := h.first
    have hmem : first ∈ first :: rest := List.mem_cons_self
    rw [Region.mergeLabel, hfirst, if_neg (hne first hmem)]
    split
    · next heq =>
      refine ⟨hfirst, h.size, h.ordered, fun a b => ?_⟩
      rw [h.root_eq_iff, heq]
      simp only [List.mem_append, List.mem_singleton]
      grind
    · have hj := UnionFind.joined_union h.ordered (a := first) (b := near) (h.size ▸ hlt first hmem)
        (h.size ▸ hnear)
      refine ⟨rfl, hj.size.trans h.size, hj.ordered, fun a b => ?_⟩
      rw [hj.root_eq_iff]
      simp only [h.root_eq_iff, List.mem_append, List.mem_singleton]
      grind

/-- Merging a list of labels joins their classes. -/
theorem merged_foldl {u : UnionFind} (h : u.Ordered) (nears : List Nat) (hne : ∀ k ∈ nears, k ≠ 0)
    (hlt : ∀ k ∈ nears, k < u.parents.size) : Merged u nears (nears.foldl mergeLabel (0, u)) := by
  induction nears using List.reverseRecOn with
  | nil => exact ⟨rfl, rfl, h, fun a b => by simp⟩
  | append_singleton nears near ih =>
    rw [List.foldl_append, List.foldl_cons, List.foldl_nil]
    have hne' : ∀ k ∈ nears, k ≠ 0 := fun k hk => hne k (List.mem_append_left _ hk)
    have hlt' : ∀ k ∈ nears, k < u.parents.size := fun k hk => hlt k (List.mem_append_left _ hk)
    exact (ih hne' hlt').mergeLabel hne' hlt' (hlt near (List.mem_append_right _ List.mem_cons_self))

/-- The classes after a label has been found for a position: it shares a root with exactly the classes of the
labels met around the position, which are now one class. -/
structure Placed (u : UnionFind) (nears : List Nat) (label : Nat) (v : UnionFind) : Prop where
  ordered : v.Ordered
  size_le : u.parents.size ≤ v.parents.size
  label_lt : label < v.parents.size
  label_ne_zero : label ≠ 0
  root_eq_iff : ∀ a b, v.root a = v.root b ↔ u.root a = u.root b ∨
    (∃ k ∈ nears, u.root a = u.root k) ∧ (∃ k ∈ nears, u.root b = u.root k)
  root_label_eq_iff : ∀ a < u.parents.size, v.root label = v.root a ↔ ∃ k ∈ nears, u.root a = u.root k

/-- The first label met serves a position that has any. -/
theorem Merged.placed {u : UnionFind} {nears : List Nat} {s : Nat × UnionFind} (h : Merged u nears s)
    (hlt : ∀ k ∈ nears, k < u.parents.size) (hs : s.1 ≠ 0) :
    Placed u nears s.1 s.2 := by
  cases nears with
  | nil => exact absurd h.first hs
  | cons first rest =>
    have hfirst : s.1 = first := h.first
    have hmem : first ∈ first :: rest := List.mem_cons_self
    refine ⟨h.ordered, Nat.le_of_eq h.size.symm, ?_, hs, h.root_eq_iff, fun a _ => ?_⟩
    · rw [hfirst, h.size]
      exact hlt first hmem
    · rw [h.root_eq_iff, hfirst]
      constructor
      · rintro (heq | ⟨_, ha⟩)
        · exact ⟨first, hmem, heq.symm⟩
        · exact ha
      · exact fun ha => Or.inr ⟨⟨first, hmem, rfl⟩, ha⟩

/-- A new label serves a position without any label around it. -/
theorem Merged.placed_makeSet {u : UnionFind} {nears : List Nat} {s : Nat × UnionFind} (h : Merged u nears s)
    (hne : ∀ k ∈ nears, k ≠ 0) (hpos : 0 < u.parents.size) (hs : s.1 = 0) :
    Placed u nears s.2.makeSet.1 s.2.makeSet.2 := by
  cases nears with
  | cons first rest => exact absurd (h.first.symm.trans hs) (hne first List.mem_cons_self)
  | nil =>
    refine ⟨h.ordered.makeSet, ?_, ?_, ?_, fun a b => ?_, fun a ha => ?_⟩
    · rw [UnionFind.size_makeSet, h.size]
      exact Nat.le_succ _
    · rw [UnionFind.size_makeSet, UnionFind.fst_makeSet]
      exact Nat.lt_succ_self _
    · rw [UnionFind.fst_makeSet, h.size]
      exact Nat.ne_of_gt hpos
    · rw [UnionFind.root_makeSet, UnionFind.root_makeSet, h.root_eq_iff]
    · -- the new label is beyond every root of an older one
      have hnew : s.2.root s.2.parents.size = u.parents.size := by
        rw [UnionFind.root_of_parent_eq (UnionFind.parent_of_size_le (Nat.le_refl _)), h.size]
      have hold : s.2.root a < u.parents.size := Nat.lt_of_le_of_lt (UnionFind.root_le h.ordered a) ha
      rw [UnionFind.root_makeSet, UnionFind.root_makeSet, UnionFind.fst_makeSet, hnew]
      simp only [List.not_mem_nil, false_and, exists_false, iff_false]
      exact Nat.ne_of_gt hold

/-- Label zero stays alone in its class. -/
theorem Placed.root_ne_zero {u v : UnionFind} {nears : List Nat} {label : Nat} (h : Placed u nears label v)
    (hu : u.Ordered) (hne : ∀ k ∈ nears, k ≠ 0) (hroot : ∀ k, k ≠ 0 → u.root k ≠ 0) :
    ∀ k, k ≠ 0 → v.root k ≠ 0 := by
  intro k hk hzero
  have hv0 : v.root 0 = 0 := Nat.le_zero.mp (UnionFind.root_le h.ordered 0)
  have hu0 : u.root 0 = 0 := Nat.le_zero.mp (UnionFind.root_le hu 0)
  rcases (h.root_eq_iff k 0).mp (hzero.trans hv0.symm) with heq | ⟨_, near, hnear, heq⟩
  · exact hroot k hk (heq.trans hu0)
  · exact hroot near (hne near hnear) (heq.symm.trans hu0)

/-- The provisional label of a position. -/
def Provisional.labelAt (p : Provisional) (q : Nat × Nat) : Nat := p.labels.getD q.1 q.2 0

/-- What holds when the first `n` positions have been passed. -/
structure Scanned (m : Mask) (c : Connectivity) (n : Nat) (p : Provisional) : Prop where
  size : p.labels.size = m.size
  ordered : p.classes.Ordered
  root_ne_zero : ∀ label, label ≠ 0 → p.classes.root label ≠ 0
  label_lt : ∀ q, p.labelAt q < p.classes.parents.size
  label_ne_zero_iff : ∀ q, p.labelAt q ≠ 0 ↔ m.SelectsBefore n q
  root_eq_iff : ∀ a b, m.SelectsBefore n a → m.SelectsBefore n b →
    (p.classes.root (p.labelAt a) = p.classes.root (p.labelAt b) ↔ c.Joins (m.SelectsBefore n) a b)

/-- Before the first position no label has been given. -/
theorem scanned_initial (m : Mask) (c : Connectivity) : Scanned m c 0 ⟨Grid.filled m.size 0, .initial⟩ := by
  have hlabel (q : Nat × Nat) : Provisional.labelAt ⟨Grid.filled m.size 0, .initial⟩ q = 0 := by
    rw [Provisional.labelAt, Grid.getD_filled, ite_self]
  have hnone (q : Nat × Nat) : ¬ m.SelectsBefore 0 q := fun h => Nat.not_lt_zero _ h.2
  refine ⟨rfl, UnionFind.ordered_initial, fun label hl => ?_, fun q => ?_, fun q => ?_,
    fun a _ ha => absurd ha (hnone a)⟩
  · have hsize : UnionFind.initial.parents.size ≤ label := Nat.pos_of_ne_zero hl
    rwa [UnionFind.root_of_parent_eq (UnionFind.parent_of_size_le hsize)]
  · rw [hlabel]
    exact Nat.zero_lt_one
  · rw [hlabel]
    exact ⟨fun h => absurd rfl h, fun h => absurd h (hnone q)⟩

section Visit

variable {m : Mask} {c : Connectivity} {x y : Nat} {p : Provisional}

/-- The labels met around a position are those of the neighbours already passed. -/
theorem Scanned.mem_nearLabels_iff (h : Scanned m c (m.size.index x y) p) (hxy : m.size.Contains x y)
    (k : Nat) :
    k ∈ nearLabels p.labels c.causalOffsets x y ↔
      ∃ q, m.SelectsBefore (m.size.index x y) q ∧ c.Neighbours q (x, y) ∧ p.labelAt q = k := by
  simp only [nearLabels, List.mem_filter, List.mem_map, List.mem_filterMap, h.size, c.exists_causal_step_iff hxy,
    decide_eq_true_eq]
  constructor
  · rintro ⟨⟨q, ⟨_, hn, _⟩, rfl⟩, hk⟩
    exact ⟨q, (h.label_ne_zero_iff q).mp hk, hn.symm, rfl⟩
  · rintro ⟨q, hq, hn, rfl⟩
    exact ⟨⟨q, ⟨hq.1.contains, hn.symm, hq.2⟩, rfl⟩, (h.label_ne_zero_iff q).mpr hq⟩

/-- A label met around a position stands for the paths that touch the position. -/
theorem Scanned.meets_iff_touches (h : Scanned m c (m.size.index x y) p) (hxy : m.size.Contains x y)
    {a : Nat × Nat} (ha : m.SelectsBefore (m.size.index x y) a) :
    (∃ k ∈ nearLabels p.labels c.causalOffsets x y, p.classes.root (p.labelAt a) = p.classes.root k) ↔
      c.Touches (m.SelectsBefore (m.size.index x y)) (x, y) a := by
  constructor
  · rintro ⟨k, hk, heq⟩
    obtain ⟨q, hq, hn, rfl⟩ := (h.mem_nearLabels_iff hxy k).mp hk
    exact Or.inr ⟨q, hq, hn, (h.root_eq_iff a q ha hq).mp heq⟩
  · rintro (rfl | ⟨q, hq, hn, hj⟩)
    · exact absurd ha.2 (Nat.lt_irrefl _)
    · exact ⟨_, (h.mem_nearLabels_iff hxy _).mpr ⟨q, hq, hn, rfl⟩, (h.root_eq_iff a q ha hq).mpr hj⟩

/-- The label of the position just passed is the new one; the others stay. -/
theorem labelAt_set {labels : Grid Nat} {classes : UnionFind} (hxy : labels.size.Contains x y) (label : Nat)
    (q : Nat × Nat) : Provisional.labelAt ⟨labels.set x y label, classes⟩ q =
      if q = (x, y) then label else labels.getD q.1 q.2 0 := by
  rw [Provisional.labelAt, Grid.getD_set]
  simp only [hxy, and_true, Prod.ext_iff]

/-- A label that shares its class with what touches a position may be given to it. -/
theorem Scanned.set (h : Scanned m c (m.size.index x y) p) (hm : m.Selects (x, y)) {label : Nat} {v : UnionFind}
    (hv : Placed p.classes (nearLabels p.labels c.causalOffsets x y) label v) :
    Scanned m c (m.size.index x y + 1) ⟨p.labels.set x y label, v⟩ := by
  have hxy := hm.contains
  have hnew : ¬ m.SelectsBefore (m.size.index x y) (x, y) := fun hc => Nat.lt_irrefl _ hc.2
  have hnears : ∀ k ∈ nearLabels p.labels c.causalOffsets x y, k ≠ 0 := fun k hk => by
    obtain ⟨q, hq, _, rfl⟩ := (h.mem_nearLabels_iff hxy k).mp hk
    exact (h.label_ne_zero_iff q).mpr hq
  have hlabel (q : Nat × Nat) : Provisional.labelAt ⟨p.labels.set x y label, v⟩ q =
      if q = (x, y) then label else p.labels.getD q.1 q.2 0 :=
    labelAt_set (h.size ▸ hxy) label q
  have hat (q : Nat × Nat) (hq : m.SelectsBefore (m.size.index x y) q) :
      Provisional.labelAt ⟨p.labels.set x y label, v⟩ q = p.labelAt q := by
    have hne : q ≠ (x, y) := fun he => hnew (he ▸ hq)
    rw [hlabel, if_neg hne, Provisional.labelAt]
  have hself : Provisional.labelAt ⟨p.labels.set x y label, v⟩ (x, y) = label := by rw [hlabel, if_pos rfl]
  -- the new position shares a root with exactly what touches it
  have hnewroot (b : Nat × Nat) (hb : m.SelectsBefore (m.size.index x y) b) :
      v.root label = v.root (p.labelAt b) ↔ c.Touches (m.SelectsBefore (m.size.index x y)) (x, y) b := by
    rw [hv.root_label_eq_iff _ (h.label_lt b)]
    exact h.meets_iff_touches hxy hb
  refine ⟨by rw [Grid.size_set, h.size], hv.ordered, hv.root_ne_zero h.ordered hnears h.root_ne_zero, fun q => ?_,
    fun q => ?_, fun a b ha hb => ?_⟩
  · rw [hlabel]
    split
    · exact hv.label_lt
    · exact Nat.lt_of_lt_of_le (h.label_lt q) hv.size_le
  · rw [hlabel, Mask.selectsBefore_succ_iff hm]
    split
    · next heq => exact ⟨fun _ => Or.inr heq, fun _ => hv.label_ne_zero⟩
    · next hne => exact (h.label_ne_zero_iff q).trans ⟨Or.inl, fun hq => hq.resolve_right hne⟩
  · rw [Mask.selectsBefore_succ_iff hm] at ha hb
    rw [Connectivity.joins_congr (Mask.selectsBefore_succ_iff hm), Connectivity.joins_insert_iff hnew ha hb]
    rcases ha with ha | rfl
    · rcases hb with hb | rfl
      · rw [hat a ha, hat b hb, hv.root_eq_iff, h.root_eq_iff a b ha hb, h.meets_iff_touches hxy ha,
          h.meets_iff_touches hxy hb]
      · rw [hat a ha, hself, eq_comm, hnewroot a ha]
        refine ⟨fun ht => Or.inr ⟨ht, Or.inl rfl⟩, fun hor => hor.elim (fun hj => ?_) And.left⟩
        exact Or.inl (hj.eq_of_not_mem hnew)
    · rcases hb with hb | rfl
      · rw [hat b hb, hself, hnewroot b hb]
        refine ⟨fun ht => Or.inr ⟨Or.inl rfl, ht⟩, fun hor => hor.elim (fun hj => ?_) And.right⟩
        exact Or.inl (hj.symm.eq_of_not_mem hnew)
      · exact ⟨fun _ => Or.inl .refl, fun _ => rfl⟩

/-- Labelling a selected position takes one step of the scan. -/
theorem Scanned.visit (h : Scanned m c (m.size.index x y) p) (hm : m.Selects (x, y)) :
    Scanned m c (m.size.index x y + 1) (p.visit c x y) := by
  have hxy := hm.contains
  have hnear : ∀ k ∈ nearLabels p.labels c.causalOffsets x y, k ≠ 0 ∧ k < p.classes.parents.size := by
    intro k hk
    obtain ⟨q, hq, _, rfl⟩ := (h.mem_nearLabels_iff hxy k).mp hk
    exact ⟨(h.label_ne_zero_iff q).mpr hq, h.label_lt q⟩
  have hmerged := merged_foldl h.ordered _ (fun k hk => (hnear k hk).1) fun k hk => (hnear k hk).2
  rw [← mergeNear_eq_foldl] at hmerged
  unfold Provisional.visit
  dsimp only
  split
  · next hzero =>
    have hpos : 0 < p.classes.parents.size := Nat.zero_lt_of_lt (h.label_lt (x, y))
    exact h.set hm (hmerged.placed_makeSet (fun k hk => (hnear k hk).1) hpos hzero)
  · next hne => exact h.set hm (hmerged.placed (fun k hk => (hnear k hk).2) hne)

end Visit

/-- After the first scan two selected positions share a root exactly when a path joins them. -/
theorem scanned_provisionalLabels (m : Mask) (c : Connectivity) :
    Scanned m c m.size.area (provisionalLabels m c) := by
  unfold provisionalLabels
  apply scan_induction m.size.area _ _ (fun n p => Scanned m c n p) (scanned_initial m c)
  intro i hi p h
  have hxy := Size.contains_mod_div hi
  rw [← Size.index_mod_div m.size i] at h ⊢
  rw [Size.index_mod hxy.1, Size.index_div hxy.1]
  dsimp only
  split
  · next hm => exact h.visit hm
  · next hm =>
    have hiff := Mask.selectsBefore_succ_iff_of_not hxy hm
    refine ⟨h.size, h.ordered, h.root_ne_zero, h.label_lt, fun q => ?_, fun a b ha hb => ?_⟩
    · rw [h.label_ne_zero_iff, hiff]
    · rw [Connectivity.joins_congr hiff]
      exact h.root_eq_iff a b ((hiff a).mp ha) ((hiff b).mp hb)

end Region

end ScannedPage
