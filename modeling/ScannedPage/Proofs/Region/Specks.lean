import Mathlib.Algebra.BigOperators.Group.Finset.Basic
import Mathlib.Data.Set.Card
import ScannedPage.Proofs.Counting
import ScannedPage.Proofs.Region.Broad
import ScannedPage.Proofs.Region.Correspondence
import ScannedPage.Region.Despeckle

/-!
# Specks among the components of a mask

The labels of a labelling name the connected components of its mask, each once (`components_eq_image`), so there
are as many components as labels (`ncard_components`). A label is that of a speck exactly if its component is not
broad (`isSpeckLabel_labelAt_iff`). What a report says of specks is taken from the list of components; it is the
number of the labels of specks, and the number of the positions that have such a label.
-/

namespace ScannedPage.Region

/-- The positions with a label. -/
def Labeling.part (l : Labeling) (label : Nat) : Set (Nat × Nat) := {q | l.labelAt q.1 q.2 = label}

/-- The labels of the specks under a threshold. -/
def Labeling.speckLabels (l : Labeling) (t : Nat) : List Nat :=
  (List.range' 1 l.count).filter (l.isSpeckLabel t)

/-- The labels of specks are labels in use. -/
theorem Labeling.mem_speckLabels {l : Labeling} {t label : Nat} :
    label ∈ l.speckLabels t ↔ label ∈ Finset.Icc 1 l.count ∧ l.isSpeckLabel t label = true := by
  rw [speckLabels, List.mem_filter, List.mem_range'_1, Finset.mem_Icc]
  refine and_congr_left' ?_
  omega

/-- The label of a speck is listed once. -/
theorem Labeling.nodup_speckLabels (l : Labeling) (t : Nat) : (l.speckLabels t).Nodup :=
  List.Nodup.filter _ (List.nodup_range' ..)

section Parts

variable {m : Mask} {c : Connectivity} {p q : Nat × Nat}

/-- The positions with the label of a selected one are those joined to it. -/
theorem labelAt_eq_iff_joins (hp : m.Selects p) (q : Nat × Nat) :
    (labelMask m c).labelAt q.1 q.2 = (labelMask m c).labelAt p.1 p.2 ↔ c.Joins m.Selects p q := by
  by_cases hq : m.Selects q
  · rw [labelAt_labelMask_eq_iff m c hq hp]
    exact ⟨Connectivity.Joins.symm, Connectivity.Joins.symm⟩
  · refine iff_of_false (fun heq => ?_) fun h => hq (h.mem hp)
    rw [(labelAt_labelMask_eq_zero_iff m c _ _).mpr hq] at heq
    exact (labelAt_labelMask_eq_zero_iff m c _ _).mp heq.symm hp

/-- The part with the label of a selected position is the component of that position. -/
theorem part_labelAt (hp : m.Selects p) :
    (labelMask m c).part ((labelMask m c).labelAt p.1 p.2) = {q | c.Joins m.Selects p q} :=
  Set.ext (labelAt_eq_iff_joins hp)

/-- A label in use is that of a selected position. -/
theorem exists_labelAt_eq {label : Nat} (h : label ∈ Finset.Icc 1 (labelMask m c).count) :
    ∃ p, m.Selects p ∧ (labelMask m c).labelAt p.1 p.2 = label :=
  (labelAt_labelMask_used_iff m c label).mpr (Finset.mem_Icc.mp h)

/-- Different labels in use have different parts. -/
theorem injOn_part : Set.InjOn (labelMask m c).part (Finset.Icc 1 (labelMask m c).count) := by
  intro label hlabel label' _ heq
  obtain ⟨p, _, rfl⟩ := exists_labelAt_eq (Finset.mem_coe.mp hlabel)
  have hp : p ∈ (labelMask m c).part ((labelMask m c).labelAt p.1 p.2) := rfl
  rw [heq] at hp
  exact hp

/-- A labelling has as many parts as labels. -/
theorem ncard_image_part {labels : Finset Nat} (h : labels ⊆ Finset.Icc 1 (labelMask m c).count) :
    ((labelMask m c).part '' labels).ncard = labels.card := by
  rw [Set.InjOn.ncard_image (injOn_part.mono (Finset.coe_subset.mpr h)), Set.ncard_coe_finset]

/-- The parts are the connected components. -/
theorem components_eq_image :
    c.components m.Selects = (labelMask m c).part '' (Finset.Icc 1 (labelMask m c).count) := by
  ext C
  constructor
  · rintro ⟨p, hp, rfl⟩
    exact ⟨_, Finset.mem_coe.mpr (labelAt_mem_Icc hp), part_labelAt hp⟩
  · rintro ⟨label, hlabel, rfl⟩
    obtain ⟨p, hp, rfl⟩ := exists_labelAt_eq (Finset.mem_coe.mp hlabel)
    exact ⟨p, hp, part_labelAt hp⟩

/-- A mask has as many components as its labelling finds. -/
theorem ncard_components : (c.components m.Selects).ncard = (labelMask m c).count := by
  rw [components_eq_image, ncard_image_part (Finset.Subset.refl _), Nat.card_Icc, Nat.add_sub_cancel]

end Parts

section Specks

variable {m : Mask} {c : Connectivity} {p : Nat × Nat} {t label : Nat}

/-- A label in use has its component in the list. -/
theorem exists_component (h : label ∈ Finset.Icc 1 (labelMask m c).count) :
    ∃ k, (labelMask m c).components[label - 1]? = some k ∧ k.Describes (labelMask m c).labels label := by
  obtain ⟨hpos, hle⟩ := Finset.mem_Icc.mp h
  have hi : label - 1 < (labelMask m c).components.size := by
    have hcount : (labelMask m c).count = (labelMask m c).components.size := rfl
    omega
  have hk := Array.getElem?_eq_getElem hi
  refine ⟨_, hk, ?_⟩
  have hdescribes := describes_labelMask m c hk
  rwa [Nat.sub_add_cancel hpos] at hdescribes

/-- The rectangle of a component is the smallest around it. -/
theorem Component.Describes.bounds {k : Component} (hp : m.Selects p)
    (h : k.Describes (labelMask m c).labels ((labelMask m c).labelAt p.1 p.2)) :
    k.bounds.Bounds (c.Joins m.Selects p) := by
  intro r
  rw [h.bounds_within_iff]
  constructor
  · intro hr q hq
    exact hr q.1 q.2 ((labelAt_eq_iff_joins hp q).mpr hq)
  · intro hr x y hxy
    exact hr (x, y) ((labelAt_eq_iff_joins hp (x, y)).mp hxy)

/-- Every component has a smallest rectangle around it. -/
theorem exists_bounds (hp : m.Selects p) : ∃ b : Rect, b.Bounds (c.Joins m.Selects p) := by
  obtain ⟨k, _, hdescribes⟩ := exists_component (c := c) (labelAt_mem_Icc hp)
  exact ⟨k.bounds, hdescribes.bounds hp⟩

/-- A label is that of a speck when the component in the list is one. -/
theorem isSpeckLabel_eq {k : Component} (h : label ∈ Finset.Icc 1 (labelMask m c).count)
    (hk : (labelMask m c).components[label - 1]? = some k) :
    (labelMask m c).isSpeckLabel t label = k.isSpeck t := by
  have hne : label ≠ 0 := Nat.ne_of_gt (Finset.mem_Icc.mp h).1
  rw [Labeling.isSpeckLabel, hk, bne_iff_ne.mpr hne]
  rfl

/-- Specks are the components that are not broad. -/
theorem isSpeckLabel_labelAt_iff (hp : m.Selects p) :
    (labelMask m c).isSpeckLabel t ((labelMask m c).labelAt p.1 p.2) = true ↔ ¬ c.Broad m.Selects t p := by
  obtain ⟨k, hk, hdescribes⟩ := exists_component (c := c) (labelAt_mem_Icc hp)
  have hbounds := hdescribes.bounds hp
  rw [isSpeckLabel_eq (labelAt_mem_Icc hp) hk, Component.isSpeck, decide_eq_true_iff, ← Int.not_le]
  refine not_congr ⟨fun hle => ⟨_, hbounds, hle⟩, ?_⟩
  rintro ⟨b, hb, hle⟩
  rwa [hbounds.unique hb]

/-- The labels that no speck has are those of the broad components. -/
theorem labelAt_notMem_speckLabels_iff (hp : m.Selects p) :
    (labelMask m c).labelAt p.1 p.2 ∉ (labelMask m c).speckLabels t ↔ c.Broad m.Selects t p := by
  rw [Labeling.mem_speckLabels, isSpeckLabel_labelAt_iff hp, not_and_not_right]
  exact ⟨fun h => h (labelAt_mem_Icc hp), fun h _ => h⟩

/-- The components that are not specks are those of the broad part. -/
theorem components_broadPart_eq_image : c.components (c.broadPart m.Selects t) = (labelMask m c).part ''
    (((Finset.Icc 1 (labelMask m c).count).filter fun label =>
      label ∉ (labelMask m c).speckLabels t : Finset Nat)) := by
  ext C
  rw [Connectivity.mem_components_broadPart]
  constructor
  · rintro ⟨p, hp, hbroad, rfl⟩
    have hkept := (labelAt_notMem_speckLabels_iff hp).mpr hbroad
    exact ⟨_, Finset.mem_coe.mpr (Finset.mem_filter.mpr ⟨labelAt_mem_Icc hp, hkept⟩), part_labelAt hp⟩
  · rintro ⟨label, hlabel, rfl⟩
    obtain ⟨hused, hkept⟩ := Finset.mem_filter.mp (Finset.mem_coe.mp hlabel)
    obtain ⟨p, hp, rfl⟩ := exists_labelAt_eq hused
    exact ⟨p, hp, (labelAt_notMem_speckLabels_iff hp).mp hkept, part_labelAt hp⟩

/-- The broad part has all components but as many as there are labels of specks. -/
theorem ncard_components_broadPart : (c.components (c.broadPart m.Selects t)).ncard +
    ((labelMask m c).speckLabels t).length = (labelMask m c).count := by
  have hspecks : (Finset.Icc 1 (labelMask m c).count).filter (fun label => label ∈ (labelMask m c).speckLabels t) =
      ((labelMask m c).speckLabels t).toFinset := by
    ext label
    rw [Finset.mem_filter, List.mem_toFinset]
    exact and_iff_right_of_imp fun h => (Labeling.mem_speckLabels.mp h).1
  have hsplit := Finset.card_filter_add_card_filter_not (s := Finset.Icc 1 (labelMask m c).count)
    (fun label => label ∈ (labelMask m c).speckLabels t)
  rw [hspecks, List.toFinset_card_of_nodup (Labeling.nodup_speckLabels _ t), Nat.card_Icc,
    Nat.add_sub_cancel] at hsplit
  rw [components_broadPart_eq_image, ncard_image_part (Finset.filter_subset _ _), Nat.add_comm]
  exact hsplit

end Specks

section Report

variable (m : Mask) (c : Connectivity) (t : Nat)

/-- The components are listed by their labels. -/
theorem map_label_components :
    (labelMask m c).components.toList.map Component.label = List.range' 1 (labelMask m c).count := by
  refine List.ext_getElem (by simp [Labeling.count]) fun i hi _ => ?_
  have hcomponent : i < (labelMask m c).components.size := by simpa using hi
  have hlabel := (describes_labelMask m c (Array.getElem?_eq_getElem hcomponent)).label_eq
  simp only [List.getElem_map, Array.getElem_toList, List.getElem_range', Nat.one_mul]
  rw [hlabel, Nat.add_comm]

/-- A component in the list counts the positions with its label, and is a speck if its label is that of one. -/
theorem component_eq {k : Component} (hk : k ∈ (labelMask m c).components.toList) :
    k.pixelCount = (labelMask m c).labels.cells.count k.label ∧
      k.isSpeck t = (labelMask m c).isSpeckLabel t k.label := by
  obtain ⟨i, hi, rfl⟩ := List.mem_iff_getElem.mp hk
  have hcomponent : i < (labelMask m c).components.size := by simpa using hi
  have hget := Array.getElem?_eq_getElem hcomponent
  have hdescribes := describes_labelMask m c hget
  rw [Array.getElem_toList, hdescribes.label_eq]
  refine ⟨hdescribes.pixelCount_eq, (isSpeckLabel_eq (Finset.mem_Icc.mpr ⟨Nat.succ_pos i, ?_⟩) ?_).symm⟩
  · exact hcomponent
  · exact hget

/-- The specks are listed by their labels. -/
theorem map_label_specks : ((labelMask m c).components.filter (Component.isSpeck t)).toList.map Component.label =
    (labelMask m c).speckLabels t := by
  rw [Labeling.speckLabels, ← map_label_components, List.filter_map, Array.toList_filter]
  exact congrArg _ (List.filter_congr fun k hk => (component_eq m c t hk).2)

/-- As many specks are listed as there are labels of specks. -/
theorem size_specks :
    ((labelMask m c).components.filter (Component.isSpeck t)).size = ((labelMask m c).speckLabels t).length := by
  rw [← map_label_specks, List.length_map, Array.length_toList]

/-- A label stands at as many positions as the labels hold it. -/
theorem count_labels (label : Nat) : (labelMask m c).labels.cells.count label =
    (m.size.positions.filter fun q => (labelMask m c).labelAt q.1 q.2 = label).card := by
  rw [Array.count, Grid.countP_cells _ _ 0, size_labelMask]
  simp only [beq_iff_eq]
  rfl

/-- The pixels of the specks are the positions with a label of a speck. -/
theorem pixelCount_specks :
    ((labelMask m c).components.filter (Component.isSpeck t)).foldl (fun n k => n + k.pixelCount) 0 =
      (m.size.positions.filter fun q => (labelMask m c).labelAt q.1 q.2 ∈ (labelMask m c).speckLabels t).card := by
  have hcounts : ((labelMask m c).components.filter (Component.isSpeck t)).toList.map Component.pixelCount =
      ((labelMask m c).speckLabels t).map fun label => (labelMask m c).labels.cells.count label := by
    rw [← map_label_specks, List.map_map, Array.toList_filter]
    exact List.map_congr_left fun k hk => (component_eq m c t (List.mem_of_mem_filter hk)).1
  have hsum : ((labelMask m c).components.filter (Component.isSpeck t)).foldl (fun n k => n + k.pixelCount) 0 =
      (((labelMask m c).components.filter (Component.isSpeck t)).toList.map Component.pixelCount).sum := by
    rw [← Array.foldl_toList, List.sum_eq_foldl, List.foldl_map]
  rw [hsum, hcounts, ← List.sum_toFinset _ (Labeling.nodup_speckLabels _ t),
    Finset.card_eq_sum_card_fiberwise (f := fun q : Nat × Nat => (labelMask m c).labelAt q.1 q.2)
      (t := ((labelMask m c).speckLabels t).toFinset)]
  · refine Finset.sum_congr rfl fun label hlabel => ?_
    rw [count_labels, Finset.filter_filter]
    refine congrArg Finset.card (Finset.filter_congr fun q _ => ⟨fun heq => ⟨?_, heq⟩, And.right⟩)
    rw [heq]
    exact List.mem_toFinset.mp hlabel
  · intro q hq
    exact Finset.mem_coe.mpr (List.mem_toFinset.mpr (Finset.mem_filter.mp hq).2)

open Classical in
/-- The broad part has all selected positions but those of the specks. -/
theorem card_broadPart : (m.size.positions.filter (c.broadPart m.Selects t)).card +
    ((labelMask m c).components.filter (Component.isSpeck t)).foldl (fun n k => n + k.pixelCount) 0 =
      (m.size.positions.filter m.Selects).card := by
  have hbroad : m.size.positions.filter (c.broadPart m.Selects t) = (m.size.positions.filter m.Selects).filter
      fun q => (labelMask m c).labelAt q.1 q.2 ∉ (labelMask m c).speckLabels t := by
    rw [Finset.filter_filter]
    exact Finset.filter_congr fun q _ => and_congr_right fun hq => (labelAt_notMem_speckLabels_iff hq).symm
  have hspecks : m.size.positions.filter
      (fun q => (labelMask m c).labelAt q.1 q.2 ∈ (labelMask m c).speckLabels t) =
      (m.size.positions.filter m.Selects).filter
        fun q => (labelMask m c).labelAt q.1 q.2 ∈ (labelMask m c).speckLabels t := by
    rw [Finset.filter_filter]
    refine Finset.filter_congr fun q _ => (and_iff_right_of_imp fun hq => ?_).symm
    exact selects_of_labelAt (Labeling.mem_speckLabels.mp hq).1
  rw [pixelCount_specks, hbroad, hspecks, Nat.add_comm]
  exact Finset.card_filter_add_card_filter_not _

end Report

end ScannedPage.Region
