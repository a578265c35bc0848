import Mathlib.Order.Bounds.Basic
import ScannedPage.Proofs.Morphology.Geodesic

/-!
# Blocks of a line give the extremes of its windows

A line is cut into blocks of the length of a window, and every block has two running extremes: one from its start
on (`runsFromStart`) and one back from its end (`runsFromEnd`). A window runs to the end of the block it starts in,
or not even so far where the line ends before, and then from the start of the block it ends in. The two parts cover
the whole window, and may overlap since the extreme of an extreme is the same (`isExtreme_window`).

Behind the border a line continues with the level that never wins. A window covers the position it is around, so it
always has a level of the image, and the others change nothing (`IsExtreme.of_identity`). The extremes of the
columns over the extremes of the rows are those over the window (`IsExtreme.iUnion`).
-/

namespace ScannedPage.Morphology

/-- The part of an image that a window covers around a position: it begins half a side before the position, where
half of an odd side is rounded down. -/
def windowAround (s : Size) (width height : Nat) (p : Nat × Nat) : Set (Nat × Nat) :=
  { q | s.Contains q.1 q.2 ∧ (p.1 - width / 2 : Int) ≤ q.1 ∧ (q.1 : Int) < p.1 - width / 2 + width ∧
    (p.2 - height / 2 : Int) ≤ q.2 ∧ (q.2 : Int) < p.2 - height / 2 + height }

/-- The part of a line of `n` levels that a window covers around a position. -/
def spanAround (length n i : Nat) : Set Nat := { j | j < n ∧ i ≤ j + length / 2 ∧ j + length / 2 < i + length }

/-- A window covers the columns and the rows of its two spans. -/
theorem mem_windowAround_iff {s : Size} {width height : Nat} {p q : Nat × Nat} :
    q ∈ windowAround s width height p ↔
      q.1 ∈ spanAround width s.width p.1 ∧ q.2 ∈ spanAround height s.height p.2 := by
  simp only [windowAround, spanAround, Size.Contains, Set.mem_ofPred_eq]
  omega

/-- A span covers the position it is around. -/
theorem self_mem_spanAround {length n i : Nat} (hlength : 0 < length) (hi : i < n) : i ∈ spanAround length n i :=
  ⟨hi, by omega, by omega⟩

/-- A value is the least or the greatest of a set of levels. -/
def IsExtreme : Extreme → Set Nat → Nat → Prop
  | .least => IsLeast
  | .greatest => IsGreatest

section Extremes

variable {op : Extreme} {S T : Set Nat} {a b v : Nat}

/-- An extreme belongs to its set. -/
theorem IsExtreme.mem (h : IsExtreme op S v) : v ∈ S := by
  cases op <;> exact h.1

/-- A single level is its own extreme. -/
theorem isExtreme_singleton (op : Extreme) (v : Nat) : IsExtreme op {v} v := by
  cases op
  · exact isLeast_singleton
  · exact isGreatest_singleton

/-- The extreme of two sets together is the winner of both extremes. -/
theorem IsExtreme.union (hS : IsExtreme op S a) (hT : IsExtreme op T b) : IsExtreme op (S ∪ T) (op.pick a b) := by
  cases op
  · exact IsLeast.union hS hT
  · exact IsGreatest.union hS hT

/-- The extreme of the extremes of many sets is the extreme of them all together. -/
theorem IsExtreme.iUnion {ι : Type} {I : Set ι} {S : ι → Set Nat} {f : ι → Nat} (h : IsExtreme op (f '' I) v)
    (hS : ∀ i ∈ I, IsExtreme op (S i) (f i)) : IsExtreme op (⋃ i ∈ I, S i) v := by
  obtain ⟨i, hi, rfl⟩ := h.mem
  have hmem : f i ∈ ⋃ i ∈ I, S i := Set.mem_biUnion hi (hS i hi).mem
  cases op
  · refine ⟨hmem, fun v hv => ?_⟩
    obtain ⟨j, hj, hv⟩ := Set.mem_iUnion₂.mp hv
    exact Nat.le_trans (h.2 ⟨j, hj, rfl⟩) ((hS j hj).2 hv)
  · refine ⟨hmem, fun v hv => ?_⟩
    obtain ⟨j, hj, hv⟩ := Set.mem_iUnion₂.mp hv
    exact Nat.le_trans ((hS j hj).2 hv) (h.2 ⟨j, hj, rfl⟩)

/-- A level that never wins may be left out where another one stays. -/
theorem IsExtreme.of_identity (h : IsExtreme op S v) (hsub : T ⊆ S) (hadd : S ⊆ insert op.identity T) (ha : a ∈ T)
    (hle : a ≤ 255) : IsExtreme op T v := by
  have hmem : v ∈ T := by
    rcases hadd h.mem with rfl | hv
    · -- the level that never wins is the extreme, so all others are equal to it
      have heq : a = op.identity := by
        cases op
        · exact Nat.le_antisymm hle (h.2 (hsub ha))
        · exact Nat.le_zero.mp (h.2 (hsub ha))
      exact heq ▸ ha
    · exact hv
  cases op
  · exact ⟨hmem, fun w hw => h.2 (hsub hw)⟩
  · exact ⟨hmem, fun w hw => h.2 (hsub hw)⟩

end Extremes

/-- An array drawn by a rule reads as the rule says within its size. -/
theorem getD_ofFn_of_lt {α : Type} {n : Nat} (f : Fin n → α) {i : Nat} (hi : i < n) (outside : α) :
    (Array.ofFn f).getD i outside = f ⟨i, hi⟩ := by
  rw [Array.getD_eq_getD_getElem?, Array.getElem?_ofFn, dif_pos hi, Option.getD_some]

section Blocks

variable {op : Extreme} {length total : Nat} {level : Nat → Nat}

/-- What the first value has and every value hands on to the next, all values of a recursion along a line have. -/
theorem runningValues_induction {n : Nat} {next : Nat → Nat → Nat} (P : Nat → Nat → Prop) (hfirst : P 0 (next 0 0))
    (hnext : ∀ i v, i + 1 < n → P i v → P (i + 1) (next (i + 1) v)) {i : Nat} (hi : i < n) :
    P i ((runningValues n next).getD i 0) := by
  have hscan := scan_induction n (fun i _ values => values.push (next i (values.back?.getD 0))) #[]
    (fun k values => values.size = k ∧ ∀ i < k, P i (values.getD i 0))
    ⟨rfl, fun i hi => absurd hi (Nat.not_lt_zero i)⟩ fun k hk values ⟨hsize, hvalues⟩ => by
      refine ⟨(Array.size_push ..).trans (congrArg (· + 1) hsize), fun i hi => ?_⟩
      rcases Nat.lt_succ_iff_lt_or_eq.mp hi with hlt | rfl
      · have hold := hvalues i hlt
        rw [Array.getD_eq_getD_getElem?] at hold ⊢
        rwa [Array.getElem?_push_lt (hsize ▸ hlt), ← Array.getElem?_eq_getElem (hsize ▸ hlt)]
      · have hlast : (values.push (next i (values.back?.getD 0))).getD i 0 = next i (values.back?.getD 0) := by
          rw [Array.getD_eq_getD_getElem?, ← hsize, Array.getElem?_push_size, Option.getD_some]
        rw [hlast, Array.back?_eq_getElem?, hsize, ← Array.getD_eq_getD_getElem?]
        cases i with
        | zero =>
          rw [Array.eq_empty_of_size_eq_zero hsize]
          exact hfirst
        | succ i => exact hnext i _ hk (hvalues i (Nat.lt_succ_self i))
  exact hscan.2 i hi

/-- The running extremes of a line, each from the start of its block on. -/
def runsFromStart (op : Extreme) (length total : Nat) (level : Nat → Nat) : Array Nat :=
  runningValues total fun i before => if i % length = 0 then level i else op.pick before (level i)

/-- The running extremes of a line from its last level to its first, each back from the end of its block or of the
line. -/
def runsFromEnd (op : Extreme) (length total : Nat) (level : Nat → Nat) : Array Nat :=
  runningValues total fun j after =>
    let i := total - 1 - j
    if j = 0 ∨ (i + 1) % length = 0 then level i else op.pick after (level i)

/-- A running extreme from the start of a block covers the levels from there to its own. -/
theorem isExtreme_runsFromStart (op : Extreme) (level : Nat → Nat) (hlength : 0 < length) {i : Nat}
    (hi : i < total) :
    ∃ a, length ∣ a ∧ a ≤ i ∧ i < a + length ∧
      IsExtreme op (level '' Set.Icc a i) ((runsFromStart op length total level).getD i 0) := by
  refine runningValues_induction (fun i v => ∃ a, length ∣ a ∧ a ≤ i ∧ i < a + length ∧
    IsExtreme op (level '' Set.Icc a i) v) ?_ (fun i v _ ih => ?_) hi
  · refine ⟨0, Nat.dvd_zero length, Nat.le_refl 0, by omega, ?_⟩
    rw [if_pos (Nat.zero_mod length), Set.Icc_self, Set.image_singleton]
    exact isExtreme_singleton op (level 0)
  · obtain ⟨a, hdvd, hle, hlt, hv⟩ := ih
    split
    · next hstart =>
      refine ⟨i + 1, Nat.dvd_of_mod_eq_zero hstart, Nat.le_refl _, by omega, ?_⟩
      rw [Set.Icc_self, Set.image_singleton]
      exact isExtreme_singleton op (level (i + 1))
    · next hinner =>
      have hne : i + 1 ≠ a + length := fun heq =>
        hinner (heq ▸ Nat.mod_eq_zero_of_dvd (Nat.dvd_add hdvd (Nat.dvd_refl _)))
      refine ⟨a, hdvd, by omega, by omega, ?_⟩
      have hsplit : Set.Icc a (i + 1) = Set.Icc a i ∪ {i + 1} := by
        ext j
        simp only [Set.mem_Icc, Set.mem_union, Set.mem_singleton_iff]
        omega
      rw [hsplit, Set.image_union, Set.image_singleton]
      exact hv.union (isExtreme_singleton op (level (i + 1)))

/-- No more positions follow one another without a multiple of a number than the number has ones. -/
theorem lt_add_of_not_dvd {i b : Nat} (hlength : 0 < length) (h : ∀ k, i < k → k ≤ b → ¬ length ∣ k) :
    b < i + length := by
  by_contra hge
  have hmod := Nat.mod_lt i hlength
  have hle := Nat.mod_le i length
  exact h (i - i % length + length) (by omega) (by omega) (Nat.dvd_add (Nat.dvd_sub_mod i) (Nat.dvd_refl length))

/-- A running extreme back from the end of a block covers the levels from its own to there. -/
theorem isExtreme_runsFromEnd (op : Extreme) (length : Nat) (level : Nat → Nat) {i : Nat} (hi : i < total) :
    ∃ b, (length ∣ b + 1 ∨ b + 1 = total) ∧ i ≤ b ∧ (∀ k, i < k → k ≤ b → ¬ length ∣ k) ∧
      IsExtreme op (level '' Set.Icc i b) ((runsFromEnd op length total level).getD (total - 1 - i) 0) := by
  have hback : ∀ j < total, ∃ b, (length ∣ b + 1 ∨ b + 1 = total) ∧ total - 1 - j ≤ b ∧
      (∀ k, total - 1 - j < k → k ≤ b → ¬ length ∣ k) ∧
      IsExtreme op (level '' Set.Icc (total - 1 - j) b) ((runsFromEnd op length total level).getD j 0) := by
    intro j hj
    refine runningValues_induction (fun j v => ∃ b, (length ∣ b + 1 ∨ b + 1 = total) ∧ total - 1 - j ≤ b ∧
      (∀ k, total - 1 - j < k → k ≤ b → ¬ length ∣ k) ∧ IsExtreme op (level '' Set.Icc (total - 1 - j) b) v)
      ?_ (fun j v hj ih => ?_) hj
    · refine ⟨total - 1, Or.inr (by omega), Nat.le_refl _, fun k hlt hle => absurd hle (Nat.not_le_of_lt hlt), ?_⟩
      rw [if_pos (Or.inl rfl), Nat.sub_zero, Set.Icc_self, Set.image_singleton]
      exact isExtreme_singleton op (level (total - 1))
    · obtain ⟨b, hend, hle, hinside, hv⟩ := ih
      have hstep : total - 1 - j = total - 1 - (j + 1) + 1 := by omega
      rw [hstep] at hle hinside hv
      generalize total - 1 - (j + 1) = i at hle hinside hv
      dsimp only
      split
      · next hstart =>
        have hdvd : length ∣ i + 1 := Nat.dvd_of_mod_eq_zero (hstart.resolve_left (Nat.succ_ne_zero j))
        refine ⟨i, Or.inl hdvd, Nat.le_refl i, fun k hlt hle => absurd hle (Nat.not_le_of_lt hlt), ?_⟩
        rw [Set.Icc_self, Set.image_singleton]
        exact isExtreme_singleton op (level i)
      · next hinner =>
        refine ⟨b, hend, Nat.le_of_succ_le hle, fun k hlt hk => ?_, ?_⟩
        · rcases Nat.eq_or_lt_of_le hlt with rfl | hlt
          · exact fun hdvd => hinner (Or.inr (Nat.mod_eq_zero_of_dvd hdvd))
          · exact hinside k hlt hk
        · have hsplit : Set.Icc i b = Set.Icc (i + 1) b ∪ {i} := by
            ext k
            simp only [Set.mem_Icc, Set.mem_union, Set.mem_singleton_iff]
            omega
          rw [hsplit, Set.image_union, Set.image_singleton]
          exact hv.union (isExtreme_singleton op (level i))
  have hplace : total - 1 - (total - 1 - i) = i := by omega
  have hreached := hback (total - 1 - i) (by omega)
  rwa [hplace] at hreached

/-- A window is the end of one running extreme and the end of another, whichever blocks it meets. -/
theorem isExtreme_window (op : Extreme) (level : Nat → Nat) (hlength : 0 < length) {i : Nat}
    (hi : i + length ≤ total) :
    IsExtreme op (level '' Set.Icc i (i + length - 1))
      (op.pick ((runsFromEnd op length total level).getD (total - 1 - i) 0)
        ((runsFromStart op length total level).getD (i + length - 1) 0)) := by
  have hfirst : i < total := by omega
  have hlast : i + length - 1 < total := by omega
  obtain ⟨b, hend, hib, hinside, hb⟩ := isExtreme_runsFromEnd op length level hfirst
  obtain ⟨a, hstart, hai, hia, ha⟩ := isExtreme_runsFromStart op level hlength hlast
  have hbi := lt_add_of_not_dvd hlength hinside
  have hab : a ≤ b + 1 := by
    rcases hend with hdvd | hline
    · -- both are starts of blocks, and the second one is the next at most
      by_contra hgap
      have hnext : length ≤ a - (b + 1) := Nat.le_of_dvd (by omega) (Nat.dvd_sub hstart hdvd)
      omega
    · omega
  have hcover : Set.Icc i (i + length - 1) = Set.Icc i b ∪ Set.Icc a (i + length - 1) := by
    ext k
    simp only [Set.mem_Icc, Set.mem_union]
    omega
  rw [hcover, Set.image_union]
  exact hb.union ha

end Blocks

/-- The block pass gives every position the extreme of the levels that the window around it covers. -/
theorem isExtreme_lineExtremes (op : Extreme) {length n : Nat} {line : Nat → Nat} (hlength : 0 < length)
    (hline : ∀ j < n, line j ≤ 255) {i : Nat} (hi : i < n) :
    IsExtreme op (line '' spanAround length n i) ((lineExtremes op length n line).getD i 0) := by
  unfold lineExtremes
  split
  · next hone =>
    obtain rfl : length = 1 := Nat.le_antisymm hone hlength
    have hspan : spanAround 1 n i = {i} := by
      ext j
      simp only [spanAround, Set.mem_ofPred_eq, Set.mem_singleton_iff]
      omega
    rw [hspan, Set.image_singleton, getD_ofFn_of_lt _ hi]
    exact isExtreme_singleton op (line i)
  · next hlong =>
    rw [getD_ofFn_of_lt _ hi]
    have hinside : i + length ≤ n + length - 1 := by omega
    have hwindow := isExtreme_window op (padded op (length / 2) n line) hlength hinside
    refine hwindow.of_identity ?_ ?_ ⟨i, self_mem_spanAround hlength hi, rfl⟩ (hline i hi)
    · rintro _ ⟨j, ⟨hj, hlow, hhigh⟩, rfl⟩
      refine ⟨j + length / 2, ⟨hlow, by omega⟩, ?_⟩
      rw [padded, if_neg (by omega), Nat.add_sub_cancel]
    · rintro _ ⟨k, ⟨hlow, hhigh⟩, rfl⟩
      rw [padded]
      split
      · exact Set.mem_insert _ _
      · exact Set.mem_insert_of_mem _ ⟨k - length / 2, ⟨by omega, by omega, by omega⟩, rfl⟩

/-- The columns over the rows give every position the extreme of the levels that the window around it covers. -/
theorem isExtreme_windowExtremes (op : Extreme) (pixels : Grid Nat) {width height : Nat} (hwidth : 0 < width)
    (hheight : 0 < height) {p : Nat × Nat} (hp : pixels.size.Contains p.1 p.2) :
    IsExtreme op ((fun q : Nat × Nat => pixels.getD q.1 q.2 0 % 256) '' windowAround pixels.size width height p)
      ((windowExtremes op width height pixels).getD p.1 p.2 0) := by
  have hrow : ∀ y, IsExtreme op ((fun x => pixels.getD x y 0 % 256) '' spanAround width pixels.size.width p.1)
      ((lineExtremes op width pixels.size.width fun x => pixels.getD x y 0 % 256).getD p.1 0) := fun y =>
    isExtreme_lineExtremes op hwidth (fun x _ => by omega) hp.1
  have hrowAt : ∀ y < pixels.size.height,
      ((Array.ofFn fun y : Fin pixels.size.height =>
        lineExtremes op width pixels.size.width fun x => pixels.getD x y.val 0 % 256).getD y #[]).getD p.1 0 =
      (lineExtremes op width pixels.size.width fun x => pixels.getD x y 0 % 256).getD p.1 0 := fun y hy => by
    rw [getD_ofFn_of_lt _ hy]
  have hlevels : ∀ y < pixels.size.height,
      ((Array.ofFn fun y : Fin pixels.size.height =>
        lineExtremes op width pixels.size.width fun x =>
          pixels.getD x y.val 0 % 256).getD y #[]).getD p.1 0 ≤ 255 := by
    intro y hy
    obtain ⟨x, _, hx⟩ := (hrow y).mem
    dsimp only at hx
    rw [hrowAt y hy, ← hx]
    omega
  have hcolumn := isExtreme_lineExtremes op hheight hlevels hp.2
  have hcover : (fun q : Nat × Nat => pixels.getD q.1 q.2 0 % 256) '' windowAround pixels.size width height p =
      ⋃ y ∈ spanAround height pixels.size.height p.2,
        (fun x => pixels.getD x y 0 % 256) '' spanAround width pixels.size.width p.1 := by
    ext v
    simp only [Set.mem_image, mem_windowAround_iff, Set.mem_iUnion₂, Prod.exists]
    constructor
    · rintro ⟨x, y, ⟨hx, hy⟩, rfl⟩
      exact ⟨y, hy, x, hx, rfl⟩
    · rintro ⟨y, hy, x, hx, rfl⟩
      exact ⟨x, y, ⟨hx, hy⟩, rfl⟩
  unfold windowExtremes
  rw [hcover, Grid.getD_ofFn, if_pos hp, getD_ofFn_of_lt _ hp.1]
  refine hcolumn.iUnion fun y hy => ?_
  rw [hrowAt y hy.1]
  exact hrow y

/-- The extremes of a gray page over windows of at least one pixel are a gray page of its size, and each of its
pixels shows the extreme of the levels in the window around it. -/
theorem extremes_over_window {r : Raster} {s : Size} (op : Extreme) (h : IsGray s r) {width height : Nat}
    (hwidth : 0 < width) (hheight : 0 < height) :
    Returns (extremes op r width height) fun image => image.HasShape .gray8 s r.resolution ∧
      ∀ p, s.Contains p.1 p.2 → IsExtreme op (r.level '' windowAround s width height p) (image.word p.1 p.2) := by
  obtain ⟨hformat, rfl⟩ := h
  have hlevel : r.level = fun q : Nat × Nat => r.pixels.getD q.1 q.2 0 % 256 := by
    funext q
    rw [Raster.level, hformat]
    rfl
  have hextreme : ∀ p : Nat × Nat, r.size.Contains p.1 p.2 →
      IsExtreme op (r.level '' windowAround r.size width height p)
        ((windowExtremes op width height r.pixels).getD p.1 p.2 0) := fun p hp =>
    hlevel ▸ isExtreme_windowExtremes op r.pixels hwidth hheight hp
  have hne : ¬ (width = 0 ∨ height = 0) := by omega
  simp only [extremes, require_eq_ok hformat, hne, if_false]
  refine returns_ok ⟨?_, hextreme⟩
  refine Raster.hasShape_of_getD_le rfl _ fun x y hxy => ?_
  obtain ⟨q, _, hq⟩ := (hextreme (x, y) hxy).mem
  rw [← hq]
  exact Nat.le_of_lt_succ (PixelFormat.grayOf_lt ..)

/-- The erosion of a gray page is the least and the dilation the greatest level over the window around each pixel,
as far as the window lies inside. The page lies between both, so the gradient is their exact difference. -/
theorem erode_isLeast_dilate_isGreatest {r : Raster} {s : Size} (h : IsGray s r) {width height : Nat}
    (hwidth : 0 < width) (hheight : 0 < height) :
    ∃ low high edges, erode r width height = .ok low ∧ dilate r width height = .ok high ∧
      gradient r width height = .ok edges ∧ low.HasShape .gray8 s r.resolution ∧
      high.HasShape .gray8 s r.resolution ∧ edges.HasShape .gray8 s r.resolution ∧
      ∀ p, s.Contains p.1 p.2 →
        IsLeast (r.level '' windowAround s width height p) (low.word p.1 p.2) ∧
        IsGreatest (r.level '' windowAround s width height p) (high.word p.1 p.2) ∧
        low.word p.1 p.2 ≤ r.level p ∧ r.level p ≤ high.word p.1 p.2 ∧
        edges.word p.1 p.2 + low.word p.1 p.2 = high.word p.1 p.2 := by
  obtain ⟨low, herode, hlow, hleast⟩ := extremes_over_window .least h hwidth hheight
  obtain ⟨high, hdilate, hhigh, hgreatest⟩ := extremes_over_window .greatest h hwidth hheight
  have hgradient : gradient r width height =
      .ok (Raster.ofFn .gray8 high.resolution high.size fun x y => high.word x y - low.word x y) := by
    rw [gradient, localExtremes, erode, dilate, herode, hdilate]
    rfl
  have hedges : (Raster.ofFn .gray8 high.resolution high.size fun x y => high.word x y - low.word x y).HasShape
      .gray8 s r.resolution := by
    rw [hhigh.size_eq, hhigh.resolution_eq]
    exact Raster.hasShape_ofFn _ _ _ fun x y => Nat.le_trans (Nat.sub_le _ _) (hhigh.word_le x y)
  refine ⟨low, high, _, herode, hdilate, hgradient, hlow, hhigh, hedges, fun p hp => ?_⟩
  have hself : r.level p ∈ r.level '' windowAround s width height p :=
    ⟨p, mem_windowAround_iff.mpr ⟨self_mem_spanAround hwidth hp.1, self_mem_spanAround hheight hp.2⟩, rfl⟩
  have hle : low.word p.1 p.2 ≤ r.level p := (hleast p hp).2 hself
  have hge : r.level p ≤ high.word p.1 p.2 := (hgreatest p hp).2 hself
  refine ⟨hleast p hp, hgreatest p hp, hle, hge, ?_⟩
  rw [Raster.word_ofFn, if_pos (hhigh.size_eq ▸ hp)]
  exact Nat.sub_add_cancel (Nat.le_trans hle hge)

/-- A window of two columns begins one column before the pixel, and one higher than the page takes all of
its rows. -/
theorem erode_dilate_over_low_page :
    let page : Raster := ⟨.gray8, .standard, ⟨⟨3, 2, by decide, by decide⟩, #[10, 200, 30, 40, 50, 250], rfl⟩⟩
    ∃ low high edges, erode page 2 5 = .ok low ∧ dilate page 2 5 = .ok high ∧ gradient page 2 5 = .ok edges ∧
      low.words = #[10, 10, 30, 10, 10, 30] ∧ high.words = #[40, 200, 250, 40, 200, 250] ∧
      edges.words = #[30, 190, 220, 30, 190, 220] ∧
      IsLeast (page.level '' windowAround page.size 2 5 (2, 0)) (low.word 2 0) ∧
      IsGreatest (page.level '' windowAround page.size 2 5 (2, 0)) (high.word 2 0) := by
  intro page
  have hpage : IsGray page.size page := ⟨rfl, rfl⟩
  obtain ⟨low, high, edges, hlow, hhigh, hedges, _, _, _, hextremes⟩ :=
    erode_isLeast_dilate_isGreatest hpage (by decide : 0 < 2) (by decide : 0 < 5)
  obtain ⟨hleast, hgreatest, _⟩ := hextremes (2, 0) (by decide)
  refine ⟨low, high, edges, hlow, hhigh, hedges, ?_, ?_, ?_, hleast, hgreatest⟩
  · rw [← Except.ok.inj hlow]
    decide +kernel
  · rw [← Except.ok.inj hhigh]
    decide +kernel
  · rw [← Except.ok.inj hedges]
    decide +kernel

end ScannedPage.Morphology
