import ScannedPage.Proofs.Convergence
import ScannedPage.Proofs.Counting
import ScannedPage.Proofs.Morphology.Growth

/-!
# Caps on the iterations of a reconstruction

How far a cap reaches follows from the sets of positions that have reached a given level. Such a set never shrinks,
and an iteration that adds no position to it is the last one that could have: every neighbour of the set that the
mask would let in has been let in (`Settled`), and no level leaves a set that is `Closed` in this way. So the set
gains a position in every iteration until it is settled, which happens before there are as many iterations as
positions (`settled_or_lt_card`). One more iteration then finds nothing to change.

A smaller cap gives lower levels, and so does a lower marker. A reconstruction at rest is the same under every
greater cap.
-/

namespace ScannedPage.Morphology

section Settling

variable {caps levels : Grid Nat} {c : Connectivity} {v : Nat}

/-- The positions that have reached a level. -/
def reached (levels : Grid Nat) (v : Nat) : Finset (Nat × Nat) :=
  levels.size.positions.filter fun p => v ≤ levels.getD p.1 p.2 0

/-- A position inside has reached the levels up to its own. -/
theorem mem_reached {p : Nat × Nat} :
    p ∈ reached levels v ↔ levels.size.Contains p.1 p.2 ∧ v ≤ levels.getD p.1 p.2 0 := by
  rw [reached, Finset.mem_filter, Size.mem_positions]

/-- No position reaches the level in the next iteration that has not reached it before. -/
def Settled (caps : Grid Nat) (c : Connectivity) (levels : Grid Nat) (v : Nat) : Prop :=
  ∀ p : Nat × Nat, caps.size.Contains p.1 p.2 → v ≤ (iterate caps c levels).levels.getD p.1 p.2 0 →
    v ≤ levels.getD p.1 p.2 0

/-- The set holds every position inside that has reached the level. -/
structure ReachedWithin (caps : Grid Nat) (v : Nat) (A : Nat × Nat → Prop) (levels : Grid Nat) : Prop where
  size : levels.size = caps.size
  mem : ∀ p, caps.size.Contains p.1 p.2 → v ≤ levels.getD p.1 p.2 0 → A p

/-- The set holds the neighbours of its positions that the mask lets reach the level. -/
def Closed (caps : Grid Nat) (c : Connectivity) (v : Nat) (A : Nat × Nat → Prop) : Prop :=
  ∀ q p, caps.size.Contains q.1 q.2 → caps.size.Contains p.1 p.2 → c.Neighbours q p → A q → v ≤ capAt caps p → A p

/-- Raising a position does not take a level out of a closed set. -/
theorem ReachedWithin.propagate {A : Nat × Nat → Prop} (hclosed : Closed caps c v A) {t : Sweep}
    (h : ReachedWithin caps v A t.levels) {steps : List (Int × Int)} (hsteps : ∀ d ∈ steps, d ∈ c.offsets)
    {p : Nat × Nat} (hp : caps.size.Contains p.1 p.2) :
    ReachedWithin caps v A (t.propagate caps steps p.1 p.2).levels := by
  refine ⟨(Sweep.size_propagate ..).trans h.size, fun p' hp' hv => ?_⟩
  rcases t.propagate_cases caps steps p.1 p.2 with ⟨heq, _⟩ | ⟨d, hd, q, hq, _, heq⟩
  · exact h.mem p' hp' (heq ▸ hv)
  · rw [heq, Grid.getD_set] at hv
    split at hv
    · next hsame =>
      obtain rfl : p' = p := Prod.ext hsame.1 hsame.2.1
      obtain ⟨hqin, hn⟩ := Connectivity.neighbours_of_step? (hsteps d hd) (h.size ▸ hq)
      have hvq : A q := h.mem q hqin (Nat.le_trans hv (Nat.min_le_left _ _))
      exact hclosed q p' hqin hp hn hvq (Nat.le_trans hv (Nat.min_le_right _ _))
    · exact h.mem p' hp' hv

/-- An iteration does not take a level out of a closed set. -/
theorem ReachedWithin.iterate {A : Nat × Nat → Prop} (hclosed : Closed caps c v A)
    (h : ReachedWithin caps v A levels) : ReachedWithin caps v A (iterate caps c levels).levels :=
  iterate_induction _ h fun _ _ _ hsteps hp ht => ht.propagate hclosed hsteps hp

/-- A level that no position has reached is settled. -/
theorem settled_of_reached_eq_empty (hsize : levels.size = caps.size) (h : reached levels v = ∅) :
    Settled caps c levels v := by
  have hnone : ReachedWithin caps v (fun _ => False) levels := ⟨hsize, fun p hp hv => by
    have hmem : p ∈ reached levels v := mem_reached.mpr ⟨hsize ▸ hp, hv⟩
    rw [h] at hmem
    exact Finset.notMem_empty p hmem⟩
  have hclosed : Closed caps c v fun _ => False := fun _ _ _ _ _ hq _ => hq
  exact fun p hp hv => ((hnone.iterate hclosed).mem p hp hv).elim

/-- A level that is settled stays settled in the next iteration. -/
theorem Settled.iterate (hsize : levels.size = caps.size) (h : Settled caps c levels v) :
    Settled caps c (iterate caps c levels).levels v := by
  have hup := below_iterate (c := c) hsize
  have hclosed : Closed caps c v fun p => v ≤ (Morphology.iterate caps c levels).levels.getD p.1 p.2 0 :=
    fun q p hq hp hn hvq hcap => Nat.le_trans (Nat.le_min.mpr ⟨h q hq hvq, hcap⟩) (le_iterate hsize hq hp hn)
  have hwithin : ReachedWithin caps v (fun p => v ≤ (Morphology.iterate caps c levels).levels.getD p.1 p.2 0)
      (Morphology.iterate caps c levels).levels := ⟨hup.size.symm.trans hsize, fun _ _ hv => hv⟩
  exact (hwithin.iterate hclosed).mem

/-- A level that is not settled is reached by more positions after the next iteration. -/
theorem card_reached_lt (hsize : levels.size = caps.size) (h : ¬ Settled caps c levels v) :
    (reached levels v).card < (reached (iterate caps c levels).levels v).card := by
  have hup := below_iterate (c := c) hsize
  obtain ⟨p, hp, hv, hnot⟩ : ∃ p : Nat × Nat, caps.size.Contains p.1 p.2 ∧
      v ≤ (iterate caps c levels).levels.getD p.1 p.2 0 ∧ ¬ v ≤ levels.getD p.1 p.2 0 := by
    simpa only [Settled, not_forall, exists_prop] using h
  refine Finset.card_lt_card (Finset.ssubset_iff_of_subset (fun q hq => ?_) |>.mpr ⟨p, ?_, ?_⟩)
  · obtain ⟨hin, hvq⟩ := mem_reached.mp hq
    exact mem_reached.mpr ⟨hup.size ▸ hin, Nat.le_trans hvq (hup.le q)⟩
  · exact mem_reached.mpr ⟨hup.size ▸ hsize ▸ hp, hv⟩
  · exact fun hmem => hnot (mem_reached.mp hmem).2

/-- After some iterations a level is settled, or more positions than there were iterations have reached it. -/
theorem settled_or_lt_card (hsize : levels.size = caps.size) (k : Nat) :
    Settled caps c (rounds caps c k levels) v ∨ k < (reached (rounds caps c k levels) v).card := by
  induction k with
  | zero =>
    rcases (reached levels v).eq_empty_or_nonempty with hnone | hsome
    · exact Or.inl (settled_of_reached_eq_empty hsize hnone)
    · exact Or.inr hsome.card_pos
  | succ k ih =>
    have hk : (rounds caps c k levels).size = caps.size := (size_rounds ..).trans hsize
    rw [rounds_succ]
    by_cases hsettled : Settled caps c (rounds caps c k levels) v
    · exact Or.inl (hsettled.iterate hk)
    · have hcard := card_reached_lt hk hsettled
      exact Or.inr (Nat.lt_of_le_of_lt (ih.resolve_left hsettled) hcard)

/-- One iteration before there are as many as positions, every level is settled. -/
theorem settled_rounds (hsize : levels.size = caps.size) {k : Nat} (hk : caps.size.area ≤ k + 1) :
    Settled caps c (rounds caps c k levels) v := by
  rcases settled_or_lt_card (c := c) (v := v) hsize k with hsettled | hcard
  · exact hsettled
  · -- all positions have reached the level
    have hksize : (rounds caps c k levels).size = caps.size := (size_rounds ..).trans hsize
    intro p hp _
    have hall : reached (rounds caps c k levels) v = caps.size.positions := by
      refine Finset.eq_of_subset_of_card_le (fun q hq => ?_) ?_
      · exact Size.mem_positions.mpr (hksize ▸ (mem_reached.mp hq).1)
      · rw [Size.card_positions]
        exact Nat.le_trans hk hcard
    exact (mem_reached.mp (hall ▸ Size.mem_positions.mpr hp)).2

/-- A growth with as much fuel as there are positions comes to rest. -/
theorem rest_grow (hsize : levels.size = caps.size) {fuel : Nat} (hfuel : caps.size.area ≤ fuel) (done : Nat) :
    (grow caps c fuel done levels).2.1 = true := by
  by_contra hcut
  have hpos : 0 < caps.size.area := Nat.mul_pos caps.size.width_pos caps.size.height_pos
  have hksize : (rounds caps c (fuel - 1) levels).size = caps.size := (size_rounds ..).trans hsize
  have hchanged := changed_of_not_rest (Bool.eq_false_iff.mpr hcut) (k := fuel - 1) (by omega)
  obtain ⟨p, hp, hlt⟩ := exists_lt_iterate hksize hchanged
  have hsettled := settled_rounds (c := c) hsize (k := fuel - 1)
    (v := (iterate caps c (rounds caps c (fuel - 1) levels)).levels.getD p.1 p.2 0) (by omega)
  exact absurd (hsettled p hp (Nat.le_refl _)) (Nat.not_le_of_lt hlt)

end Settling

/-- Iteration caps of reconstruction in an image that fits, where the scans in words are without fault. A cap of as
many iterations as there are pixels lets every reconstruction come to rest, and no cap is exceeded or missed. The
levels rise with the cap, and a reconstruction at rest stays the same under greater ones. Under one cap the levels
rise with the marker. -/
theorem reconstructWithin_caps {s : Size} (hs : s.FitsInt32) {marker mask : Raster} (hmarker : IsGray s marker)
    (hmask : IsGray s mask) (c : Connectivity) :
    (∀ limit marker', reconstructInWords? marker' mask c limit = some (reconstructWithin marker' mask c limit)) ∧
    (∀ limit, s.area ≤ limit → Returns (reconstructWithin marker mask c limit) fun grown =>
      grown.converged = true) ∧
    (∀ limit, 0 < limit → Returns (reconstructWithin marker mask c limit) fun grown => grown.EndsBy limit) ∧
    (∀ m n, 0 < m → m ≤ n → ∃ grown grown', reconstructWithin marker mask c m = .ok grown ∧
      reconstructWithin marker mask c n = .ok grown' ∧
      (∀ p : Nat × Nat, s.Contains p.1 p.2 → grown.image.word p.1 p.2 ≤ grown'.image.word p.1 p.2) ∧
      (grown.converged = true → grown' = grown)) ∧
    (∀ limit marker', 0 < limit → IsGray s marker' →
      (∀ p, s.Contains p.1 p.2 → marker.level p ≤ marker'.level p) →
      ∃ grown grown', reconstructWithin marker mask c limit = .ok grown ∧
        reconstructWithin marker' mask c limit = .ok grown' ∧
        ∀ p : Nat × Nat, s.Contains p.1 p.2 → grown.image.word p.1 p.2 ≤ grown'.image.word p.1 p.2) := by
  have hsize := size_startOf hmarker hmask
  refine ⟨fun limit marker' => reconstructInWords?_eq_some (hmask.2.symm ▸ hs) c, fun limit hlimit => ?_,
    fun limit hlimit => ?_, fun m n hm hmn => ?_, fun limit marker' hlimit hmarker' hle => ?_⟩
  · have harea : 0 < s.area := Nat.mul_pos s.width_pos s.height_pos
    rw [reconstructWithin_eq_ok hmarker hmask c (Nat.lt_of_lt_of_le harea hlimit)]
    exact returns_ok (rest_grow hsize ((size_capsOf hmask).symm ▸ hlimit) 0)
  · have hgrown := reconstructWithin_eq_ok hmarker hmask c hlimit
    exact ⟨_, hgrown, reconstructWithin_endsBy hgrown⟩
  · refine ⟨_, _, reconstructWithin_eq_ok hmarker hmask c hm,
      reconstructWithin_eq_ok hmarker hmask c (Nat.lt_of_lt_of_le hm hmn), fun p _ => ?_, fun hrest => ?_⟩
    · have hbelow := rounds_below (c := c) hsize hmn
      rw [← levels_growth hmarker hmask, ← levels_growth hmarker hmask] at hbelow
      exact hbelow.le p
    · have hsame : growth marker mask c n = growth marker mask c m := grow_eq_of_rest hmn hrest
      rw [hsame]
  · refine ⟨_, _, reconstructWithin_eq_ok hmarker hmask c hlimit, reconstructWithin_eq_ok hmarker' hmask c hlimit,
      fun p _ => ?_⟩
    have hbelow := (below_startOf mask hmarker hmarker' hle).rounds (c := c) hsize limit
    rw [← levels_growth hmarker hmask, ← levels_growth hmarker' hmask] at hbelow
    exact hbelow.le p

/-- Around a wall a seed in the lower left goes up in the first iteration and down the other side in the second.
The third one finds it at rest, as does any cap from three iterations on. -/
theorem reconstructWithin_caps_around_wall :
    let marker : Raster :=
      ⟨.gray8, .standard, ⟨⟨3, 3, by decide, by decide⟩, #[0, 0, 0, 0, 0, 0, 200, 0, 0], rfl⟩⟩
    let mask : Raster :=
      ⟨.gray8, .standard, ⟨⟨3, 3, by decide, by decide⟩, #[210, 210, 210, 210, 0, 210, 210, 0, 190], rfl⟩⟩
    marker.size.FitsInt32 ∧ ∃ cut grown, reconstructInWords? marker mask .fourWay 1 = some (.ok cut) ∧
      reconstructWithin marker mask .fourWay 1 = .ok cut ∧ cut.converged = false ∧ cut.EndsBy 1 ∧
      cut.image.words = #[200, 0, 0, 200, 0, 0, 200, 0, 0] ∧
      reconstructWithin marker mask .fourWay 9 = .ok grown ∧ grown.converged = true ∧ grown.iterations = 3 ∧
      grown.image.words = #[200, 200, 200, 200, 0, 200, 200, 0, 190] ∧
      (∀ p : Nat × Nat, marker.size.Contains p.1 p.2 → cut.image.word p.1 p.2 ≤ grown.image.word p.1 p.2) ∧
      reconstructWithin marker mask .fourWay 12 = .ok grown ∧
      ∃ whole, reconstructWithin mask mask .fourWay 9 = .ok whole ∧
        ∀ p : Nat × Nat, marker.size.Contains p.1 p.2 → grown.image.word p.1 p.2 ≤ whole.image.word p.1 p.2 := by
  intro marker mask
  have hmarker : IsGray marker.size marker := ⟨rfl, rfl⟩
  have hmask : IsGray marker.size mask := ⟨rfl, rfl⟩
  have hlower : ∀ p, marker.size.Contains p.1 p.2 → marker.level p ≤ mask.level p := fun p hp => by
    have hall : ∀ x < 3, ∀ y < 3, marker.level (x, y) ≤ mask.level (x, y) := by decide +kernel
    exact hall p.1 hp.1 p.2 hp.2
  have hfits : marker.size.FitsInt32 := by decide
  obtain ⟨hwords, hrest, hends, hcaps, hmarkers⟩ := reconstructWithin_caps hfits hmarker hmask .fourWay
  obtain ⟨cut, hcut, hcutEnds⟩ := hends 1 (by decide)
  obtain ⟨grown, hgrown, hconverged⟩ := hrest 9 (by decide)
  obtain ⟨first, second, hfirst, hsecond, hle, _⟩ := hcaps 1 9 (by decide) (by decide)
  obtain rfl := Except.ok.inj (hcut.symm.trans hfirst)
  obtain rfl := Except.ok.inj (hgrown.symm.trans hsecond)
  obtain ⟨third, more, hthird, hmore, _, hsame⟩ := hcaps 9 12 (by decide) (by decide)
  obtain rfl := Except.ok.inj (hgrown.symm.trans hthird)
  obtain ⟨fourth, whole, hfourth, hwhole, hbelow⟩ := hmarkers 9 mask (by decide) hmask hlower
  obtain rfl := Except.ok.inj (hgrown.symm.trans hfourth)
  refine ⟨hfits, cut, grown, hcut ▸ hwords 1 marker, hcut, ?_, hcutEnds, ?_, hgrown, hconverged, ?_, ?_, hle,
    hsame hconverged ▸ hmore, whole, hwhole, hbelow⟩
  · rw [← Except.ok.inj hcut]
    decide +kernel
  · rw [← Except.ok.inj hcut]
    decide +kernel
  · rw [← Except.ok.inj hgrown]
    decide +kernel
  · rw [← Except.ok.inj hgrown]
    decide +kernel

end ScannedPage.Morphology
