import ScannedPage.Morphology.Reconstruction
import ScannedPage.Morphology.Smoothing
import ScannedPage.Morphology.Window
import ScannedPage.Proofs.Raster

/-!
# Morphology keeps the size of a page

Erosion, dilation, reconstruction and hole filling take any gray page, and their results are gray pages of
the same size. Smoothing a bilevel page keeps its whole shape.
-/

namespace ScannedPage.Morphology

/-- A raster of the needed format is accepted. -/
theorem require_eq_ok {r : Raster} {f : PixelFormat} (h : r.format = f) : require f r = .ok () := if_pos h

/-- A gray raster of a size. -/
def IsGray (s : Size) (r : Raster) : Prop := r.format = .gray8 ∧ r.size = s

/-- A gray raster drawn by a rule is gray and of the size it was drawn with. -/
theorem isGray_ofFn (p : Resolution) (s : Size) (w : Nat → Nat → Nat) : IsGray s (Raster.ofFn .gray8 p s w) :=
  ⟨rfl, rfl⟩

section Gray

variable {r : Raster} {s : Size}

/-- The extremes of a gray page exist over every window of at least one pixel. -/
theorem extremes_returns (h : IsGray s r) (op : Extreme) {width height : Nat} (hw : 0 < width)
    (hh : 0 < height) :
    Returns (extremes op r width height) fun r' => IsGray s r' ∧ r'.resolution = r.resolution := by
  have hne : ¬ (width = 0 ∨ height = 0) := by omega
  simp only [extremes, require_eq_ok h.1, hne, if_false]
  exact returns_ok ⟨⟨rfl, h.2⟩, rfl⟩

/-- The erosion and the dilation of a gray page exist together over every window of at least one pixel. -/
theorem localExtremes_returns (h : IsGray s r) {width height : Nat} (hw : 0 < width) (hh : 0 < height) :
    Returns (localExtremes r width height) fun pair => IsGray s pair.1 ∧ IsGray s pair.2 := by
  refine (extremes_returns h .least hw hh).bind fun low hlow => ?_
  exact (extremes_returns h .greatest hw hh).bind fun high hhigh => returns_pure ⟨hlow.1, hhigh.1⟩

/-- The gradient of a gray page is a gray page of its size. -/
theorem gradient_returns (h : IsGray s r) {width height : Nat} (hw : 0 < width) (hh : 0 < height) :
    Returns (gradient r width height) (IsGray s) :=
  (localExtremes_returns h hw hh).bind fun _ hpair => returns_pure ⟨rfl, hpair.2.2⟩

end Gray

section Growth

variable (caps : Grid Nat) (c : Connectivity)

/-- Raising a pixel keeps the size. -/
theorem Sweep.size_propagate (steps : List (Int × Int)) (x y : Nat) (s : Sweep) :
    (s.propagate caps steps x y).levels.size = s.levels.size := by
  simp only [propagate]
  split
  · rfl
  · split
    · exact Grid.size_set ..
    · rfl

/-- The scan forward keeps the size. -/
theorem Sweep.size_forward (s : Sweep) : (s.forward caps c).levels.size = s.levels.size := by
  unfold forward
  apply scan_induction caps.size.area _ s (fun _ t => t.levels.size = s.levels.size) rfl
  intro i hi t ht
  rw [Sweep.size_propagate, ht]

/-- The scan backward keeps the size. -/
theorem Sweep.size_backward (s : Sweep) : (s.backward caps c).levels.size = s.levels.size := by
  unfold backward
  apply scan_induction caps.size.area _ s (fun _ t => t.levels.size = s.levels.size) rfl
  intro i hi t ht
  rw [Sweep.size_propagate, ht]

/-- Growth keeps the size, whatever ends it. -/
theorem size_grow (fuel done : Nat) (levels : Grid Nat) : (grow caps c fuel done levels).1.size =
    levels.size := by
  induction fuel generalizing done levels with
  | zero => rfl
  | succ fuel ih =>
    have hiter : (iterate caps c levels).levels.size = levels.size := by
      rw [iterate, Sweep.size_backward, Sweep.size_forward]
    simp only [grow]
    split
    · rw [ih, hiter]
    · exact hiter

end Growth

section Reconstruction

variable {s : Size}

/-- A marker grows under any mask of its size. -/
theorem reconstruct_returns {marker mask : Raster} (hmarker : IsGray s marker) (hmask : IsGray s mask)
    (c : Connectivity) : Returns (reconstruct marker mask c) fun grown => IsGray s grown.image := by
  have hsides : mask.checkSides marker.size.sides = .ok () :=
    Raster.checkSides_eq_ok (hmask.2.trans hmarker.2.symm)
  have hlimit : iterationLimit marker.width marker.height ≠ 0 :=
    Nat.ne_of_gt (Nat.lt_of_lt_of_le Nat.zero_lt_one (Nat.le_max_right _ _))
  simp only [reconstruct, reconstructWithin, require_eq_ok hmarker.1, require_eq_ok hmask.1, hsides, hlimit,
    if_false]
  exact returns_ok ⟨rfl, (size_grow ..).trans hmarker.2⟩

/-- A gray page has an inverse of its size. -/
theorem invert_returns {r : Raster} (h : IsGray s r) : Returns r.invert (IsGray s) := by
  simp only [Raster.invert, h.1]
  exact returns_ok ⟨rfl, h.2⟩

/-- The holes of any gray page can be filled. -/
theorem fillHoles_returns {r : Raster} (h : IsGray s r) (c : Connectivity) :
    Returns (fillHoles r c) fun filled => IsGray s filled.image := by
  obtain rfl := h.2
  simp only [fillHoles, require_eq_ok h.1]
  refine Returns.bind (Q := fun _ => True) (returns_ok trivial) fun _ _ => ?_
  refine ((invert_returns h).mapError _).bind fun inverted hinverted => ?_
  refine (reconstruct_returns (isGray_ofFn ..) hinverted c).bind fun grown hgrown => ?_
  exact ((invert_returns hgrown).mapError _).bind fun image himage => returns_pure himage

end Reconstruction

section Smoothing

/-- Every cell of a grid is a bilevel word. -/
def IsBilevel (g : Grid Nat) : Prop := ∀ x y v, g.get? x y = some v → v ≤ 1

/-- A size and bilevel words, kept by every step of a smoothing. -/
def Keeps (s : Size) (g : Grid Nat) : Prop := g.size = s ∧ IsBilevel g

variable {s : Size}

/-- Writing a bilevel word keeps size and words. -/
theorem Keeps.replaceWord {state : Grid Nat × Nat} (h : Keeps s state.1) (x y : Int) {word : Nat}
    (hword : word ≤ 1) :
    Keeps s (replaceWord state x y word).1 := by
  simp only [Morphology.replaceWord]
  split
  · split
    · exact h
    · refine ⟨(Grid.size_set ..).trans h.1, fun x' y' v hv => ?_⟩
      rw [Grid.get?_set] at hv
      split at hv
      · exact Option.some.inj hv ▸ hword
      · exact h.2 x' y' v hv
  · exact h

/-- A cell writes bilevel words only. -/
theorem Cell.replacement_le {cell : Cell} {word : Nat} (h : cell.replacement = some word) : word ≤ 1 := by
  cases cell <;> simp [replacement] at h <;> omega

/-- The replacements of a pattern at one anchor keep size and words. -/
theorem Keeps.replaceAt (p : Pattern) (before : Grid Nat) {state : Grid Nat × Nat} (h : Keeps s state.1)
    (anchor : Int × Int) : Keeps s (p.replaceAt before state anchor).1 := by
  rw [Pattern.replaceAt]
  split
  · induction p.cells generalizing state with
    | nil => exact h
    | cons cell cells ih =>
      refine ih ?_
      dsimp only
      split
      · next word hword => exact h.replaceWord _ _ (Cell.replacement_le hword)
      · exact h
  · exact h

/-- A pass of a pattern keeps size and words. -/
theorem Keeps.pass (p : Pattern) (anchors : List (Int × Int)) {image : Grid Nat} (h : Keeps s image) :
    Keeps s (p.pass anchors image).1 := by
  have hfold (anchors : List (Int × Int)) (state : Grid Nat × Nat) (hstate : Keeps s state.1) :
      Keeps s (anchors.foldl (p.replaceAt image) state).1 := by
    induction anchors generalizing state with
    | nil => exact hstate
    | cons anchor anchors ih => exact ih _ (hstate.replaceAt p image anchor)
  exact hfold anchors (image, 0) h

/-- All passes together keep size and words. -/
theorem Keeps.smoothGrid {image : Grid Nat} (h : Keeps s image) : Keeps s (smoothGrid image) := by
  unfold Morphology.smoothGrid
  induction smoothingPatterns.flatMap Pattern.orientations generalizing image with
  | nil => exact h
  | cons p patterns ih => exact ih (h.pass p _)

/-- Smoothing keeps the shape of a bilevel page. -/
theorem smoothEdges_returns {r : Raster} {p : Resolution} (h : r.HasShape .bit1 s p) :
    Returns (smoothEdges r) fun r' => r'.HasShape .bit1 s p := by
  have hin : IsBilevel r.pixels := fun x y v hv => by
    have hle := h.inRange x y v hv
    rwa [h.format_eq] at hle
  have hkeeps : Keeps s (smoothGrid r.pixels) := Keeps.smoothGrid ⟨h.size_eq, hin⟩
  simp only [smoothEdges, require_eq_ok h.format_eq]
  generalize smoothGrid r.pixels = smooth at hkeeps
  refine returns_ok ⟨h.format_eq, hkeeps.1, h.resolution_eq, fun x y v hv => ?_⟩
  rw [h.format_eq]
  exact hkeeps.2 x y v hv

end Smoothing

end ScannedPage.Morphology
