import Mathlib.Algebra.Group.Int.Defs
import Mathlib.Algebra.Group.Prod
import ScannedPage.Proofs.Morphology.Passes

/-!
# Smoothing keeps the parts of the ink

Every cell that a smoothing pattern erases or fills lies flat: three black cells on one side of it and three white
ones on the other (`Pattern.LiesFlat`). Two such cells of one pass never stand in each other's way, since each
would need the other to be of the colour that it is not; so a pass keeps the parts of the ink, and the passes that
erase, and after them those that fill, do so together.

A pixel may be erased and filled again. That it comes back to its own part needs more: whatever is filled touches
ink that no pass has filled. Between two filled runs of ink nothing else can come in, because a filled place keeps
black on three of its four sides (`Propped`), and no place is filled with the same side open twice before every run
has an end that stood there from the start.
-/

namespace ScannedPage.Morphology

/-- A place relative to an anchor and the places ahead of it. -/
theorem ahead_sub (d : Place) (k : Int) (anchor q : Place) :
    ((ahead d k q).1 - anchor.1, (ahead d k q).2 - anchor.2) = ahead d k (q.1 - anchor.1, q.2 - anchor.2) := by
  simp only [ahead]
  exact Prod.ext (by simp only; omega) (by simp only; omega)

/-- The steps along the axes have their opposites. -/
theorem neg_mem_axisSteps : ∀ d ∈ axisSteps, -d ∈ axisSteps := by decide

/-- Two steps along the axes that are neither the same nor opposite cross each other. -/
theorem axisSteps_cross : ∀ d ∈ axisSteps, ∀ u ∈ axisSteps, u ≠ d → u ≠ -d →
    d.1 = 0 ∧ u.2 = 0 ∨ d.2 = 0 ∧ u.1 = 0 := by decide

/-- A place beside one of an image is in the image if the place ahead of it is. -/
theorem Inside.of_ahead {s : Size} {d u q : Place} (hd : d ∈ axisSteps) (hu : u ∈ axisSteps) (hne : u ≠ d)
    (hneg : u ≠ -d) (hq : Inside s q) (hahead : Inside s (ahead d 0 (ahead u 0 q))) : Inside s (ahead u 0 q) := by
  have hcross := axisSteps_cross d hd u hu hne hneg
  simp only [Inside, ahead, Int.zero_mul, Int.add_zero] at hq hahead ⊢
  omega

namespace Pattern

/-- Every cell of a kind has a black row ahead in the pattern, and a white row behind. -/
def LiesFlat (p : Pattern) (cell : Cell) (d : Place) : Prop :=
  ∀ entry ∈ p.cells, entry.2.2 = cell → ∀ k ∈ sides,
    p.Has (ahead d k (entry.1, entry.2.1)) .black ∧ p.Has (ahead (-d) k (entry.1, entry.2.1)) .white

/-- Every filled cell is black or filled on all sides but the one behind. -/
def Props (p : Pattern) (d : Place) : Prop :=
  ∀ entry ∈ p.cells, entry.2.2 = .fill → ∀ u ∈ axisSteps, u ≠ -d →
    p.Has (ahead u 0 (entry.1, entry.2.1)) .black ∨ p.Has (ahead u 0 (entry.1, entry.2.1)) .fill

/-- Every filled cell stands next to a black one in its row that has a white one behind. -/
def EndsInBlack (p : Pattern) (d : Place) : Prop :=
  ∀ entry ∈ p.cells, entry.2.2 = .fill → ∃ u ∈ axisSteps, u ≠ d ∧
    p.Has (ahead u 0 (entry.1, entry.2.1)) .black ∧ p.Has (ahead (-d) 0 (ahead u 0 (entry.1, entry.2.1))) .white

/-- The pattern erases cells that lie flat in a direction, and does nothing else. -/
def Erases (p : Pattern) (d : Place) : Prop := d ∈ axisSteps ∧ p.WritesOnly .erase ∧ p.LiesFlat .erase d

/-- The pattern fills cells that lie flat in a direction with black around them, and does nothing else. -/
def Fills (p : Pattern) (d : Place) : Prop :=
  d ∈ axisSteps ∧ p.WritesOnly .fill ∧ p.LiesFlat .fill d ∧ p.Props d

instance (p : Pattern) (cell : Cell) (d : Place) : Decidable (p.LiesFlat cell d) :=
  inferInstanceAs (Decidable (∀ entry ∈ p.cells, _))

instance (p : Pattern) (d : Place) : Decidable (p.Props d) := inferInstanceAs (Decidable (∀ entry ∈ p.cells, _))

instance (p : Pattern) (d : Place) : Decidable (p.EndsInBlack d) :=
  inferInstanceAs (Decidable (∀ entry ∈ p.cells, _))

instance (p : Pattern) (d : Place) : Decidable (p.Erases d) := inferInstanceAs (Decidable (_ ∧ _))

instance (p : Pattern) (d : Place) : Decidable (p.Fills d) := inferInstanceAs (Decidable (_ ∧ _))

section Matches

variable {p : Pattern} {image : Grid Nat} {anchor q : Place} {d : Place}

/-- A cell that lies flat has the row ahead over ink, and the row behind over white. -/
theorem LiesFlat.ahead {cell : Cell} (h : p.LiesFlat cell d) (hmatch : p.matchesAt image anchor = true)
    (hq : p.HasOver anchor q cell) {k : Int} (hk : k ∈ sides) :
    Morphology.ink image (Morphology.ahead d k q) ∧ ¬ Morphology.ink image (Morphology.ahead (-d) k q) := by
  obtain ⟨entry, hmem, hplace, hcell⟩ := hq
  obtain ⟨hblack, hwhite⟩ := h entry hmem hcell k hk
  rw [hplace, ← ahead_sub] at hblack hwhite
  exact ⟨HasOver.ink hblack hmatch, HasOver.not_ink hwhite hmatch⟩

/-- A pass that erases keeps the parts of the ink. -/
theorem Erases.retracts (h : p.Erases d) (anchors : List Place) (image : Grid Nat) :
    Retracts (Morphology.ink (p.pass anchors image).1) (Morphology.ink image) := by
  obtain ⟨hd, hwrites, hflat⟩ := h
  have hpass := ink_pass_erase hwrites anchors image
  refine retracts_of_flat hd (fun q hq => ((hpass q).mp hq).1) fun q hq hgone k hk => ?_
  have hhit : p.Hits .erase anchors image q := by
    by_contra hnot
    exact hgone ((hpass q).mpr ⟨hq, hnot⟩)
  obtain ⟨anchor, _, hmatch, hover⟩ := hhit
  obtain ⟨hblack, hwhite⟩ := hflat.ahead hmatch hover hk
  refine ⟨(hpass _).mpr ⟨hblack, ?_⟩, hwhite⟩
  -- a place ahead that is erased as well would need this one to be white
  rintro ⟨anchor', _, hmatch', hover'⟩
  have hbehind := (hflat.ahead hmatch' hover' hk).2
  rw [ahead_neg_ahead] at hbehind
  exact hbehind hq

/-- A pass that fills keeps the parts of the ink. -/
theorem Fills.retracts (h : p.Fills d) (anchors : List Place) (image : Grid Nat) :
    Retracts (Morphology.ink image) (Morphology.ink (p.pass anchors image).1) := by
  obtain ⟨hd, hwrites, hflat, _⟩ := h
  have hpass := ink_pass_fill hwrites anchors image
  refine retracts_of_flat hd (fun q hq => (hpass q).mpr (Or.inl hq)) fun q hq hnew k hk => ?_
  obtain ⟨⟨anchor, _, hmatch, hover⟩, _⟩ := ((hpass q).mp hq).resolve_left hnew
  obtain ⟨hblack, hwhite⟩ := hflat.ahead hmatch hover hk
  refine ⟨hblack, fun hbehind => ?_⟩
  -- a place behind that is filled as well would need this one to be black
  obtain ⟨⟨anchor', _, hmatch', hover'⟩, _⟩ := ((hpass _).mp hbehind).resolve_left hwhite
  have hahead := (hflat.ahead hmatch' hover' hk).1
  have hback := ahead_neg_ahead (-d) k q
  rw [neg_neg] at hback
  exact hnew (hback ▸ hahead)

end Matches

end Pattern

/-- Every place that was filled has black on all its sides but one, which lies behind one of the
directions used. -/
def Propped (used : List Place) (M F : Place → Prop) : Prop :=
  ∀ q, F q → ¬ M q → ∃ d ∈ used, ∀ u ∈ axisSteps, u ≠ -d → F (ahead u 0 q)

/-- Ink that was filled from other ink has the same parts, and touches the other ink everywhere. -/
structure FilledFrom (used : List Place) (M F : Place → Prop) : Prop where
  retracts : Retracts M F
  propped : Propped used M F
  near : ∀ q, F q → ∃ n, M n ∧ Touch q n

/-- Nothing is filled at first. -/
theorem filledFrom_refl (M : Place → Prop) : FilledFrom [] M M :=
  ⟨.refl M, fun _ hq hnot => absurd hq hnot, fun q hq => ⟨q, hq, .refl q⟩⟩

section Filling

variable {used : List Place} {M F : Place → Prop} {d u q : Place}

/-- A black place with white behind in two directions was never filled. -/
theorem Propped.mem_of_two (h : Propped used M F) (hu : u ∈ axisSteps) (hd : d ∈ axisSteps) (hne : u ≠ d)
    (hq : F q) (hwhite : ¬ F (ahead (-u) 0 q)) (hwhite' : ¬ F (ahead (-d) 0 q)) : M q := by
  by_contra hnot
  obtain ⟨e, _, hsides⟩ := h q hq hnot
  have hopen : ∀ v ∈ axisSteps, ¬ F (ahead (-v) 0 q) → v = e := by
    intro v hv hwhite
    by_contra hother
    exact hwhite (hsides (-v) (neg_mem_axisSteps v hv) fun heq => hother (neg_inj.mp heq))
  exact hne ((hopen u hu hwhite).trans (hopen d hd hwhite').symm)

/-- A black place with white behind in a direction not used was never filled. -/
theorem Propped.mem_of_unused (h : Propped used M F) (hd : d ∈ axisSteps) (hunused : d ∉ used) (hq : F q)
    (hwhite : ¬ F (ahead (-d) 0 q)) : M q := by
  by_contra hnot
  obtain ⟨e, he, hsides⟩ := h q hq hnot
  have hopen : d = e := by
    by_contra hother
    exact hwhite (hsides (-d) (neg_mem_axisSteps d hd) fun heq => hother (neg_inj.mp heq))
  exact hunused (hopen ▸ he)

variable {p : Pattern} {image : Grid Nat} {anchor : Place}

/-- What a pattern fills touches ink that was never filled. -/
theorem Propped.near_of_matchesAt (h : Propped used M (ink image)) (hfills : p.Fills d)
    (horder : d ∉ used ∨ p.EndsInBlack d) (hmatch : p.matchesAt image anchor = true)
    (hover : p.HasOver anchor q .fill) (hq : ¬ ink image q) : ∃ n, M n ∧ Touch q n := by
  obtain ⟨hd, _, hflat, _⟩ := hfills
  rcases horder with hunused | hends
  · have hahead := (hflat.ahead hmatch hover (by decide : (0 : Int) ∈ sides)).1
    refine ⟨ahead d 0 q, h.mem_of_unused hd hunused hahead ?_, touch_ahead hd⟩
    rwa [ahead_neg_ahead]
  · obtain ⟨entry, hmem, hplace, hcell⟩ := hover
    obtain ⟨u, hu, hne, hblack, hwhite⟩ := hends entry hmem hcell
    rw [hplace, ← ahead_sub] at hblack
    rw [hplace, ← ahead_sub, ← ahead_sub] at hwhite
    refine ⟨ahead u 0 q, h.mem_of_two hu hd hne (Pattern.HasOver.ink hblack hmatch) ?_
      (Pattern.HasOver.not_ink hwhite hmatch), touch_ahead hu⟩
    rwa [ahead_neg_ahead]

/-- A filled place is propped by the pattern that filled it. -/
theorem Pattern.Fills.ink_beside (h : p.Fills d) {anchors : List Place} (hanchor : anchor ∈ anchors)
    (hmatch : p.matchesAt image anchor = true) (hover : p.HasOver anchor q .fill) (hin : Inside image.size q)
    (hu : u ∈ axisSteps) (hne : u ≠ -d) : ink (p.pass anchors image).1 (ahead u 0 q) := by
  obtain ⟨hd, hwrites, hflat, hprops⟩ := h
  have hmiddle : (0 : Int) ∈ sides := by decide
  rw [Pattern.ink_pass_fill hwrites]
  by_cases hud : u = d
  · rw [hud]
    exact Or.inl (hflat.ahead hmatch hover hmiddle).1
  · obtain ⟨entry, hmem, hplace, hcell⟩ := hover
    have hbeside := hprops entry hmem hcell u hu hne
    rw [hplace, ← ahead_sub] at hbeside
    rcases hbeside with hblack | hfill
    · exact Or.inl (Pattern.HasOver.ink hblack hmatch)
    · have hbase := (hflat.ahead hmatch hfill hmiddle).1
      exact Or.inr ⟨⟨anchor, hanchor, hmatch, hfill⟩, hin.of_ahead hd hu hud hne hbase.inside⟩

/-- A pass that fills goes on filling from the same ink. -/
theorem FilledFrom.pass (h : FilledFrom used M (ink image)) (hfills : p.Fills d)
    (horder : d ∉ used ∨ p.EndsInBlack d) (anchors : List Place) :
    FilledFrom (d :: used) M (ink (p.pass anchors image).1) := by
  have hpass := Pattern.ink_pass_fill hfills.2.1 anchors image
  refine ⟨h.retracts.trans (hfills.retracts anchors image), fun q hq hnot => ?_, fun q hq => ?_⟩
  · rcases (hpass q).mp hq with hold | ⟨⟨anchor, hanchor, hmatch, hover⟩, hin⟩
    · obtain ⟨e, he, hsides⟩ := h.propped q hold hnot
      exact ⟨e, List.mem_cons_of_mem _ he, fun u hu hne => (hpass _).mpr (Or.inl (hsides u hu hne))⟩
    · exact ⟨d, List.mem_cons_self, fun u hu hne => hfills.ink_beside hanchor hmatch hover hin hu hne⟩
  · by_cases hold : ink image q
    · exact h.near q hold
    · obtain ⟨⟨anchor, _, hmatch, hover⟩, _⟩ := ((hpass q).mp hq).resolve_left hold
      exact h.propped.near_of_matchesAt hfills horder hmatch hover hold

end Filling

/-- The passes of some patterns, one after another. -/
def runPasses (patterns : List Pattern) (image : Grid Nat) : Grid Nat :=
  patterns.foldl (fun image p => (p.pass (p.anchors image.size) image).1) image

/-- Each pattern fills, and none with an open side that was open before unless all its runs end in black. -/
def FillInOrder (used : List Place) : List (Pattern × Place) → Prop
  | [] => True
  | (p, d) :: rest => p.Fills d ∧ (d ∉ used ∨ p.EndsInBlack d) ∧ FillInOrder (d :: used) rest

/-- Whether patterns fill in order can be computed. -/
instance decidableFillInOrder (used : List Place) : (passes : List (Pattern × Place)) →
    Decidable (FillInOrder used passes)
  | [] => inferInstanceAs (Decidable True)
  | (p, d) :: rest =>
    haveI := decidableFillInOrder (d :: used) rest
    inferInstanceAs (Decidable (p.Fills d ∧ (d ∉ used ∨ p.EndsInBlack d) ∧ FillInOrder (d :: used) rest))

section Runs

variable {image : Grid Nat}

/-- Passes that erase keep the parts of the ink, and the size. -/
theorem retracts_runPasses (image : Grid Nat) {passes : List (Pattern × Place)}
    (h : ∀ e ∈ passes, e.1.Erases e.2) :
    Retracts (ink (runPasses (passes.map Prod.fst) image)) (ink image) ∧
      (runPasses (passes.map Prod.fst) image).size = image.size := by
  induction passes generalizing image with
  | nil => exact ⟨.refl _, rfl⟩
  | cons e passes ih =>
    have hfirst := h e List.mem_cons_self
    obtain ⟨hrest, hsize⟩ := ih _ fun e' hmem => h e' (List.mem_cons_of_mem _ hmem)
    exact ⟨hrest.trans (hfirst.retracts _ image), hsize.trans (Pattern.size_pass hfirst.2.1 rfl _ image)⟩

/-- Passes that fill in order go on filling from the same ink, and keep the size. -/
theorem FilledFrom.runPasses {used : List Place} {M : Place → Prop} {passes : List (Pattern × Place)}
    (h : FilledFrom used M (ink image)) (horder : FillInOrder used passes) :
    (∃ used', FilledFrom used' M (ink (Morphology.runPasses (passes.map Prod.fst) image))) ∧
      (Morphology.runPasses (passes.map Prod.fst) image).size = image.size := by
  induction passes generalizing image used with
  | nil => exact ⟨⟨used, h⟩, rfl⟩
  | cons e passes ih =>
    obtain ⟨p, d⟩ := e
    obtain ⟨hfills, hfirst, hrest⟩ := horder
    obtain ⟨hfilled, hsize⟩ := ih (h.pass hfills hfirst (p.anchors image.size)) hrest
    exact ⟨hfilled, hsize.trans (Pattern.size_pass hfills.2.1 rfl _ image)⟩

end Runs

/-- A direction after a quarter turn clockwise. -/
def turn (d : Place) : Place := (-d.2, d.1)

/-- The four orientations of a pattern with the directions in which its cells lie flat then. -/
def oriented (p : Pattern) (d : Place) : List (Pattern × Place) :=
  p.orientations.zip [d, turn d, turn (turn d), turn (turn (turn d))]

/-- The passes that erase bumps: the edge lies above a single pixel, and to the left of a longer one. -/
def erasingPasses : List (Pattern × Place) :=
  ((smoothingPatterns.take 3).zip [(0, -1), (-1, 0), (-1, 0)]).flatMap fun (p, d) => oriented p d

/-- The passes that fill notches: the ground lies to the left of a longer one, and below a single pixel. -/
def fillingPasses : List (Pattern × Place) :=
  ((smoothingPatterns.drop 3).zip [(-1, 0), (-1, 0), (0, 1)]).flatMap fun (p, d) => oriented p d

/-- Smoothing first erases and then fills. -/
theorem smoothGrid_eq (image : Grid Nat) : smoothGrid image =
    runPasses (fillingPasses.map Prod.fst) (runPasses (erasingPasses.map Prod.fst) image) := by
  have hpatterns : smoothingPatterns.flatMap Pattern.orientations =
      erasingPasses.map Prod.fst ++ fillingPasses.map Prod.fst := by decide +kernel
  rw [smoothGrid, hpatterns, List.foldl_append]
  rfl

/-- The passes that erase do so where the ink lies flat. -/
theorem erases_erasingPasses : ∀ e ∈ erasingPasses, e.1.Erases e.2 := by decide +kernel

/-- The passes that fill do so in order: the longest notches are filled with each side open once, and shorter ones
end in black. -/
theorem fillInOrder_fillingPasses : FillInOrder [] fillingPasses := by decide +kernel

/-- The ink before and after smoothing comes from common ink, which all ink of the result touches. -/
theorem exists_core_smoothGrid (image : Grid Nat) : (smoothGrid image).size = image.size ∧
    ∃ M, Retracts M (ink image) ∧ Retracts M (ink (smoothGrid image)) ∧
      ∀ q, ink (smoothGrid image) q → ∃ n, M n ∧ Touch q n := by
  rw [smoothGrid_eq]
  obtain ⟨herased, hsize⟩ := retracts_runPasses image erases_erasingPasses
  obtain ⟨⟨used, hfilled⟩, hsize'⟩ := (filledFrom_refl _).runPasses fillInOrder_fillingPasses
  exact ⟨hsize'.trans hsize, _, herased, hfilled.retracts, hfilled.near⟩

end ScannedPage.Morphology
