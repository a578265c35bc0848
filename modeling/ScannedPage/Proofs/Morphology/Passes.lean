import Mathlib.Data.List.Basic
import ScannedPage.Morphology.Smoothing
import ScannedPage.Proofs.Grid
import ScannedPage.Proofs.Morphology.Plane

/-!
# What a pass of a pattern does to the ink

A pattern whose replacements are all of one kind either takes ink away or adds some. One pass of it writes exactly
on the places inside the image that lie under such a cell of the pattern where it matched before the pass
(`Pattern.wordAt_pass`), whatever order the places are visited in.
-/

namespace ScannedPage.Morphology

/-- The place belongs to the image. -/
def Inside (s : Size) (q : Place) : Prop := 0 ≤ q.1 ∧ 0 ≤ q.2 ∧ q.1 < s.width ∧ q.2 < s.height

/-- Whether a place belongs to an image can be computed. -/
instance (s : Size) (q : Place) : Decidable (Inside s q) := inferInstanceAs (Decidable (_ ∧ _))

/-- The black places of an image. -/
def ink (image : Grid Nat) (q : Place) : Prop := isBlackAt image q.1 q.2 = true

/-- The word at a place of the plane, zero outside the image. -/
def wordAt (image : Grid Nat) (q : Place) : Nat :=
  if 0 ≤ q.1 ∧ 0 ≤ q.2 then image.getD q.1.toNat q.2.toNat 0 else 0

/-- A place of an image is a position of its grid. -/
theorem Inside.contains {s : Size} {q : Place} (h : Inside s q) : s.Contains q.1.toNat q.2.toNat := by
  simp only [Inside] at h
  simp only [Size.Contains]
  omega

/-- Inside the image the word of the grid is read. -/
theorem Inside.wordAt_eq {image : Grid Nat} {q : Place} (h : Inside image.size q) :
    wordAt image q = image.getD q.1.toNat q.2.toNat 0 := if_pos ⟨h.1, h.2.1⟩

/-- At a position of the grid its word is read. -/
theorem wordAt_natCast (image : Grid Nat) (x y : Nat) : wordAt image (x, y) = image.getD x y 0 :=
  if_pos ⟨Int.natCast_nonneg _, Int.natCast_nonneg _⟩

/-- Outside of the image there is nothing to be read. -/
theorem wordAt_of_not_inside {image : Grid Nat} {q : Place} (h : ¬ Inside image.size q) : wordAt image q = 0 := by
  rw [wordAt]
  split
  · refine Grid.getD_of_not_contains ?_ 0
    simp only [Inside] at h
    simp only [Size.Contains]
    omega
  · rfl

/-- A place is black when its word is not zero. -/
theorem isBlackAt_eq (image : Grid Nat) (q : Place) : isBlackAt image q.1 q.2 = (wordAt image q != 0) := by
  rw [isBlackAt, wordAt]
  split <;> rfl

/-- Ink is where the words are not zero. -/
theorem ink_iff {image : Grid Nat} {q : Place} : ink image q ↔ wordAt image q ≠ 0 := by
  rw [ink, isBlackAt_eq, bne_iff_ne]

/-- Ink lies inside the image. -/
theorem ink.inside {image : Grid Nat} {q : Place} (h : ink image q) : Inside image.size q := by
  by_contra hout
  exact ink_iff.mp h (wordAt_of_not_inside hout)

/-- Images of one size with the same words on the plane are equal. -/
theorem ext_wordAt {image image' : Grid Nat} (hsize : image.size = image'.size)
    (h : ∀ q, wordAt image q = wordAt image' q) : image = image' :=
  Grid.ext_getD hsize 0 fun x y _ => by rw [← wordAt_natCast, h, wordAt_natCast]

/-- A word set at a place inside is read there, and the other readings stay. -/
theorem wordAt_set {image : Grid Nat} {p : Place} (hp : Inside image.size p) (word : Nat) (q : Place) :
    wordAt (image.set p.1.toNat p.2.toNat word) q = if q = p then word else wordAt image q := by
  by_cases hq : q = p
  · subst hq
    rw [if_pos rfl, wordAt, if_pos ⟨hp.1, hp.2.1⟩, Grid.getD_set, if_pos ⟨rfl, rfl, hp.contains⟩]
  · rw [if_neg hq, wordAt, wordAt]
    split
    · rw [Grid.getD_set, if_neg]
      rintro ⟨hx, hy, _⟩
      simp only [Inside] at hp
      exact hq (Prod.ext (by omega) (by omega))
    · rfl

/-- Writes one word at several places. -/
def paint (word : Nat) (state : Grid Nat × Nat) (places : List Place) : Grid Nat × Nat :=
  places.foldl (fun state q => replaceWord state q.1 q.2 word) state

section Writing

variable (word : Nat) (state : Grid Nat × Nat)

/-- A word is written and counted if its place lies inside and has another one; otherwise nothing happens. -/
theorem replaceWord_cases (p : Place) :
    (Inside state.1.size p → state.1.getD p.1.toNat p.2.toNat 0 = word) ∧ replaceWord state p.1 p.2 word = state ∨
    Inside state.1.size p ∧ state.1.getD p.1.toNat p.2.toNat 0 ≠ word ∧
      replaceWord state p.1 p.2 word = (state.1.set p.1.toNat p.2.toNat word, state.2 + 1) := by
  by_cases hp : Inside state.1.size p
  · have hguard : 0 ≤ p.1 ∧ 0 ≤ p.2 ∧ p.1 < state.1.size.width ∧ p.2 < state.1.size.height := hp
    by_cases hsame : state.1.getD p.1.toNat p.2.toNat 0 = word
    · exact Or.inl ⟨fun _ => hsame, by simp only [replaceWord, if_pos hguard, if_pos hsame]⟩
    · exact Or.inr ⟨hp, hsame, by simp only [replaceWord, if_pos hguard, if_neg hsame]⟩
  · have hguard : ¬ (0 ≤ p.1 ∧ 0 ≤ p.2 ∧ p.1 < state.1.size.width ∧ p.2 < state.1.size.height) := hp
    exact Or.inl ⟨fun hin => absurd hin hp, by simp only [replaceWord, if_neg hguard]⟩

/-- Writing a word keeps the size. -/
theorem size_replaceWord (p : Place) : (replaceWord state p.1 p.2 word).1.size = state.1.size := by
  rcases replaceWord_cases word state p with ⟨_, heq⟩ | ⟨_, _, heq⟩
  · rw [heq]
  · rw [heq, Grid.size_set]

/-- A word written at a place inside is read there, and the other readings stay. -/
theorem wordAt_replaceWord (p q : Place) : wordAt (replaceWord state p.1 p.2 word).1 q =
    if q = p ∧ Inside state.1.size q then word else wordAt state.1 q := by
  rcases replaceWord_cases word state p with ⟨hsame, heq⟩ | ⟨hp, _, heq⟩
  · rw [heq]
    split
    · next hq =>
      obtain ⟨rfl, hin⟩ := hq
      rw [hin.wordAt_eq, hsame hin]
    · rfl
  · rw [heq, wordAt_set hp]
    by_cases hq : q = p
    · rw [if_pos hq, if_pos ⟨hq, hq ▸ hp⟩]
    · rw [if_neg hq, if_neg fun h => hq h.1]

/-- Painting keeps the size. -/
theorem size_paint (places : List Place) : (paint word state places).1.size = state.1.size := by
  induction places generalizing state with
  | nil => rfl
  | cons p places ih => exact (ih _).trans (size_replaceWord word state p)

/-- Painted places inside have the word, and the others are as they were. -/
theorem wordAt_paint (places : List Place) (q : Place) : wordAt (paint word state places).1 q =
    if q ∈ places ∧ Inside state.1.size q then word else wordAt state.1 q := by
  induction places generalizing state with
  | nil => simp [paint]
  | cons p places ih =>
    have hrest := ih (replaceWord state p.1 p.2 word)
    rw [size_replaceWord, wordAt_replaceWord] at hrest
    refine hrest.trans ?_
    by_cases hin : Inside state.1.size q
    · by_cases hmem : q ∈ places
      · simp [hin, hmem]
      · simp [hin, hmem]
    · simp [hin]

end Writing

namespace Pattern

/-- The pattern has a cell of a kind at a place of its box. -/
def Has (p : Pattern) (place : Place) (cell : Cell) : Prop :=
  ∃ entry ∈ p.cells, ((entry.1 : Int), (entry.2.1 : Int)) = place ∧ entry.2.2 = cell

/-- Whether a pattern has a cell can be computed. -/
instance (p : Pattern) (place : Place) (cell : Cell) : Decidable (p.Has place cell) :=
  inferInstanceAs (Decidable (∃ entry ∈ p.cells, _))

/-- Only one kind of cells writes anything. -/
def WritesOnly (p : Pattern) (cell : Cell) : Prop :=
  ∀ entry ∈ p.cells, entry.2.2.replacement = none ∨ entry.2.2 = cell

/-- Whether only one kind of cells writes can be computed. -/
instance (p : Pattern) (cell : Cell) : Decidable (p.WritesOnly cell) :=
  inferInstanceAs (Decidable (∀ entry ∈ p.cells, _))

/-- The pattern has a cell of a kind over a place when it lies at an anchor. -/
def HasOver (p : Pattern) (anchor q : Place) (cell : Cell) : Prop := p.Has (q.1 - anchor.1, q.2 - anchor.2) cell

/-- The pattern matches somewhere among the anchors with a cell of a kind over a place. -/
def Hits (p : Pattern) (cell : Cell) (anchors : List Place) (image : Grid Nat) (q : Place) : Prop :=
  ∃ anchor ∈ anchors, p.matchesAt image anchor = true ∧ p.HasOver anchor q cell

/-- The places under the cells of one kind when the pattern lies at an anchor. -/
def under (p : Pattern) (cell : Cell) (anchor : Place) : List Place :=
  (p.cells.filter fun entry => entry.2.2 = cell).map fun entry => (anchor.1 + entry.1, anchor.2 + entry.2.1)

section Pass

variable {p : Pattern} {cell : Cell} {word : Nat}

/-- A place lies under a cell exactly if the pattern has the cell there. -/
theorem mem_under {anchor q : Place} :
    q ∈ p.under cell anchor ↔ p.HasOver anchor q cell := by
  simp only [under, HasOver, Has, List.mem_map, List.mem_filter, decide_eq_true_eq, Prod.ext_iff]
  constructor
  · rintro ⟨entry, ⟨hmem, hcell⟩, hx, hy⟩
    exact ⟨entry, hmem, ⟨by omega, by omega⟩, hcell⟩
  · rintro ⟨entry, hmem, ⟨hx, hy⟩, hcell⟩
    exact ⟨entry, ⟨hmem, hcell⟩, by omega, by omega⟩

/-- Writing cell by cell paints the places under the writing cells. -/
theorem foldl_cells_eq_paint (hword : cell.replacement = some word) (anchor : Place)
    (cells : List (Nat × Nat × Cell))
    (hwrites : ∀ entry ∈ cells, entry.2.2.replacement = none ∨ entry.2.2 = cell) (state : Grid Nat × Nat) :
    cells.foldl (fun state (i, j, kind) => match kind.replacement with
      | some word => replaceWord state (anchor.1 + i) (anchor.2 + j) word
      | none => state) state =
    paint word state ((cells.filter fun entry => entry.2.2 = cell).map fun entry =>
      (anchor.1 + entry.1, anchor.2 + entry.2.1)) := by
  induction cells generalizing state with
  | nil => rfl
  | cons entry cells ih =>
    obtain ⟨i, j, kind⟩ := entry
    rw [List.foldl_cons, ih fun entry hmem => hwrites entry (List.mem_cons_of_mem _ hmem)]
    by_cases hkind : kind = cell
    · simp only [List.filter_cons, hkind, decide_true, if_true, List.map_cons, hword]
      rfl
    · have hnone : kind.replacement = none := (hwrites _ List.mem_cons_self).resolve_right hkind
      simp only [List.filter_cons, hkind, decide_false, Bool.false_eq_true, if_false, hnone]

/-- At an anchor where it matches, a pattern paints the places under its writing cells. -/
theorem replaceAt_of_matchesAt (hwrites : p.WritesOnly cell) (hword : cell.replacement = some word)
    {before : Grid Nat} {anchor : Place} (h : p.matchesAt before anchor = true) (state : Grid Nat × Nat) :
    p.replaceAt before state anchor = paint word state (p.under cell anchor) := by
  rw [replaceAt, if_pos h]
  exact foldl_cells_eq_paint hword anchor p.cells hwrites state

/-- A pass paints the places that the pattern hits. -/
theorem pass_eq (hwrites : p.WritesOnly cell) (hword : cell.replacement = some word) (anchors : List Place)
    (image : Grid Nat) : p.pass anchors image =
      paint word (image, 0) ((anchors.filter (p.matchesAt image)).flatMap (p.under cell)) := by
  have hfold (anchors : List Place) (state : Grid Nat × Nat) : anchors.foldl (p.replaceAt image) state =
      paint word state ((anchors.filter (p.matchesAt image)).flatMap (p.under cell)) := by
    induction anchors generalizing state with
    | nil => rfl
    | cons anchor anchors ih =>
      rw [List.foldl_cons, ih]
      by_cases hmatch : p.matchesAt image anchor = true
      · rw [replaceAt_of_matchesAt hwrites hword hmatch, List.filter_cons_of_pos hmatch, List.flatMap_cons, paint,
          paint, paint, List.foldl_append]
      · rw [replaceAt, if_neg hmatch, List.filter_cons_of_neg hmatch]
  exact hfold anchors (image, 0)

open Classical in
/-- After a pass the places inside that were hit have the word, and the others are as they were. -/
theorem wordAt_pass (hwrites : p.WritesOnly cell) (hword : cell.replacement = some word) (anchors : List Place)
    (image : Grid Nat) (q : Place) : wordAt (p.pass anchors image).1 q =
      if p.Hits cell anchors image q ∧ Inside image.size q then word else wordAt image q := by
  have hhits : q ∈ (anchors.filter (p.matchesAt image)).flatMap (p.under cell) ↔ p.Hits cell anchors image q := by
    simp only [List.mem_flatMap, List.mem_filter, mem_under, Hits, and_assoc]
  rw [pass_eq hwrites hword, wordAt_paint]
  simp only [hhits]

/-- A pass keeps the size. -/
theorem size_pass (hwrites : p.WritesOnly cell) (hword : cell.replacement = some word) (anchors : List Place)
    (image : Grid Nat) : (p.pass anchors image).1.size = image.size := by
  rw [pass_eq hwrites hword, size_paint]

/-- A pass that erases leaves the ink that it does not hit. -/
theorem ink_pass_erase (hwrites : p.WritesOnly .erase) (anchors : List Place) (image : Grid Nat) (q : Place) :
    ink (p.pass anchors image).1 q ↔ ink image q ∧ ¬ p.Hits .erase anchors image q := by
  rw [ink_iff, wordAt_pass hwrites rfl, ink_iff]
  split
  · next hhit => exact iff_of_false (fun h => h rfl) fun h => h.2 hhit.1
  · next hmiss =>
    refine ⟨fun h => ⟨h, fun hhit => hmiss ⟨hhit, ?_⟩⟩, And.left⟩
    exact ink.inside (ink_iff.mpr h)

/-- A pass that fills adds the places inside that it hits. -/
theorem ink_pass_fill (hwrites : p.WritesOnly .fill) (anchors : List Place) (image : Grid Nat) (q : Place) :
    ink (p.pass anchors image).1 q ↔ ink image q ∨ p.Hits .fill anchors image q ∧ Inside image.size q := by
  rw [ink_iff, wordAt_pass hwrites rfl, ink_iff]
  split
  · next hhit => exact iff_of_true Nat.one_ne_zero (Or.inr hhit)
  · next hmiss => exact (or_iff_left hmiss).symm

end Pass

section Matching

variable {p : Pattern} {image : Grid Nat} {anchor q : Place}

/-- Where a pattern matches, each of its cells accepts the pixel under it. -/
theorem HasOver.accepts {cell : Cell} (h : p.HasOver anchor q cell) (hmatch : p.matchesAt image anchor = true) :
    cell.accepts (isBlackAt image q.1 q.2) = true := by
  obtain ⟨⟨i, j, kind⟩, hmem, hplace, rfl⟩ := h
  have haccepts : kind.accepts (isBlackAt image (anchor.1 + i) (anchor.2 + j)) = true :=
    List.all_eq_true.mp hmatch _ hmem
  have hx : anchor.1 + i = q.1 := by
    have := congrArg Prod.fst hplace
    simp only at this
    omega
  have hy : anchor.2 + j = q.2 := by
    have := congrArg Prod.snd hplace
    simp only at this
    omega
  rwa [hx, hy] at haccepts

/-- A black cell of a pattern that matches lies over ink. -/
theorem HasOver.ink (h : p.HasOver anchor q .black) (hmatch : p.matchesAt image anchor = true) :
    Morphology.ink image q := h.accepts hmatch

/-- A cell of a pattern that matches does not lie over ink if it refuses black pixels. -/
theorem HasOver.not_ink_of_refuses {cell : Cell} (h : p.HasOver anchor q cell)
    (hmatch : p.matchesAt image anchor = true)
    (hcell : cell.accepts true = false) : ¬ Morphology.ink image q := by
  intro hink
  have haccepts := h.accepts hmatch
  rw [show isBlackAt image q.1 q.2 = true from hink, hcell] at haccepts
  exact Bool.false_ne_true haccepts

/-- A white cell of a pattern that matches does not lie over ink. -/
theorem HasOver.not_ink (h : p.HasOver anchor q .white) (hmatch : p.matchesAt image anchor = true) :
    ¬ Morphology.ink image q := h.not_ink_of_refuses hmatch rfl

end Matching

end Pattern

end ScannedPage.Morphology
