import ScannedPage.Proofs.Counting
import ScannedPage.Proofs.Morphology.Passes

/-!
# A pass replaces everything at once

A placement of a pattern lies anywhere in the plane. It strikes the places under its cells of a kind when it
matches, and a replacement of the whole plane at once is told by what is struck before it (`Pattern.Replaces`):
struck by an erasing cell a black place turns white, struck by a filling cell a white place turns black, and all
others stay. No place is struck by both, as it cannot be of both colours, so there is only one image that this can
lead to (`Pattern.Replaces.unique`).

A pass of a smoothing pattern visits its anchors one after another and writes into the image as it goes. It comes
to that image in whatever order it visits them, and counts the pixels that it has changed (`pass_at_once`). The
anchors are enough, because a placement that they leave out lies outside of the image altogether, and a placement
that hangs over the border fills nothing beyond it, since every filling cell has black cells on both sides of it
(`Pattern.Encloses`).
-/

namespace ScannedPage.Morphology

/-- The positions at which a grid differs from another of its size. -/
def changes (before after : Grid Nat) : Finset (Nat × Nat) :=
  before.size.positions.filter fun q => before.getD q.1 q.2 0 ≠ after.getD q.1 q.2 0

section Changes

variable {before after : Grid Nat}

/-- Nothing differs from itself. -/
theorem changes_self (image : Grid Nat) : changes image image = ∅ :=
  Finset.filter_eq_empty_iff.mpr fun _ _ hne => hne rfl

/-- A place inside whose word is written on the way to another grid that has this word differed from it before, and
does not any more. -/
theorem card_changes_set {x y word : Nat} (hxy : before.size.Contains x y) (hold : before.getD x y 0 ≠ word)
    (hnew : after.getD x y 0 = word) :
    (changes before after).card = (changes (before.set x y word) after).card + 1 := by
  have hnotin : (x, y) ∉ changes (before.set x y word) after := by
    rw [changes, Finset.mem_filter, Grid.getD_set, if_pos ⟨rfl, rfl, hxy⟩]
    exact fun h => h.2 hnew.symm
  have hinsert : changes before after = insert (x, y) (changes (before.set x y word) after) := by
    ext ⟨x', y'⟩
    simp only [changes, Grid.size_set, Finset.mem_insert, Finset.mem_filter, Size.mem_positions, Grid.getD_set,
      Prod.mk.injEq]
    by_cases hsame : x' = x ∧ y' = y
    · obtain ⟨rfl, rfl⟩ := hsame
      simp [hxy, hnew, hold]
    · have hother : ¬ (x' = x ∧ y' = y ∧ before.size.Contains x y) := fun h => hsame ⟨h.1, h.2.1⟩
      rw [if_neg hother]
      simp [hsame]
  rw [hinsert, Finset.card_insert_of_notMem hnotin]

/-- Painting counts the pixels that differ in the end. -/
theorem count_paint (word : Nat) (places : List Place) (state : Grid Nat × Nat) :
    (paint word state places).2 = state.2 + (changes state.1 (paint word state places).1).card := by
  induction places generalizing state with
  | nil => rw [paint, List.foldl_nil, changes_self, Finset.card_empty, Nat.add_zero]
  | cons p places ih =>
    have hfinal : paint word state (p :: places) = paint word (replaceWord state p.1 p.2 word) places := rfl
    rw [hfinal, ih]
    rcases replaceWord_cases word state p with ⟨_, heq⟩ | ⟨hp, hne, heq⟩
    · rw [heq]
    · have hafter : (paint word (replaceWord state p.1 p.2 word) places).1.getD p.1.toNat p.2.toNat 0 = word := by
        rw [← Inside.wordAt_eq (by rwa [size_paint, size_replaceWord]), wordAt_paint, wordAt_replaceWord,
          if_pos (show p = p ∧ Inside state.1.size p from ⟨rfl, hp⟩), ite_self]
      have hcard := card_changes_set hp.contains hne hafter
      simp only [heq] at hcard ⊢
      omega

end Changes

namespace Pattern

/-- The pattern matches somewhere in the plane with a cell of a kind over a place. -/
def Strikes (p : Pattern) (cell : Cell) (image : Grid Nat) (q : Place) : Prop :=
  ∃ anchor : Place, p.matchesAt image anchor = true ∧ p.HasOver anchor q cell

/-- An image comes from another by replacing at once what the pattern strikes. -/
structure Replaces (p : Pattern) (before after : Grid Nat) : Prop where
  size : after.size = before.size
  erased_iff : ∀ q, ink before q ∧ wordAt after q = 0 ↔ p.Strikes .erase before q
  filled_iff : ∀ q, ¬ ink before q ∧ wordAt after q = 1 ↔ p.Strikes .fill before q
  kept : ∀ q, ¬ p.Strikes .erase before q → ¬ p.Strikes .fill before q → wordAt after q = wordAt before q

/-- A replacement at once leads to one image only. -/
theorem Replaces.unique {p : Pattern} {before after after' : Grid Nat} (h : p.Replaces before after)
    (h' : p.Replaces before after') : after = after' := by
  refine ext_wordAt (h.size.trans h'.size.symm) fun q => ?_
  by_cases herase : p.Strikes .erase before q
  · rw [((h.erased_iff q).mpr herase).2, ((h'.erased_iff q).mpr herase).2]
  · by_cases hfill : p.Strikes .fill before q
    · rw [((h.filled_iff q).mpr hfill).2, ((h'.filled_iff q).mpr hfill).2]
    · rw [h.kept q herase hfill, h'.kept q herase hfill]

/-- Every cell lies in the box of the pattern. -/
def Boxed (p : Pattern) : Prop := ∀ entry ∈ p.cells, entry.1 < p.width ∧ entry.2.1 < p.height

/-- Every filling cell lies between two black cells of its row or of its column. -/
def Encloses (p : Pattern) : Prop :=
  ∀ entry ∈ p.cells, entry.2.2 = .fill → ∃ a ∈ p.cells, ∃ b ∈ p.cells, a.2.2 = .black ∧ b.2.2 = .black ∧
    (a.1 = entry.1 ∧ entry.1 = b.1 ∧ a.2.1 < entry.2.1 ∧ entry.2.1 < b.2.1 ∨
      a.2.1 = entry.2.1 ∧ entry.2.1 = b.2.1 ∧ a.1 < entry.1 ∧ entry.1 < b.1)

/-- The pattern lies in its box, writes cells of one kind only, and fills nothing at its edge. -/
def Regular (p : Pattern) : Prop := p.Boxed ∧ (p.WritesOnly .erase ∨ p.WritesOnly .fill) ∧ p.Encloses

instance (p : Pattern) : Decidable p.Boxed := inferInstanceAs (Decidable (∀ entry ∈ p.cells, _))

instance (p : Pattern) : Decidable p.Encloses := inferInstanceAs (Decidable (∀ entry ∈ p.cells, _))

instance (p : Pattern) : Decidable p.Regular := inferInstanceAs (Decidable (_ ∧ _))

section Placements

variable {p : Pattern} {image : Grid Nat} {cell : Cell} {anchor q : Place}

/-- What is erased was black. -/
theorem Strikes.ink (h : p.Strikes .erase image q) : Morphology.ink image q := by
  obtain ⟨anchor, hmatch, hover⟩ := h
  exact hover.accepts hmatch

/-- What is filled was white. -/
theorem Strikes.not_ink (h : p.Strikes .fill image q) : ¬ Morphology.ink image q := by
  obtain ⟨anchor, hmatch, hover⟩ := h
  exact hover.not_ink_of_refuses hmatch rfl

/-- The anchors of an image are those at which the box of the pattern meets it. -/
theorem mem_anchors_iff {s : Size} (hwidth : 0 < p.width) (hheight : 0 < p.height) : anchor ∈ p.anchors s ↔
    0 < anchor.1 + p.width ∧ anchor.1 < s.width ∧ 0 < anchor.2 + p.height ∧ anchor.2 < s.height := by
  simp only [anchors, List.mem_flatMap, List.mem_map, List.mem_range]
  constructor
  · rintro ⟨j, hj, i, hi, rfl⟩
    simp only [Int.ofNat_eq_natCast]
    omega
  · intro h
    refine ⟨(anchor.2 + (p.height - 1 : Nat)).toNat, by omega,
      (anchor.1 + (p.width - 1 : Nat)).toNat, by omega, ?_⟩
    exact Prod.ext (by simp only [Int.ofNat_eq_natCast]; omega) (by simp only [Int.ofNat_eq_natCast]; omega)

/-- A placement with a cell over a place inside the image has its anchor among those of the image. -/
theorem HasOver.mem_anchors (h : p.HasOver anchor q cell) (hboxed : p.Boxed) {s : Size} (hq : Inside s q) :
    anchor ∈ p.anchors s := by
  obtain ⟨⟨i, j, kind⟩, hmem, hplace, _⟩ := h
  obtain ⟨hi, hj⟩ := hboxed _ hmem
  obtain ⟨hx, hy⟩ := Prod.ext_iff.mp hplace
  simp only [Inside] at hq hi hj hx hy
  rw [mem_anchors_iff (Nat.zero_lt_of_lt hi) (Nat.zero_lt_of_lt hj)]
  omega

/-- Inside the image, the places that a pass hits are those that the pattern strikes anywhere. -/
theorem hits_iff_strikes (hboxed : p.Boxed) {anchors : List Place}
    (hanchors : ∀ anchor, anchor ∈ anchors ↔ anchor ∈ p.anchors image.size) (hq : Inside image.size q) :
    p.Hits cell anchors image q ↔ p.Strikes cell image q := by
  constructor
  · rintro ⟨anchor, _, hmatch, hover⟩
    exact ⟨anchor, hmatch, hover⟩
  · rintro ⟨anchor, hmatch, hover⟩
    exact ⟨anchor, (hanchors anchor).mpr (hover.mem_anchors hboxed hq), hmatch, hover⟩

/-- Nothing is filled outside of the image. -/
theorem Strikes.inside (h : p.Strikes .fill image q) (hencloses : p.Encloses) : Inside image.size q := by
  obtain ⟨anchor, hmatch, ⟨entry, hmem, hplace, hcell⟩⟩ := h
  obtain ⟨a, ha, b, hb, hablack, hbblack, hbetween⟩ := hencloses entry hmem hcell
  have hblack (e : Nat × Nat × Cell) (he : e ∈ p.cells) (heblack : e.2.2 = .black) :
      Inside image.size (anchor.1 + e.1, anchor.2 + e.2.1) := by
    have hover : p.HasOver anchor (anchor.1 + e.1, anchor.2 + e.2.1) .black :=
      ⟨e, he, Prod.ext (by simp only; omega) (by simp only; omega), heblack⟩
    exact (hover.ink hmatch).inside
  have hfirst := hblack a ha hablack
  have hlast := hblack b hb hbblack
  obtain ⟨hx, hy⟩ := Prod.ext_iff.mp hplace
  simp only [Inside] at hfirst hlast hx hy ⊢
  omega

/-- A pattern that writes cells of one kind strikes with no other. -/
theorem WritesOnly.not_strikes {other : Cell} (h : p.WritesOnly cell) (hne : other ≠ cell)
    (hwrites : other.replacement ≠ none) : ¬ p.Strikes other image q := by
  rintro ⟨anchor, _, entry, hmem, _, rfl⟩
  exact (h entry hmem).elim hwrites hne

end Placements

section Pass

variable {p : Pattern} {image : Grid Nat} {anchors : List Place}

/-- An image in which every struck place has been written, and no other, comes from the one before at once. -/
theorem replaces_of_words {after : Grid Nat} (hsize : after.size = image.size)
    (herased : ∀ q, p.Strikes .erase image q → wordAt after q = 0)
    (hfilled : ∀ q, p.Strikes .fill image q → wordAt after q = 1)
    (hkept : ∀ q, ¬ p.Strikes .erase image q → ¬ p.Strikes .fill image q → wordAt after q = wordAt image q) :
    p.Replaces image after where
  size := hsize
  erased_iff q := by
    refine ⟨fun ⟨hink, hwhite⟩ => ?_, fun h => ⟨h.ink, herased q h⟩⟩
    by_contra herase
    have hword := hkept q herase fun hfill => hfill.not_ink hink
    exact ink_iff.mp hink (hword ▸ hwhite)
  filled_iff q := by
    refine ⟨fun ⟨hwhite, hblack⟩ => ?_, fun h => ⟨h.not_ink, hfilled q h⟩⟩
    by_contra hfill
    have hword := hkept q (fun herase => hwhite herase.ink) hfill
    refine hwhite (ink_iff.mpr ?_)
    rw [← hword, hblack]
    exact Nat.one_ne_zero
  kept := hkept

open Classical in
/-- A pass writes on the places that its pattern strikes, if these lie inside the image, and on no other. -/
theorem wordAt_pass_of_strikes {cell : Cell} {word : Nat} (hboxed : p.Boxed) (hwrites : p.WritesOnly cell)
    (hword : cell.replacement = some word) (hinside : ∀ q, p.Strikes cell image q → Inside image.size q)
    (hanchors : ∀ anchor, anchor ∈ anchors ↔ anchor ∈ p.anchors image.size) (q : Place) :
    wordAt (p.pass anchors image).1 q = if p.Strikes cell image q then word else wordAt image q := by
  rw [wordAt_pass hwrites hword]
  by_cases hin : Inside image.size q
  · simp only [hits_iff_strikes hboxed hanchors hin, hin, and_true]
  · rw [if_neg fun hhit => hin hhit.2, if_neg fun hstrike => hin (hinside q hstrike)]

/-- A pass of a regular pattern replaces at once, whatever the order of its anchors. -/
theorem Regular.replaces (h : p.Regular)
    (hanchors : ∀ anchor, anchor ∈ anchors ↔ anchor ∈ p.anchors image.size) :
    p.Replaces image (p.pass anchors image).1 := by
  obtain ⟨hboxed, hwrites, hencloses⟩ := h
  rcases hwrites with herases | hfills
  · have hnever (q : Place) : ¬ p.Strikes .fill image q := herases.not_strikes (by decide) (by decide)
    have hword := wordAt_pass_of_strikes hboxed herases rfl (fun _ hstrike => hstrike.ink.inside) hanchors
    refine replaces_of_words (size_pass herases rfl anchors image) (fun q hstrike => ?_)
      (fun q hstrike => absurd hstrike (hnever q)) fun q hmiss _ => ?_
    · rw [hword, if_pos hstrike]
    · rw [hword, if_neg hmiss]
  · have hnever (q : Place) : ¬ p.Strikes .erase image q := hfills.not_strikes (by decide) (by decide)
    have hword := wordAt_pass_of_strikes hboxed hfills rfl (fun _ hstrike => hstrike.inside hencloses) hanchors
    refine replaces_of_words (size_pass hfills rfl anchors image) (fun q hstrike => absurd hstrike (hnever q))
      (fun q hstrike => ?_) fun q _ hmiss => ?_
    · rw [hword, if_pos hstrike]
    · rw [hword, if_neg hmiss]

/-- A pass of a regular pattern counts the pixels that it has changed. -/
theorem Regular.count_pass (h : p.Regular) (anchors : List Place) (image : Grid Nat) :
    (p.pass anchors image).2 = (changes image (p.pass anchors image).1).card := by
  have hcount {cell : Cell} {word : Nat} (hwrites : p.WritesOnly cell) (hword : cell.replacement = some word) :
      (p.pass anchors image).2 = (changes image (p.pass anchors image).1).card := by
    rw [pass_eq hwrites hword, count_paint, Nat.zero_add]
  exact h.2.1.elim (fun hwrites => hcount hwrites rfl) fun hwrites => hcount hwrites rfl

end Pass

end Pattern

/-- All smoothing patterns are regular in every orientation. -/
theorem regular_orientations : ∀ p ∈ smoothingPatterns.flatMap Pattern.orientations, p.Regular := by decide +kernel

/-- Each smoothing pass is a simultaneous replacement. For every image, each smoothing pattern in each orientation
and any order of its anchors, a pixel turns white exactly if a placement that matches the image before the pass has
an erasing cell on it, and black exactly if one has a filling cell on it; all others stay. The result is the same
for all orders, and the number returned is that of the pixels that differ. -/
theorem pass_at_once {p : Pattern} (hp : p ∈ smoothingPatterns.flatMap Pattern.orientations) (image : Grid Nat)
    {anchors : List Place} (horder : anchors.Perm (p.anchors image.size)) :
    p.Replaces image (p.pass anchors image).1 ∧ p.pass anchors image = p.pass (p.anchors image.size) image ∧
      (p.pass anchors image).2 = (changes image (p.pass anchors image).1).card := by
  have hregular := regular_orientations p hp
  have hreplaces : p.Replaces image (p.pass anchors image).1 := hregular.replaces fun _ => horder.mem_iff
  have hstandard : p.Replaces image (p.pass (p.anchors image.size) image).1 := hregular.replaces fun _ => Iff.rfl
  have hsame := hreplaces.unique hstandard
  refine ⟨hreplaces, Prod.ext hsame ?_, hregular.count_pass anchors image⟩
  rw [hregular.count_pass, hregular.count_pass, hsame]

/-- A bump below a bar at the lower border is erased by a placement that hangs over it, also when the anchors are
visited backwards. -/
theorem pass_at_once_backwards :
    let p : Pattern := .ofRows [[.black, .black, .black], [.white, .erase, .white], [.white, .white, .white]]
    let image : Grid Nat := ⟨⟨3, 2, by decide, by decide⟩, #[1, 1, 1, 0, 1, 0], rfl⟩
    let backwards := (p.anchors image.size).reverse
    p ∈ smoothingPatterns.flatMap Pattern.orientations ∧ backwards.Perm (p.anchors image.size) ∧
      p.Replaces image (p.pass backwards image).1 ∧ (p.pass backwards image).1.cells = #[1, 1, 1, 0, 0, 0] ∧
      p.pass backwards image = p.pass (p.anchors image.size) image ∧ (p.pass backwards image).2 = 1 := by
  intro p image backwards
  have hp : p ∈ smoothingPatterns.flatMap Pattern.orientations := by decide +kernel
  have horder : backwards.Perm (p.anchors image.size) := List.reverse_perm _
  obtain ⟨hreplaces, hsame, _⟩ := pass_at_once hp image horder
  exact ⟨hp, horder, hreplaces, by decide +kernel, hsame, by decide +kernel⟩

end ScannedPage.Morphology
