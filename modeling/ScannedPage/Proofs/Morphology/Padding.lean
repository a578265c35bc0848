import ScannedPage.Proofs.Morphology
import ScannedPage.Proofs.Morphology.Replacement
import ScannedPage.Proofs.Morphology.Smoothing

/-!
# Smoothing on a wider page

White rows and columns around an image move its ink in the plane and change nothing else (`wordAt_pad`). What a
pattern strikes moves along (`Pattern.strikes_pad`), and so does the one image that a replacement leads to. Each
pass therefore makes of the wider image the wider result, and so do all passes together: an edge at the border of a
page is smoothed as it would be on an infinite white plane, and no pass ever lets ink out of the page
(`smoothEdges_pad`).
-/

namespace ScannedPage

/-- How many rows and columns are added on each side. -/
structure Margins where
  left : Nat
  top : Nat
  right : Nat
  bottom : Nat

/-- The size of an image with margins. -/
def Size.pad (s : Size) (m : Margins) : Size where
  width := m.left + s.width + m.right
  height := m.top + s.height + m.bottom
  width_pos := by have := s.width_pos; omega
  height_pos := by have := s.height_pos; omega

/-- The grid with zero words in its margins. -/
def Grid.pad (g : Grid Nat) (m : Margins) : Grid Nat :=
  Grid.ofFn (g.size.pad m) fun x y =>
    if m.left ≤ x ∧ m.top ≤ y then g.getD (x - m.left) (y - m.top) 0 else 0

/-- The page with margins of zero words, which are white on a bilevel page. -/
def Raster.pad (r : Raster) (m : Margins) : Raster := { r with pixels := r.pixels.pad m }

/-- Where a place of the plane lies as seen from the image within the margins. -/
def Margins.inner (m : Margins) (q : Int × Int) : Int × Int := (q.1 - m.left, q.2 - m.top)

namespace Morphology

section Margin

variable (g : Grid Nat) (m : Margins)

/-- Margins move the image in the plane. -/
theorem wordAt_pad (q : Place) : wordAt (g.pad m) q = wordAt g (m.inner q) := by
  by_cases hq : Inside (g.size.pad m) q
  · have hread : wordAt (g.pad m) q = if m.left ≤ q.1.toNat ∧ m.top ≤ q.2.toNat then
        g.getD (q.1.toNat - m.left) (q.2.toNat - m.top) 0 else 0 := by
      rw [Inside.wordAt_eq hq, Grid.pad, Grid.getD_ofFn, if_pos hq.contains]
    rw [hread, wordAt, Margins.inner]
    simp only [Inside] at hq
    have hx : (q.1 - m.left).toNat = q.1.toNat - m.left := by omega
    have hy : (q.2 - m.top).toNat = q.2.toNat - m.top := by omega
    rw [hx, hy]
    refine if_congr ?_ rfl rfl
    omega
  · rw [wordAt_of_not_inside hq, wordAt_of_not_inside]
    simp only [Inside, Size.pad, Margins.inner] at hq ⊢
    omega

/-- Margins move the ink. -/
theorem ink_pad (q : Place) : ink (g.pad m) q ↔ ink g (m.inner q) := by
  rw [ink_iff, ink_iff, wordAt_pad]

namespace Pattern

variable (p : Pattern) (cell : Cell)

/-- A pattern matches on the wider image where it matched, moved. -/
theorem matchesAt_pad (anchor : Place) : p.matchesAt (g.pad m) anchor = p.matchesAt g (m.inner anchor) := by
  have hcell (i j : Nat) : isBlackAt (g.pad m) (anchor.1 + i) (anchor.2 + j) =
      isBlackAt g ((m.inner anchor).1 + i) ((m.inner anchor).2 + j) := by
    have hmoved := isBlackAt_eq (g.pad m) (anchor.1 + i, anchor.2 + j)
    rw [wordAt_pad, ← isBlackAt_eq, Margins.inner] at hmoved
    rw [hmoved, Margins.inner]
    exact congrArg₂ _ (by omega) (by omega)
  simp only [matchesAt, hcell]

/-- A pattern strikes on the wider image what it struck, moved. -/
theorem strikes_pad (q : Place) : p.Strikes cell (g.pad m) q ↔ p.Strikes cell g (m.inner q) := by
  have hover (anchor : Place) : p.HasOver (m.inner anchor) (m.inner q) cell ↔ p.HasOver anchor q cell := by
    have hsame : ((m.inner q).1 - (m.inner anchor).1, (m.inner q).2 - (m.inner anchor).2) =
        (q.1 - anchor.1, q.2 - anchor.2) := by
      simp only [Margins.inner]
      exact Prod.ext (by simp only; omega) (by simp only; omega)
    rw [HasOver, HasOver, hsame]
  constructor
  · rintro ⟨anchor, hmatch, hcell⟩
    exact ⟨m.inner anchor, matchesAt_pad g m p anchor ▸ hmatch, (hover anchor).mpr hcell⟩
  · rintro ⟨anchor, hmatch, hcell⟩
    have hback : m.inner (anchor.1 + m.left, anchor.2 + m.top) = anchor := by
      simp only [Margins.inner, Int.add_sub_cancel]
    refine ⟨(anchor.1 + m.left, anchor.2 + m.top), ?_, ?_⟩
    · rw [matchesAt_pad, hback, hmatch]
    · rw [← hover, hback]
      exact hcell

variable {g p}

/-- What replaces an image replaces the wider image. -/
theorem Replaces.pad {after : Grid Nat} (h : p.Replaces g after) : p.Replaces (g.pad m) (after.pad m) where
  size := congrArg (Size.pad · m) h.size
  erased_iff q := by
    rw [ink_pad, wordAt_pad, strikes_pad]
    exact h.erased_iff _
  filled_iff q := by
    rw [ink_pad, wordAt_pad, strikes_pad]
    exact h.filled_iff _
  kept q := by
    rw [wordAt_pad, wordAt_pad, strikes_pad, strikes_pad]
    exact h.kept _

/-- A pass over the wider image gives the wider result. -/
theorem Regular.pass_pad (h : p.Regular) : (p.pass (p.anchors (g.pad m).size) (g.pad m)).1 =
    ((p.pass (p.anchors g.size) g).1).pad m := by
  have hwide : p.Replaces (g.pad m) (p.pass (p.anchors (g.pad m).size) (g.pad m)).1 := h.replaces fun _ => Iff.rfl
  have hresult : p.Replaces g (p.pass (p.anchors g.size) g).1 := h.replaces fun _ => Iff.rfl
  exact hwide.unique (hresult.pad m)

end Pattern

variable {g}

/-- Passes one after another over the wider image give the wider result, and they keep the size. -/
theorem runPasses_pad {patterns : List Pattern} (h : ∀ p ∈ patterns, p.Regular) :
    runPasses patterns (g.pad m) = (runPasses patterns g).pad m ∧ (runPasses patterns g).size = g.size := by
  induction patterns generalizing g with
  | nil => exact ⟨rfl, rfl⟩
  | cons p patterns ih =>
    have hfirst := h p List.mem_cons_self
    have hreplaces : p.Replaces g (p.pass (p.anchors g.size) g).1 := hfirst.replaces fun _ => Iff.rfl
    obtain ⟨hpad, hsize⟩ :=
      ih (g := (p.pass (p.anchors g.size) g).1) fun p' hp' => h p' (List.mem_cons_of_mem _ hp')
    refine ⟨?_, hsize.trans hreplaces.size⟩
    rw [← hfirst.pass_pad] at hpad
    exact hpad

end Margin

/-- Smoothing a bilevel page runs the passes of all patterns over it. -/
theorem smoothEdges_eq_ok {r : Raster} (h : r.format = .bit1) :
    smoothEdges r =
      .ok { r with pixels := runPasses (smoothingPatterns.flatMap Pattern.orientations) r.pixels } := by
  rw [smoothEdges, require_eq_ok h]
  rfl

/-- Smoothing behaves as on an infinite white plane. Every bilevel page can be smoothed, and with white margins of
any widths it gives the smoothed page with these margins. After no pass is there any ink outside of the page. -/
theorem smoothEdges_pad {r : Raster} (h : r.format = .bit1) (m : Margins) : Returns (smoothEdges r) fun out =>
    smoothEdges (r.pad m) = .ok (out.pad m) ∧ ∀ n q, ¬ Inside r.size (m.inner q) →
      ¬ ink (runPasses ((smoothingPatterns.flatMap Pattern.orientations).take n) (r.pad m).pixels) q := by
  have hpad : (r.pad m).format = .bit1 := h
  refine ⟨_, smoothEdges_eq_ok h, ?_, fun n q hout hink => hout ?_⟩
  · rw [smoothEdges_eq_ok hpad, Raster.pad, Raster.pad, (runPasses_pad m regular_orientations).1]
  · obtain ⟨hwide, hsize⟩ := runPasses_pad (g := r.pixels) m
      fun p hp => regular_orientations p (List.mem_of_mem_take (i := n) hp)
    have hmoved : ink ((runPasses _ r.pixels).pad m) q := hwide ▸ hink
    have hinside := ((ink_pad _ m q).mp hmoved).inside
    rwa [hsize] at hinside

/-- A bump at the lower border of a page of two rows is erased in the same way above white rows. -/
theorem smoothEdges_pad_bar :
    let r : Raster := ⟨.bit1, .standard, ⟨⟨3, 2, by decide, by decide⟩, #[1, 1, 1, 0, 1, 0], rfl⟩⟩
    let m : Margins := ⟨1, 0, 0, 1⟩
    ∃ out, smoothEdges r = .ok out ∧ out.words = #[1, 1, 1, 0, 0, 0] ∧ smoothEdges (r.pad m) = .ok (out.pad m) ∧
      (out.pad m).words = #[0, 1, 1, 1, 0, 0, 0, 0, 0, 0, 0, 0] ∧ ∀ n q, ¬ Inside r.size (m.inner q) →
        ¬ ink (runPasses ((smoothingPatterns.flatMap Pattern.orientations).take n) (r.pad m).pixels) q := by
  intro r m
  obtain ⟨out, hout, hpad, hwhite⟩ := smoothEdges_pad (r := r) rfl m
  have hwords : out.words = #[1, 1, 1, 0, 0, 0] := by
    rw [← Except.ok.inj hout]
    decide +kernel
  have hwide : (out.pad m).words = #[0, 1, 1, 1, 0, 0, 0, 0, 0, 0, 0, 0] := by
    rw [← Except.ok.inj hout]
    decide +kernel
  exact ⟨out, hout, hwords, hpad, hwide, hwhite⟩

end Morphology

end ScannedPage
