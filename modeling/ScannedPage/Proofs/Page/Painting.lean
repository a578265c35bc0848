import ScannedPage.Proofs.Colour
import ScannedPage.Proofs.Page.Zones

/-!
# What painting shows

Zones to be filled are painted over each other, so a pixel shows the last one that covers it and is left alone
where there is none (`word_fillZones_eq`). All that is said of a painted page follows from this reading of its
pixels: painting again finds the colours already there, and a colour has the same gray level before and after it is
painted, so that the gray view of a painted page is the painted gray view.
-/

namespace ScannedPage

/-- The last of the zones to be filled that covers a pixel. -/
def Zone.lastFill? (zones : List Zone) (size : Size) (x y : Nat) : Option Zone :=
  zones.findRev? fun z => decide (z.tag = .fill ∧ z.Covers size x y)

/-- The zone is to be filled and covers a pixel, and no later zone does both. -/
theorem Zone.lastFill?_eq_some_iff {zones : List Zone} {size : Size} {x y : Nat} {z : Zone} :
    lastFill? zones size x y = some z ↔ (z.tag = .fill ∧ z.Covers size x y) ∧
      ∃ before after, zones = before ++ z :: after ∧ ∀ z' ∈ after, z'.tag = .fill → ¬ z'.Covers size x y := by
  rw [lastFill?, List.findRev?_eq_find?_reverse, List.find?_eq_some_iff_append, decide_eq_true_iff]
  refine and_congr_right fun _ => ⟨?_, ?_⟩
  · rintro ⟨later, earlier, hzones, hlater⟩
    refine ⟨earlier.reverse, later.reverse, ?_, fun z' hz' htag hcover => ?_⟩
    · rw [← zones.reverse_reverse, hzones]
      simp
    · simpa [htag, hcover] using hlater z' (List.mem_reverse.mp hz')
  · rintro ⟨before, after, rfl, hafter⟩
    refine ⟨after.reverse, before.reverse, by simp, fun z' hz' => ?_⟩
    simpa [imp_iff_not_or] using hafter z' (List.mem_reverse.mp hz')

/-- One more zone is the last one where it is filled and covers. -/
theorem Zone.lastFill?_concat (zones : List Zone) (z : Zone) (size : Size) (x y : Nat) :
    lastFill? (zones ++ [z]) size x y =
      if z.tag = .fill ∧ z.Covers size x y then some z else lastFill? zones size x y := by
  rw [lastFill?, List.findRev?_eq_find?_reverse, List.reverse_append, List.reverse_singleton,
    List.singleton_append, List.find?_cons, lastFill?, List.findRev?_eq_find?_reverse]
  split
  · next h => rw [if_pos (of_decide_eq_true h)]
  · next h => rw [if_neg (of_decide_eq_false h)]

/-- The word that shows a colour in a format: black below half of the gray levels and white above on a bilevel
page, its gray level on a gray page, and the colour with full opacity on a page in colour. -/
inductive PixelFormat.Shows (color : Nat) : PixelFormat → Nat → Prop
  | black : Color.luminance color < 128 → Shows color .bit1 (blackWord .bit1)
  | white : 128 ≤ Color.luminance color → Shows color .bit1 (whiteWord .bit1)
  | level : Shows color .gray8 (Color.luminance color)
  | opaqueColor : Shows color .rgb32 (color ||| 0xff)

/-- Full opacity sets the lowest byte of a word. -/
theorem Color.solid_eq_or (word : Nat) : solid word = word ||| 0xff := by
  refine Nat.eq_of_testBit_eq fun i => ?_
  have hones : Nat.testBit 0xff i = decide (i < 8) := Nat.testBit_two_pow_sub_one 8 i
  rw [solid, Nat.mul_comm, show 0x100 = 2 ^ 8 from rfl, Nat.testBit_two_pow_mul_add _ (by decide), Nat.testBit_or,
    hones]
  split
  · next hi => rw [decide_eq_true hi, Bool.or_true]
  · next hi =>
    rw [decide_eq_false hi, Bool.or_false, Nat.testBit_div_two_pow, Nat.sub_add_cancel (Nat.le_of_not_lt hi)]

/-- Opacity does not count for the gray level. -/
theorem Color.luminance_solid (word : Nat) : luminance (solid word) = luminance word := by
  have hchannels : red (solid word) = red word ∧ green (solid word) = green word ∧
      blue (solid word) = blue word := by
    unfold red green blue solid
    omega
  rw [luminance, hchannels.1, hchannels.2.1, hchannels.2.2, luminance]

/-- A fill colour becomes the word that shows it. -/
theorem PixelFormat.shows_fillWord (f : PixelFormat) (color : Nat) : f.Shows color (fillWord f color) := by
  cases f with
  | bit1 =>
    rw [fillWord]
    split
    · next h => exact .black h
    · next h => exact .white (Nat.le_of_not_lt h)
  | gray8 => exact .level
  | rgb32 =>
    rw [fillWord, Color.solid_eq_or]
    exact .opaqueColor

/-- A fill colour has the same gray level on a page that can hold a picture and on its gray view. -/
theorem PixelFormat.grayOf_fillWord {f : PixelFormat} (h : f ≠ .bit1) (color : Nat) :
    f.grayOf (fillWord f color) = fillWord .gray8 color := by
  cases f with
  | bit1 => exact absurd rfl h
  | gray8 => exact Nat.mod_eq_of_lt (Color.luminance_lt color)
  | rgb32 => exact Color.luminance_solid color

/-- The gray view shows the gray level of every pixel inside. -/
theorem Raster.word_toGray {r : Raster} (h : r.format ≠ .gray8) {x y : Nat} (hxy : r.size.Contains x y) :
    r.toGray.word x y = r.format.grayOf (r.word x y) := by
  rw [toGray, if_neg h, mapWords_eq_ofFn, word_ofFn, if_pos hxy]

section Fill

variable {r : Raster} {zones : List Zone} {x y : Nat}

/-- One more zone is painted over the others if it is to be filled. -/
theorem fillZones_concat (r : Raster) (zones : List Zone) (z : Zone) :
    fillZones r (zones ++ [z]) = if z.tag = .fill then fillZone (fillZones r zones) z else fillZones r zones := by
  simp only [fillZones, List.filter_append, List.foldl_append]
  split
  · next h => rw [List.filter_cons_of_pos (by simpa using h), List.filter_nil, List.foldl_cons, List.foldl_nil]
  · next h => rw [List.filter_cons_of_neg (by simpa using h), List.filter_nil, List.foldl_nil]

/-- Filling keeps the resolution of a page. -/
theorem resolution_fillZones (r : Raster) (zones : List Zone) : (fillZones r zones).resolution = r.resolution :=
  fillZones_induction (fun r' => r'.resolution = r.resolution) zones rfl fun _ h _ _ _ => h

/-- Zones with other tags are not painted. -/
theorem fillZones_filter (r : Raster) (zones : List Zone) :
    fillZones r (zones.filter (·.tag = .fill)) = fillZones r zones := by
  rw [fillZones, List.filter_filter]
  simp only [Bool.and_self]
  rfl

/-- A pixel shows the last of the zones to be filled that covers it, and keeps its word if there is none. -/
theorem word_fillZones_eq (r : Raster) (zones : List Zone) (hxy : r.size.Contains x y) :
    (fillZones r zones).word x y =
      ((Zone.lastFill? zones r.size x y).map fun z => fillWord r.format (z.fillColor.getD Color.white)).getD
        (r.word x y) := by
  induction zones using List.reverseRecOn with
  | nil => rfl
  | append_singleton zones z ih =>
    rw [fillZones_concat, Zone.lastFill?_concat]
    by_cases htag : z.tag = .fill
    · rw [if_pos htag, word_fillZone _ _ ((size_fillZones r zones).symm ▸ hxy), size_fillZones, format_fillZones,
        ih]
      by_cases hcover : z.Covers r.size x y
      · rw [if_pos hcover, if_pos ⟨htag, hcover⟩]
        rfl
      · rw [if_neg hcover, if_neg fun h => hcover h.2]
    · rw [if_neg htag, if_neg fun h => htag h.1, ih]

/-- Painting again finds every colour where it is. -/
theorem fillZones_fillZones (r : Raster) (zones : List Zone) :
    fillZones (fillZones r zones) zones = fillZones r zones := by
  refine Raster.ext_word (format_fillZones ..) (resolution_fillZones ..) (size_fillZones ..) fun x y hxy => ?_
  rw [size_fillZones] at hxy
  have hagain := word_fillZones_eq (fillZones r zones) zones hxy
  rw [size_fillZones] at hxy
  rw [size_fillZones, format_fillZones, word_fillZones_eq r zones hxy] at hagain
  rw [hagain, word_fillZones_eq r zones hxy]
  cases Zone.lastFill? zones r.size x y <;> rfl

/-- The gray view of a painted page is the painted gray view. -/
theorem toGray_fillZones (h : r.format ≠ .bit1) (zones : List Zone) :
    (fillZones r zones).toGray = fillZones r.toGray zones := by
  by_cases hgray : r.format = .gray8
  · rw [Raster.toGray_eq_self hgray, Raster.toGray_eq_self ((format_fillZones r zones).trans hgray)]
  · refine Raster.ext_word ?_ ?_ ?_ fun x y hxy => ?_
    · rw [Raster.format_toGray, format_fillZones, Raster.format_toGray]
    · rw [Raster.resolution_toGray, resolution_fillZones, resolution_fillZones, Raster.resolution_toGray]
    · rw [Raster.size_toGray, size_fillZones, size_fillZones, Raster.size_toGray]
    · rw [Raster.size_toGray, size_fillZones] at hxy
      rw [Raster.word_toGray (by rwa [format_fillZones]) (by rwa [size_fillZones]), format_fillZones,
        word_fillZones_eq r zones hxy, word_fillZones_eq r.toGray zones (by rwa [Raster.size_toGray]),
        Raster.size_toGray, Raster.format_toGray, Raster.word_toGray hgray hxy]
      cases Zone.lastFill? zones r.size x y with
      | none => rfl
      | some z => exact PixelFormat.grayOf_fillWord h _

/-- A page with zones painted into it: the last of the zones to be filled that covers a pixel shows there, white if
it has no colour, and all else is as before. -/
structure Painted (r : Raster) (zones : List Zone) (page : Raster) : Prop where
  format_eq : page.format = r.format
  size_eq : page.size = r.size
  resolution_eq : page.resolution = r.resolution
  last_shows : ∀ x y before z after, r.size.Contains x y → zones = before ++ z :: after → z.tag = .fill →
    z.Covers r.size x y → (∀ z' ∈ after, z'.tag = .fill → ¬ z'.Covers r.size x y) →
      r.format.Shows (z.fillColor.getD Color.white) (page.word x y)
  free_keeps : ∀ x y, r.size.Contains x y → (∀ z ∈ zones, z.tag = .fill → ¬ z.Covers r.size x y) →
    page.word x y = r.word x y

/-- Filling paints the zones. -/
theorem painted_fillZones (r : Raster) (zones : List Zone) : Painted r zones (fillZones r zones) where
  format_eq := format_fillZones r zones
  size_eq := size_fillZones r zones
  resolution_eq := resolution_fillZones r zones
  last_shows x y before z after hxy hzones htag hcover hafter := by
    have hlast := Zone.lastFill?_eq_some_iff.mpr ⟨⟨htag, hcover⟩, before, after, hzones, hafter⟩
    rw [word_fillZones_eq r zones hxy, hlast]
    exact r.format.shows_fillWord _
  free_keeps _ _ hxy hfree := word_fillZones hxy hfree

/-- Of the zones to be filled the last one that covers a pixel shows there, and every other pixel, the format, the
size and the resolution stay; zones with other tags do nothing, painting again changes nothing, and a page in
colour may be turned gray before or after it is painted. -/
theorem fillZones_laws (r : Raster) (zones : List Zone) :
    Painted r zones (fillZones r zones) ∧
    fillZones r (zones.filter (·.tag = .fill)) = fillZones r zones ∧
    fillZones (fillZones r zones) zones = fillZones r zones ∧
    (r.format = .rgb32 → (fillZones r zones).toGray = fillZones r.toGray zones) := by
  refine ⟨painted_fillZones r zones, fillZones_filter r zones, fillZones_fillZones r zones, fun hcolour => ?_⟩
  refine toGray_fillZones ?_ zones
  rw [hcolour]
  decide

end Fill

end ScannedPage
