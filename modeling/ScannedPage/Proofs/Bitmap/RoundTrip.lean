import ScannedPage.Bitmap.Basic
import ScannedPage.Job.Basic
import ScannedPage.Proofs.Raster

/-!
# Pages come back from pictures

A page is written as a picture and read back from it. Only a library of pictures knows what a picture is; all that
is asked of it is that it keeps samples of 8 bits (`PictureLibrary.KeepsSamples`). Then the page comes back with
its size and words, a bilevel one as its gray view (`PictureLibrary.KeepsSamples.pageOf_pictureOf`). Bitmaps are
such a library (`Bitmap.keepsSamples_library`), and their conversions are those of the library
(`Bitmap.pictureOf_library`, `Bitmap.pageOf_library`).

Colours are packed into words, and their channels lie side by side in the samples of a picture. In a list of pieces
of one length every place is a place of one piece (`getElem?_flatMap_of_length`), which gives the channels of a
pixel back, and opaque words are made of their channels (`Color.compose_channels`).
-/

namespace ScannedPage

/-- In a list of pieces of one length, the places of a piece follow those of the pieces before. -/
theorem getElem?_flatMap_of_length {α β : Type} {f : α → List β} {n : Nat} (hlength : ∀ a, (f a).length = n)
    (l : List α) (i : Nat) {k : Nat} (hk : k < n) : (l.flatMap f)[n * i + k]? = l[i]?.bind fun a => (f a)[k]? := by
  induction l generalizing i with
  | nil => simp
  | cons a l ih =>
    rw [List.flatMap_cons]
    cases i with
    | zero => rw [Nat.mul_zero, Nat.zero_add, List.getElem?_append_left (by rw [hlength]; exact hk)]; rfl
    | succ i =>
      have hplace : n * (i + 1) + k = n + (n * i + k) := by rw [Nat.mul_succ]; omega
      rw [hplace, List.getElem?_append_right (by rw [hlength]; omega), hlength, Nat.add_sub_cancel_left, ih]
      rfl

/-- An opaque word is the colour of its channels. -/
theorem Color.compose_channels {word : Nat} (hword : word ≤ PixelFormat.rgb32.maxValue)
    (hsolid : word % 256 = 255) :
    compose (red word) (green word) (blue word) = word := by
  simp only [PixelFormat.maxValue] at hword
  simp only [compose, red, green, blue]
  omega

namespace Bitmap

/-- The channels of some words side by side. -/
def channels (words : Array Nat) : Array Nat := words.flatMap fun v => (channelLevels v).toArray

/-- A word has three channels. -/
theorem length_channelLevels (word : Nat) : (channelLevels word).length = 3 := rfl

/-- The channels of some words are three for each word. -/
theorem size_channels (words : Array Nat) : (channels words).size = 3 * words.size := by
  rw [← Array.length_toList, channels, Array.toList_flatMap, List.length_flatMap]
  simp only [length_channelLevels, List.map_const', List.sum_replicate_nat, Array.length_toList, Nat.mul_comm]

/-- A channel is read at the place of its word and by its place in that word. -/
theorem getElem?_channels (words : Array Nat) (i : Nat) {k : Nat} (hk : k < 3) :
    (channels words)[3 * i + k]? = words[i]?.bind fun v => (channelLevels v)[k]? := by
  rw [← Array.getElem?_toList, ← Array.getElem?_toList, channels, Array.toList_flatMap]
  exact getElem?_flatMap_of_length length_channelLevels words.toList i hk

/-- Every channel of a word is a level. -/
theorem channels_lt {words : Array Nat} : ∀ v ∈ channels words, v < 256 := by
  intro v hv
  simp only [channels, channelLevels, Array.mem_flatMap, List.mem_toArray, List.mem_cons, List.not_mem_nil,
    or_false] at hv
  obtain ⟨word, _, rfl | rfl | rfl⟩ := hv
  · exact Color.red_lt word
  · exact Color.green_lt word
  · exact Color.blue_lt word

end Bitmap

namespace Raster

open Bitmap

variable {s : Size} {words : Array Nat}

/-- A page that comes back from a picture has the size of the page written. Format and words are the same
unless that was bilevel, and else those of its gray view. A picture knows no resolution, so the page has the
standard one. -/
structure Restores (back r : Raster) : Prop where
  size_eq : back.size = r.size
  resolution_eq : back.resolution = .standard
  bilevel : r.format = .bit1 → back.format = r.toGray.format ∧ back.words = r.toGray.words
  other : r.format ≠ .bit1 → back.format = r.format ∧ back.words = r.words

/-- The levels written for a bilevel page are the words of its gray view. -/
theorem map_levels_of_bilevel {r : Raster} (hr : r.InRange) (hformat : r.format = .bit1) :
    (r.words.map fun v => if v = 0 then 255 else 0) = r.toGray.words := by
  rw [inRange_iff, hformat] at hr
  rw [toGray, hformat, if_neg (by decide)]
  refine Array.map_congr_left fun v hv => ?_
  have hbit : v ≤ 1 := hr v hv
  obtain rfl | rfl : v = 0 ∨ v = 1 := by omega
  all_goals rfl

/-- The levels written for a gray page are its words. -/
theorem map_levels_of_gray {r : Raster} (hr : r.InRange) (hformat : r.format = .gray8) :
    r.words.map (· % 256) = r.words := by
  rw [inRange_iff, hformat] at hr
  refine (Array.map_congr_left fun v hv => ?_).trans r.words.map_id
  have hlevel : v ≤ 255 := hr v hv
  exact Nat.mod_eq_of_lt (Nat.lt_succ_of_le hlevel)

/-- As many gray levels as pixels make a gray page of these words. -/
theorem ofGrayBytes_eq_ok (h : words.size = s.area) :
    ofGrayBytes s.width s.height words = .ok ⟨.gray8, .standard, ⟨s, words, h⟩⟩ := by
  rw [ofGrayBytes, ofWords, Size.ofSides_sides]
  simp only [Bind.bind, Except.bind, Grid.ofCells?, dif_pos h]
  rfl

/-- The channels of opaque words side by side make a colour page of these words. -/
theorem ofRgbBytes_eq_ok (h : words.size = s.area)
    (hsolid : ∀ v ∈ words, v ≤ PixelFormat.rgb32.maxValue ∧ v % 256 = 255) :
    ofRgbBytes s.width s.height (channels words) = .ok ⟨.rgb32, .standard, ⟨s, words, h⟩⟩ := by
  rw [ofRgbBytes, Size.ofSides_sides]
  simp only [Bind.bind, Except.bind, size_channels, h, if_true]
  refine congrArg Except.ok (congrArg (Raster.mk .rgb32 .standard) (Grid.ext_get? rfl fun x y => ?_))
  rw [Grid.get?_ofFn, Grid.get?]
  refine if_ctx_congr Iff.rfl (fun hxy => ?_) fun _ => rfl
  have hi : s.index x y < words.size := h ▸ Size.index_lt hxy
  obtain ⟨hrange, hfull⟩ := hsolid _ (Array.getElem_mem hi)
  have hchannel {k : Nat} (hk : k < 3) :
      (channels words).getD (3 * s.index x y + k) 0 = (Bitmap.channelLevels words[s.index x y])[k]?.getD 0 := by
    rw [Array.getD_eq_getD_getElem?, getElem?_channels words _ hk, Array.getElem?_eq_getElem hi, Option.bind_some]
  have hred : (channels words).getD (3 * s.index x y) 0 = Color.red words[s.index x y] :=
    hchannel (k := 0) (by decide)
  have hgreen : (channels words).getD (3 * s.index x y + 1) 0 = Color.green words[s.index x y] :=
    hchannel (by decide)
  have hblue : (channels words).getD (3 * s.index x y + 2) 0 = Color.blue words[s.index x y] :=
    hchannel (by decide)
  rw [hred, hgreen, hblue, Color.compose_channels hrange hfull, Array.getElem?_eq_getElem hi]

end Raster

/-- Samples of 8 bits with the sides of their picture. -/
structure SampleBuffer where
  width : Nat
  height : Nat
  samples : Array Nat
deriving DecidableEq, Repr

/-- A library of pictures. It makes them of gray levels or of colours if the samples are enough, names their colour
model, and gives their samples in 8 bits. -/
structure PictureLibrary where
  Picture : Type
  ofGray? : SampleBuffer → Option Picture
  ofRgb? : SampleBuffer → Option Picture
  model : Picture → ColorModel
  toGray : Picture → SampleBuffer
  toRgb : Picture → SampleBuffer

namespace PictureLibrary

variable (L : PictureLibrary)

/-- The picture of gray levels, or a fault. -/
def ofGray (b : SampleBuffer) : Except JobError L.Picture :=
  match L.ofGray? b with
  | some p => .ok p
  | none => .error (.job ("Invalid gray buffer for " ++ toString b.width ++ "x" ++ toString b.height ++ " image"))

/-- The picture of colours, or a fault. -/
def ofRgb (b : SampleBuffer) : Except JobError L.Picture :=
  match L.ofRgb? b with
  | some p => .ok p
  | none =>
    .error (.job ("Invalid colour buffer for " ++ toString b.width ++ "x" ++ toString b.height ++ " image"))

/-- The picture that shows a page. -/
def pictureOf (r : Raster) : Except JobError L.Picture :=
  match r.format with
  | .bit1 => L.ofGray ⟨r.width, r.height, r.words.map fun v => if v = 0 then 255 else 0⟩
  | .gray8 => L.ofGray ⟨r.width, r.height, r.words.map (· % 256)⟩
  | .rgb32 => L.ofRgb ⟨r.width, r.height, Bitmap.channels r.words⟩

/-- The page that a picture shows, at the standard resolution. -/
def pageOf (p : L.Picture) : Except JobError Raster :=
  match L.model p with
  | .gray | .grayAlpha =>
    (Raster.ofGrayBytes (L.toGray p).width (L.toGray p).height (L.toGray p).samples).mapError .raster
  | .rgb | .rgba => (Raster.ofRgbBytes (L.toRgb p).width (L.toRgb p).height (L.toRgb p).samples).mapError .raster

/-- Samples of 8 bits, one or three for each pixel, make a picture of gray levels or of colours that gives them
back. -/
structure KeepsSamples : Prop where
  gray (b : SampleBuffer) : (∀ v ∈ b.samples, v < 256) → b.samples.size = b.width * b.height →
    ∃ p, L.ofGray? b = some p ∧ L.model p = .gray ∧ L.toGray p = b
  rgb (b : SampleBuffer) : (∀ v ∈ b.samples, v < 256) → b.samples.size = 3 * (b.width * b.height) →
    ∃ p, L.ofRgb? b = some p ∧ L.model p = .rgb ∧ L.toRgb p = b

variable {L} {s : Size} {samples words : Array Nat}

/-- A gray page comes back from a picture of its levels. -/
theorem KeepsSamples.pageOf_ofGray (hL : L.KeepsSamples) (hsize : samples.size = s.area)
    (hbytes : ∀ v ∈ samples, v < 256) :
    L.ofGray ⟨s.width, s.height, samples⟩ >>= L.pageOf = .ok ⟨.gray8, .standard, ⟨s, samples, hsize⟩⟩ := by
  obtain ⟨p, hp, hmodel, hback⟩ := hL.gray ⟨s.width, s.height, samples⟩ hbytes hsize
  rw [ofGray, hp]
  simp only [Bind.bind, Except.bind, pageOf, hmodel, hback, Raster.ofGrayBytes_eq_ok hsize]
  rfl

/-- A colour page comes back from a picture of its channels. -/
theorem KeepsSamples.pageOf_ofRgb (hL : L.KeepsSamples) (hsize : words.size = s.area)
    (hsolid : ∀ v ∈ words, v ≤ PixelFormat.rgb32.maxValue ∧ v % 256 = 255) :
    L.ofRgb ⟨s.width, s.height, Bitmap.channels words⟩ >>= L.pageOf =
      .ok ⟨.rgb32, .standard, ⟨s, words, hsize⟩⟩ := by
  have hthree : (Bitmap.channels words).size = 3 * s.area := hsize ▸ Bitmap.size_channels words
  obtain ⟨p, hp, hmodel, hback⟩ := hL.rgb ⟨s.width, s.height, Bitmap.channels words⟩ Bitmap.channels_lt hthree
  rw [ofRgb, hp]
  simp only [Bind.bind, Except.bind, pageOf, hmodel, hback, Raster.ofRgbBytes_eq_ok hsize hsolid]
  rfl

/-- A page in range, whose colours are opaque, comes back from its picture. -/
theorem KeepsSamples.pageOf_pictureOf (hL : L.KeepsSamples) {r : Raster} (hr : r.InRange)
    (hsolid : r.format = .rgb32 → ∀ v ∈ r.words, v % 256 = 255) :
    Returns (L.pictureOf r >>= L.pageOf) (·.Restores r) := by
  have hlevels (level : Nat → Nat) : (r.words.map level).size = r.size.area :=
    Array.size_map.trans r.pixels.size_cells
  rw [pictureOf]
  cases hformat : r.format with
  | bit1 =>
    have hbytes : ∀ level ∈ r.words.map fun v => if v = 0 then 255 else 0, level < 256 := fun level hlevel => by
      obtain ⟨v, _, rfl⟩ := Array.mem_map.mp hlevel
      split <;> decide
    refine ⟨_, hL.pageOf_ofGray (hlevels _) hbytes, rfl, rfl, fun _ => ⟨r.format_toGray.symm, ?_⟩,
      fun h => absurd hformat h⟩
    exact Raster.map_levels_of_bilevel hr hformat
  | gray8 =>
    have hbytes : ∀ level ∈ r.words.map (· % 256), level < 256 := fun level hlevel => by
      obtain ⟨v, _, rfl⟩ := Array.mem_map.mp hlevel
      exact Nat.mod_lt v (by decide)
    have hne (h : r.format = .bit1) : False := absurd (hformat.symm.trans h) (by decide)
    refine ⟨_, hL.pageOf_ofGray (hlevels _) hbytes, rfl, rfl, fun h => (hne h).elim, fun _ => ⟨hformat.symm, ?_⟩⟩
    exact Raster.map_levels_of_gray hr hformat
  | rgb32 =>
    have hwords : ∀ v ∈ r.words, v ≤ PixelFormat.rgb32.maxValue := hformat ▸ Raster.inRange_iff.mp hr
    have hne (h : r.format = .bit1) : False := absurd (hformat.symm.trans h) (by decide)
    have hback := hL.pageOf_ofRgb r.pixels.size_cells fun v hv => ⟨hwords v hv, hsolid hformat v hv⟩
    exact ⟨_, hback, rfl, rfl, fun h => (hne h).elim, fun _ => ⟨hformat.symm, rfl⟩⟩

end PictureLibrary

namespace Bitmap

open PictureLibrary

/-- Bitmaps as a library of pictures. Gray levels are asked of gray bitmaps only, and colours of colour ones. -/
def library : PictureLibrary where
  Picture := Bitmap
  ofGray? b :=
    if b.width * b.height ≤ b.samples.size then some ⟨.gray, false, b.width, b.height, b.samples⟩ else none
  ofRgb? b :=
    if 3 * (b.width * b.height) ≤ b.samples.size then some ⟨.rgb, false, b.width, b.height, b.samples⟩ else none
  model := model
  toGray b := ⟨b.width, b.height, b.levels⟩
  toRgb b := ⟨b.width, b.height, b.levels⟩

/-- Samples of 8 bits without opacity are the levels. -/
theorem levels_eq_samples {b : Bitmap} (hdeep : b.deep = false)
    (hmodel : b.model.channels = b.model.opaqueChannels) :
    b.levels = b.samples := by
  simp only [levels, hdeep, hmodel, if_true, Bool.false_eq_true, if_false, Array.map_id']

/-- Bitmaps keep samples of 8 bits. -/
theorem keepsSamples_library : library.KeepsSamples where
  gray b _ hsize := by
    refine ⟨⟨.gray, false, b.width, b.height, b.samples⟩, if_pos (Nat.le_of_eq hsize.symm), rfl, ?_⟩
    exact congrArg (SampleBuffer.mk b.width b.height) (levels_eq_samples rfl rfl)
  rgb b _ hsize := by
    refine ⟨⟨.rgb, false, b.width, b.height, b.samples⟩, if_pos (Nat.le_of_eq hsize.symm), rfl, ?_⟩
    exact congrArg (SampleBuffer.mk b.width b.height) (levels_eq_samples rfl rfl)

/-- Writing a page as a bitmap is writing it as a picture of this library. -/
theorem pictureOf_library (r : Raster) : library.pictureOf r = .ok (ofRaster r) := by
  have hlevels (level : Nat → Nat) : r.width * r.height ≤ (r.words.map level).size :=
    Nat.le_of_eq (Array.size_map.trans r.pixels.size_cells).symm
  have hchannels : 3 * (r.width * r.height) ≤ (channels r.words).size := by
    rw [size_channels]
    exact Nat.le_of_eq (congrArg (3 * ·) r.pixels.size_cells.symm)
  cases hformat : r.format <;>
    simp only [pictureOf, ofRaster, hformat, ofGray, ofRgb, library, hlevels, hchannels, if_true]
  rfl

/-- Reading a page from a bitmap is reading it from a picture of this library. -/
theorem pageOf_library (b : Bitmap) : library.pageOf b = b.toRaster.mapError .raster := by
  cases hmodel : b.model <;> simp only [pageOf, toRaster, library, hmodel]

/-- A page in range, whose colours are opaque, comes back from its bitmap, and from its picture in any library that
keeps samples of 8 bits. -/
theorem toRaster_ofRaster_restores {r : Raster} (hr : r.InRange)
    (hsolid : r.format = .rgb32 → ∀ v ∈ r.words, v % 256 = 255) :
    Returns (ofRaster r).toRaster (·.Restores r) ∧
      ∀ L : PictureLibrary, L.KeepsSamples → Returns (L.pictureOf r >>= L.pageOf) (·.Restores r) := by
  refine ⟨?_, fun L hL => hL.pageOf_pictureOf hr hsolid⟩
  obtain ⟨back, hback, hrestores⟩ := keepsSamples_library.pageOf_pictureOf hr hsolid
  rw [pictureOf_library] at hback
  have hpage : library.pageOf (ofRaster r) = .ok back := hback
  rw [pageOf_library, mapError_eq_ok] at hpage
  exact ⟨back, hpage, hrestores⟩

/-- Two opaque pixels at a resolution of their own come back in colour at the standard one, from a bitmap and from
a library of pictures. -/
theorem toRaster_ofRaster_restores_colours :
    let r : Raster := ⟨.rgb32, .uniform 600, ⟨⟨2, 1, by decide, by decide⟩, #[0x0a141eff, 0xc86400ff], rfl⟩⟩
    r.InRange ∧ (r.format = .rgb32 → ∀ v ∈ r.words, v % 256 = 255) ∧
      (ofRaster r).samples = #[10, 20, 30, 200, 100, 0] ∧ Returns (ofRaster r).toRaster (·.Restores r) ∧
      library.KeepsSamples ∧ Returns (library.pictureOf r >>= library.pageOf) (·.Restores r) := by
  intro r
  have hr : r.InRange := by decide
  have hsolid : r.format = .rgb32 → ∀ v ∈ r.words, v % 256 = 255 := by decide
  obtain ⟨hbitmap, hlibrary⟩ := toRaster_ofRaster_restores hr hsolid
  exact ⟨hr, hsolid, by decide, hbitmap, keepsSamples_library, hlibrary library keepsSamples_library⟩

end Bitmap

end ScannedPage
