import ScannedPage.Proofs.Exact
import ScannedPage.Proofs.Threshold.Fallback

/-!
# Adjusted thresholds

Three of the four methods add their adjustment to thresholds that are complete without it. Two adjustments of such
a method give surfaces of one kind for any page: two thresholds that come from one, or two fields with the same
bounds whose values lie apart by the difference of the adjustments (`Surface.Adjusted`). The greater adjustment
keeps every black pixel black. The background method is not among them: its adjustment has a part in the split into
ink and paper.
-/

namespace ScannedPage.Threshold

open Morphology

/-- Two fields of a size have the same bounds, and everywhere inside the value of the second is that of the first
and the difference. -/
structure Field.Apart (s : Size) (difference : Int) (f f' : Field) : Prop where
  sides : (f.width, f.height) = s.sides
  sides_eq : (f'.width, f'.height) = (f.width, f.height)
  lower_eq : f'.lower = f.lower
  upper_eq : f'.upper = f.upper
  at_eq : ∀ x y, s.Contains x y → ∃ t, f.at? x y = some t ∧ f'.at? x y = some (t + difference)

/-- Two surfaces for pages of a size are those of two adjustments: both are the threshold of one histogram,
adjusted, or both are fields that lie apart by the difference of the adjustments. -/
inductive Surface.Adjusted (s : Size) (a b : Int) : Surface → Surface → Prop
  | global (threshold : Nat) : Adjusted s a b (.global (adjust threshold a)) (.global (adjust threshold b))
  | field {f f' : Field} (h : Field.Apart s (b - a) f f') : Adjusted s a b (.field f) (.field f')

section Surfaces

variable {s : Size} {a b : Int}

/-- A greater adjustment lowers no threshold. -/
theorem adjust_le_adjust (threshold : Nat) (hle : a ≤ b) : adjust threshold a ≤ adjust threshold b := by
  refine Int.toNat_le_toNat ?_
  omega

/-- A greater threshold keeps the black levels of a field, where the bounds are the same. -/
theorem Field.isBlack_of_le {f f' : Field} (hlower : f'.lower = f.lower) (hupper : f'.upper = f.upper)
    {level : Nat}
    {t t' : Int} (hle : t ≤ t') (h : f.isBlack level t = true) : f'.isBlack level t' = true := by
  rw [isBlack, decide_eq_true_eq] at h ⊢
  rw [hlower, hupper]
  exact h.imp_right fun hbelow => ⟨hbelow.1, Int.lt_of_lt_of_le hbelow.2 hle⟩

/-- What is black under one adjustment is black under every greater one. -/
theorem Surface.Adjusted.isBlack {surface surface' : Surface} (h : surface.Adjusted s a b surface') (hle : a ≤ b)
    {x y level : Nat} (hxy : s.Contains x y) (hblack : surface.isBlack x y level = true) :
    surface'.isBlack x y level = true := by
  cases h with
  | global threshold =>
    have hlevel : level < adjust threshold a := of_decide_eq_true hblack
    exact decide_eq_true (Nat.lt_of_lt_of_le hlevel (adjust_le_adjust threshold hle))
  | field hapart =>
    obtain ⟨t, hat, hat'⟩ := hapart.at_eq x y hxy
    simp only [Surface.isBlack, hat, hat', Option.map_some, Option.getD_some] at hblack ⊢
    exact Field.isBlack_of_le hapart.lower_eq hapart.upper_eq (by omega) hblack

/-- The surfaces fit the pages of the size. -/
theorem Surface.Adjusted.fits {surface surface' : Surface} (h : surface.Adjusted s a b surface') :
    surface.Fits s ∧ surface'.Fits s := by
  cases h with
  | global threshold => exact ⟨trivial, trivial⟩
  | field hapart => exact ⟨hapart.sides, hapart.sides_eq.trans hapart.sides⟩

end Surfaces

variable {K : Type} [Scalar K] [DecidableLE K] [DecidableLT K]

namespace Method

/-- The method adds its adjustment to thresholds that are complete without it. -/
def AdjustsThresholds : Method K → Prop
  | gatos .. => False
  | _ => True

/-- Parameters are brought in range whatever the adjustment. -/
theorem normalized_withAdjustment (method : Method K) (a : Int) :
    (method.withAdjustment a).normalized = method.normalized.withAdjustment a := by
  cases method with
  | wolf p _ lower upper =>
    rw [withAdjustment, normalized, normalized]
    split <;> rfl
  | _ => rfl

/-- Parameters brought in range leave it a method of its kind. -/
theorem AdjustsThresholds.normalized {method : Method K} (h : method.AdjustsThresholds) :
    method.normalized.AdjustsThresholds := by
  cases method with
  | wolf p _ lower upper =>
    rw [Method.normalized]
    split <;> trivial
  | gatos => exact h
  | _ => trivial

end Method

section Gray

variable {r : Raster} {s : Size}

omit [DecidableLE K] in
/-- Two adjustments of a rule on local moments give fields that lie apart by their difference, with any bounds. -/
theorem apart_fieldOf {stats : LocalStats K} (h : stats.size = s) (a b : Int) (rule : Moments K → K)
    (lower upper : Nat) :
    Field.Apart s (b - a) { fieldOf stats a rule with lower, upper }
      { fieldOf stats b rule with lower, upper } := by
  obtain rfl := h
  refine ⟨rfl, rfl, rfl, rfl, fun x y hxy => ?_⟩
  have hat (adjustment : Int) : Field.at? { fieldOf stats adjustment rule with lower, upper } x y =
      (stats.get? x y).map fun c => (Scalar.toLevel (rule c) : Int) + adjustment :=
    Grid.get?_map _ stats x y
  obtain ⟨c, hc⟩ := Option.ne_none_iff_exists'.mp fun hnone => Grid.get?_eq_none.mp hnone hxy
  refine ⟨Scalar.toLevel (rule c) + a, ?_, ?_⟩
  · rw [hat, hc, Option.map_some]
  · rw [hat, hc, Option.map_some]
    congr 1
    omega

/-- The histogram has a part in the adjusted thresholds once, before the adjustment. -/
theorem globalEstimate_adjusted (mask : Option Mask) (a b : Int) :
    Alike (fun e e' => e.surface.Adjusted s a b e'.surface) (globalEstimate K r mask a)
      (globalEstimate K r mask b) := by
  refine (Alike.refl _).bind fun h h' hsame => .pure ?_
  rw [hsame.2]
  exact .global (otsu K h)

/-- Two adjustments of a method give a gray page adjusted surfaces, or both are refused for the same reason. -/
theorem estimateGray_adjusted (h : IsGray s r) {method : Method K} (hmethod : method.AdjustsThresholds)
    (mask : Option Mask) (a b : Int) :
    Alike (fun e e' => e.surface.Adjusted s a b e'.surface) (estimateGray r (method.withAdjustment a) mask)
      (estimateGray r (method.withAdjustment b) mask) := by
  cases method with
  | otsu => exact globalEstimate_adjusted mask a b
  | sauvola p =>
    refine (Alike.refl _).bind fun stats stats' hsame => ?_
    obtain ⟨hstats, rfl⟩ := hsame
    have hsize := (localStats_returns h _ false).of_eq_ok hstats
    split
    · exact globalEstimate_adjusted mask a b
    · exact .pure (.field (apart_fieldOf hsize a b (sauvolaRule p.coefficient) 0 255))
  | wolf p _ lower upper =>
    refine (Alike.refl _).bind fun stats stats' hsame => ?_
    obtain ⟨hstats, rfl⟩ := hsame
    have hsize := (localStats_returns h _ false).of_eq_ok hstats
    simp only [wolfField?]
    split_ifs
    · exact globalEstimate_adjusted mask a b
    · exact .pure (.field (apart_fieldOf hsize a b _ lower upper))
  | gatos => exact hmethod.elim

end Gray

/-- Two adjustments of a method that adds them to its thresholds give every page adjusted surfaces under any mask
of its size. What is black with the lesser is black with the greater. -/
theorem binarize_adjusted {r : Raster} {method : Method K} (hmethod : method.AdjustsThresholds)
    {mask : Option Mask} (hmask : ∀ m ∈ mask, m.size = r.size) (a b : Int) :
    ∃ e e' page page', binarize r (method.withAdjustment a) mask = .ok (page, e) ∧
      binarize r (method.withAdjustment b) mask = .ok (page', e') ∧ e.surface.Adjusted r.size a b e'.surface ∧
      (a ≤ b → ∀ p, r.size.Contains p.1 p.2 → page.IsBlack p → page'.IsBlack p) := by
  have hgray : IsGray r.size r.toGray := ⟨r.format_toGray, r.size_toGray⟩
  obtain ⟨e, he, _⟩ := estimateGray_returns hgray (method.withAdjustment a).normalized hmask
  have halike := estimateGray_adjusted hgray hmethod.normalized mask a b
  rw [← method.normalized_withAdjustment, ← method.normalized_withAdjustment] at halike
  obtain ⟨e', he', hadjusted⟩ := halike.exists_ok he
  refine ⟨e, e', _, _, binarize_eq_ok he hadjusted.fits.1, binarize_eq_ok he' hadjusted.fits.2, hadjusted,
    fun hle p hp hblack => ?_⟩
  rw [← r.size_toGray] at hp
  rw [Surface.isBlack_drawing hp] at hblack ⊢
  exact hadjusted.isBlack hle (r.size_toGray ▸ hp) hblack

/-- Of four levels, the Wolf rule draws the first black with the adjustment `-30`, and the third as well
with `30`. -/
theorem binarize_adjusted_four_levels :
    letI := Transcendentals.ofSquares
    let r : Raster := ⟨.gray8, .standard, ⟨⟨4, 1, by decide, by decide⟩, #[10, 120, 130, 200], rfl⟩⟩
    let mask : Mask := Grid.filled r.size true
    let wolf (adjustment : Int) : Method ℚ := .wolf ⟨3, 3 / 10⟩ adjustment 20 240
    ∃ e e' page page', binarize r (wolf (-30)) (some mask) = .ok (page, e) ∧
      binarize r (wolf 30) (some mask) = .ok (page', e') ∧ e.surface.Adjusted r.size (-30) 30 e'.surface ∧
      (∀ p, r.size.Contains p.1 p.2 → page.IsBlack p → page'.IsBlack p) ∧
      page.words = #[1, 0, 0, 0] ∧ page'.words = #[1, 0, 1, 0] := by
  let _ := Transcendentals.ofSquares
  intro r mask wolf
  have hmask : ∀ m ∈ some mask, m.size = r.size := fun m hm => by
    rw [← Option.some.inj hm]
    rfl
  have hread {adjustment : Int} {page : Raster} {e : Estimate} {words : Array Nat}
      (h : binarize r (wolf adjustment) (some mask) = .ok (page, e))
      (hwords : (binarize r (wolf adjustment) (some mask)).toOption.map (·.1.words) = some words) :
      page.words = words := by
    rw [h] at hwords
    exact Option.some.inj hwords
  have hmethod : (wolf 0).AdjustsThresholds := trivial
  obtain ⟨e, e', page, page', hbinarize, hbinarize', hadjusted, hblack⟩ := binarize_adjusted hmethod hmask (-30) 30
  exact ⟨e, e', page, page', hbinarize, hbinarize', hadjusted, hblack (by decide),
    hread hbinarize (by decide +kernel), hread hbinarize' (by decide +kernel)⟩

end ScannedPage.Threshold
