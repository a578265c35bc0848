import ScannedPage.Scalar

/-!
# Threshold methods and their parameters

A page names one of four methods with its parameters. Parameters out of range fall back to their
defaults; the parity of a window is settled later, against the page.
-/

namespace ScannedPage.Threshold

variable {K : Type} [Scalar K] [DecidableLE K] [DecidableLT K]

/-- What every local method needs: the side of the window and the weight of the deviation. -/
structure LocalParameters (K : Type) where
  window : Nat
  coefficient : K
deriving BEq, DecidableEq, Repr

/-- A method with its parameters and an adjustment of the thresholds. -/
inductive Method (K : Type)
  /-- One threshold from the histogram. -/
  | otsu (adjustment : Int)
  /-- Local mean and deviation. -/
  | sauvola (parameters : LocalParameters K) (adjustment : Int)
  /-- Local contrast relative to the page, with hard bounds. -/
  | wolf (parameters : LocalParameters K) (adjustment : Int) (lower upper : Nat)
  /-- Distance from the background surface. -/
  | gatos (parameters : LocalParameters K) (scale noiseSigma : K) (adjustment : Int)
deriving BEq, DecidableEq, Repr

/-- The default side of a window. -/
def defaultWindow : Nat := 199

/-- The default coefficient, three tenths. -/
def defaultCoefficient : K := ((3 : Nat) : K) / ((10 : Nat) : K)

/-- The default contrast scale of the background method, six tenths. -/
def defaultScale : K := ((6 : Nat) : K) / ((10 : Nat) : K)

/-- The default standard deviation of the noise. -/
def defaultNoise : K := ((3 : Nat) : K)

/-- The default lower bound of the Wolf rule. -/
def defaultLower : Nat := 1

/-- The default upper bound of the Wolf rule. -/
def defaultUpper : Nat := 254

/-- The default local parameters. -/
def LocalParameters.standard : LocalParameters K := ⟨defaultWindow, defaultCoefficient⟩

/-- Windows outside `1 … 9999` and coefficients outside `0.01 … 9.99` fall back to their defaults. -/
@[specialize]
def LocalParameters.normalized (p : LocalParameters K) : LocalParameters K :=
  let hundred : K := ((100 : Nat) : K)
  ⟨if 1 ≤ p.window ∧ p.window ≤ 9999 then p.window else defaultWindow,
   if ((1 : Nat) : K) / hundred ≤ p.coefficient ∧ p.coefficient ≤ ((999 : Nat) : K) / hundred then
     p.coefficient
   else defaultCoefficient⟩

namespace Method

/-- The histogram method without adjustment applies unless another is named. -/
instance : Inhabited (Method K) := ⟨otsu 0⟩

/-- The method with default parameters. -/
def standardSauvola : Method K := sauvola .standard 0

/-- The method with default parameters. -/
def standardWolf : Method K := wolf .standard 0 defaultLower defaultUpper

/-- The method with default parameters. -/
def standardGatos : Method K := gatos .standard defaultScale defaultNoise 0

/-- The name of the method. -/
def name : Method K → String
  | otsu .. => "otsu"
  | sauvola .. => "sauvola"
  | wolf .. => "wolf"
  | gatos .. => "gatos"

/-- The adjustment of the thresholds. -/
def adjustment : Method K → Int
  | otsu a => a
  | sauvola _ a => a
  | wolf _ a _ _ => a
  | gatos _ _ _ a => a

/-- The method with another adjustment. -/
def withAdjustment (a : Int) : Method K → Method K
  | otsu _ => otsu a
  | sauvola p _ => sauvola p a
  | wolf p _ lower upper => wolf p a lower upper
  | gatos p scale noise _ => gatos p scale noise a

/-- The method with every parameter in range: a scale has to be positive, noise must not be negative,
both finite, and bounds must not be inverted. -/
@[specialize]
def normalized : Method K → Method K
  | otsu a => otsu a
  | sauvola p a => sauvola p.normalized a
  | wolf p a lower upper =>
    if upper < lower then wolf p.normalized a defaultLower defaultUpper else wolf p.normalized a lower upper
  | gatos p scale noise a =>
    let zero : K := ((0 : Nat) : K)
    gatos p.normalized
      (if !Scalar.isFinite scale || decide (scale ≤ zero) then defaultScale else scale)
      (if !Scalar.isFinite noise || decide (noise < zero) then defaultNoise else noise) a

end Method

end ScannedPage.Threshold
