/-!
# Colour words

A colour is one word of 32 bits: red, green, blue and opacity from the high byte to the low byte.
Channels are natural numbers below 256. The gray level of a colour weighs green over red over blue
in whole 32nds, so that equal channels keep their level (`luminance_compose_self`).
-/

namespace ScannedPage.Color

/-- Opaque white. -/
def white : Nat := 0xffffffff

/-- Opaque black. -/
def black : Nat := 0x000000ff

/-- The red channel. -/
def red (word : Nat) : Nat := word / 0x1000000 % 0x100

/-- The green channel. -/
def green (word : Nat) : Nat := word / 0x10000 % 0x100

/-- The blue channel. -/
def blue (word : Nat) : Nat := word / 0x100 % 0x100

/-- The opaque colour of three channels. -/
def compose (r g b : Nat) : Nat := r * 0x1000000 + g * 0x10000 + b * 0x100 + 0xff

/-- The same colour with full opacity. -/
def solid (word : Nat) : Nat := word / 0x100 * 0x100 + 0xff

/-- The perceived gray level. -/
def luminance (word : Nat) : Nat := (red word * 11 + green word * 16 + blue word * 5) / 32

/-- The red of a colour of three channels is the first of them. -/
theorem red_compose {r g b : Nat} (hr : r < 256) (hg : g < 256) (hb : b < 256) : red (compose r g b) = r := by
  unfold red compose
  omega

/-- The green of a colour of three channels is the second of them. -/
theorem green_compose {r g b : Nat} (hg : g < 256) (hb : b < 256) : green (compose r g b) = g := by
  unfold green compose
  omega

/-- The blue of a colour of three channels is the third of them. -/
theorem blue_compose {r g b : Nat} (hb : b < 256) : blue (compose r g b) = b := by
  unfold blue compose
  omega

/-- The gray level of a colour is a level. -/
theorem luminance_lt (word : Nat) : luminance word < 256 := by
  unfold luminance red green blue
  omega

/-- A gray level written into all three channels is read back. -/
theorem luminance_compose_self {v : Nat} (h : v < 256) : luminance (compose v v v) = v := by
  rw [luminance, red_compose h h h, green_compose h h, blue_compose h]
  omega

end ScannedPage.Color
