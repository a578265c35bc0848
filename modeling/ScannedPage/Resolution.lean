/-!
# Physical resolution

Dots per inch along the two axes of a page. An axis of zero dots carries no physical size, so
such a resolution cannot be resampled from or to.
-/

namespace ScannedPage

/-- Dots per inch along both axes. -/
structure Resolution where
  horizontal : Nat
  vertical : Nat
deriving DecidableEq, Repr

namespace Resolution

/-- The same number of dots along both axes. -/
def uniform (dots : Nat) : Resolution := ⟨dots, dots⟩

/-- Pages that say nothing about their resolution count as 300 dots per inch. -/
def standard : Resolution := uniform 300

instance : Inhabited Resolution := ⟨standard⟩

/-- The coarser of the two axes. -/
def minAxis (r : Resolution) : Nat := min r.horizontal r.vertical

/-- Both axes have dots. -/
def valid (r : Resolution) : Bool := decide (0 < r.horizontal ∧ 0 < r.vertical)

/-- The record as it appears in messages. -/
def describe (r : Resolution) : String :=
  "Dpi \x7b horizontal: " ++ toString r.horizontal ++ ", vertical: " ++ toString r.vertical ++ " \x7d"

end Resolution

/-- The whole number nearest to a length at 300 dots per inch, taken along an axis of `dots`; halves go up. -/
def lengthAt (dots : Nat) (at300 : Nat) : Nat := (at300 * dots + 150) / 300

/-- The number itself if it is odd, and its successor otherwise. -/
def makeOdd (n : Nat) : Nat := if n % 2 = 0 then n + 1 else n

/-- A side made odd is odd. -/
theorem makeOdd_mod_two (n : Nat) : makeOdd n % 2 = 1 := by
  unfold makeOdd
  split <;> omega

end ScannedPage
