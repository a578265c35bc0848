import ScannedPage.Page.Error

/-!
# Cancellation

A token tells work whether it was called off. Tokens that were copied from each other share one flag,
so one of them calls off all; the desk of tokens remembers which flag each token reads.
-/

namespace ScannedPage

/-- The flags raised so far, and the flag that each token reads. -/
structure CancelTokens where
  flags : Array Bool
  tokens : Array Nat

namespace CancelTokens

/-- One token that is not cancelled. -/
def single : CancelTokens := ⟨#[false], #[0]⟩

/-- One more token with a flag of its own. -/
def fresh (c : CancelTokens) : CancelTokens := ⟨c.flags.push false, c.tokens.push c.flags.size⟩

/-- One more token that shares the flag of another. -/
def copy (c : CancelTokens) (token : Nat) : CancelTokens :=
  { c with tokens := c.tokens.push (c.tokens.getD token c.flags.size) }

/-- Raises the flag of a token. -/
def cancel (c : CancelTokens) (token : Nat) : CancelTokens :=
  { c with flags := c.flags.setIfInBounds (c.tokens.getD token c.flags.size) true }

/-- The flag of a token is raised. -/
def isCancelled (c : CancelTokens) (token : Nat) : Bool :=
  c.flags.getD (c.tokens.getD token c.flags.size) false

end CancelTokens

/-- Lets work go on unless it was called off. -/
def checkpoint (cancelled : Bool) : Except PageError Unit := if cancelled then .error .cancelled else .ok ()

end ScannedPage
