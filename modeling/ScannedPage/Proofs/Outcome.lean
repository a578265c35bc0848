import Mathlib.Tactic.Common

/-!
# Steps that may be refused

A step that `Returns` gives a result, and one with a stated property; steps in a row return when each does under
what the steps before it gave. The other direction reads a result of steps in a row back into the results of the
single steps (`bind_eq_ok`). Steps that may also end with a fault of the machine do not if each of them does what a
plain step does (`run_bind_eq_some`). Two runs are compared step by step: steps are `Alike` when both end with the
same fault or both give results that are related.
-/

namespace ScannedPage

variable {ε ε' α β : Type}

/-- The step is not refused, and its result has the property. -/
def Returns (step : Except ε α) (Q : α → Prop) : Prop := ∃ v, step = .ok v ∧ Q v

/-- A result with the property is returned. -/
theorem returns_ok {Q : α → Prop} {v : α} (h : Q v) : Returns (Except.ok v : Except ε α) Q := ⟨v, rfl, h⟩

/-- A pure result with the property is returned. -/
theorem returns_pure {Q : α → Prop} {v : α} (h : Q v) : Returns (pure v : Except ε α) Q := ⟨v, rfl, h⟩

/-- A step returns after another if it does so for every result that one may give. -/
theorem Returns.bind {step : Except ε α} {next : α → Except ε β} {Q : α → Prop} {R : β → Prop}
    (h : Returns step Q) (hnext : ∀ v, Q v → Returns (next v) R) : Returns (step >>= next) R := by
  obtain ⟨v, rfl, hv⟩ := h
  exact hnext v hv

/-- Another name for the faults of a step changes nothing in its results. -/
theorem Returns.mapError {step : Except ε α} {Q : α → Prop} (h : Returns step Q) (f : ε → ε') :
    Returns (step.mapError f) Q := by
  obtain ⟨v, rfl, hv⟩ := h
  exact ⟨v, rfl, hv⟩

/-- A function of the result carries the property along. -/
theorem Returns.map {step : Except ε α} {Q : α → Prop} {R : β → Prop} {f : α → β} (h : Returns step Q)
    (hf : ∀ v, Q v → R (f v)) : Returns (f <$> step) R := by
  obtain ⟨v, rfl, hv⟩ := h
  exact ⟨f v, rfl, hf v hv⟩

/-- A step that returns one property returns every weaker one. -/
theorem Returns.mono {step : Except ε α} {Q R : α → Prop} (h : Returns step Q) (hQ : ∀ v, Q v → R v) :
    Returns step R := by
  obtain ⟨v, hv, hq⟩ := h
  exact ⟨v, hv, hQ v hq⟩

/-- What a step returns is the result it is known to give. -/
theorem Returns.of_eq_ok {step : Except ε α} {Q : α → Prop} {v : α} (h : Returns step Q) (hv : step = .ok v) :
    Q v := by
  obtain ⟨w, hw, hq⟩ := h
  exact Except.ok.inj (hw.symm.trans hv) ▸ hq

/-- Steps in a row give a result when each of them does. -/
theorem bind_eq_ok {step : Except ε α} {next : α → Except ε β} {w : β} :
    step >>= next = .ok w ↔ ∃ v, step = .ok v ∧ next v = .ok w := by
  cases step <;> simp [Bind.bind, Except.bind]

/-- A pure step gives its value. -/
theorem pure_eq_ok {v w : α} : (pure v : Except ε α) = .ok w ↔ v = w := by
  simp [pure, Except.pure]

/-- A function of the result gives what it makes of a result. -/
theorem map_eq_ok {step : Except ε α} {f : α → β} {w : β} : f <$> step = .ok w ↔ ∃ v, step = .ok v ∧ f v = w := by
  cases step <;> simp [Functor.map, Except.map]

/-- Another name for the faults of a step leaves its results. -/
theorem mapError_eq_ok {step : Except ε α} {f : ε → ε'} {v : α} : step.mapError f = .ok v ↔ step = .ok v := by
  cases step <;> simp [Except.mapError]

/-- A step that may also fail stays without such a fault if what follows is without it. -/
theorem run_bind_eq_some {step : ExceptT ε Option α} {next : α → ExceptT ε Option β} {plain : Except ε α}
    {plainNext : α → Except ε β} (h : step.run = some plain)
    (hnext : ∀ v, plain = .ok v → (next v).run = some (plainNext v)) :
    (step >>= next).run = some (plain >>= plainNext) := by
  rw [ExceptT.run_bind, h]
  cases plain with
  | error fault => rfl
  | ok v => exact hnext v rfl

/-- Two steps with one outcome: the same fault, or related results. -/
inductive Alike (R : α → β → Prop) : Except ε α → Except ε β → Prop
  | error (fault : ε) : Alike R (.error fault) (.error fault)
  | ok {v : α} {w : β} (h : R v w) : Alike R (.ok v) (.ok w)

namespace Alike

variable {α' β' : Type} {R : α → β → Prop} {S : α' → β' → Prop} {step : Except ε α} {step' : Except ε β}

/-- Pure results are alike when they are related. -/
theorem pure {v : α} {w : β} (h : R v w) : Alike R (Pure.pure v : Except ε α) (Pure.pure w) := .ok h

/-- A step is like itself, and its result is related to itself. -/
theorem refl (step : Except ε α) : Alike (fun v w => step = .ok v ∧ w = v) step step := by
  cases step with
  | error fault => exact .error fault
  | ok v => exact .ok ⟨rfl, rfl⟩

/-- Steps that go on alike from related results stay alike. -/
theorem bind {next : α → Except ε α'} {next' : β → Except ε β'} (h : Alike R step step')
    (hnext : ∀ v w, R v w → Alike S (next v) (next' w)) : Alike S (step >>= next) (step' >>= next') := by
  cases h with
  | error fault => exact .error fault
  | ok h => exact hnext _ _ h

/-- Another name for the faults leaves steps alike. -/
theorem mapError (h : Alike R step step') (f : ε → ε') : Alike R (step.mapError f) (step'.mapError f) := by
  cases h with
  | error fault => exact .error (f fault)
  | ok h => exact .ok h

/-- Steps that are alike are so under every weaker relation. -/
theorem mono {Q : α → β → Prop} (h : Alike R step step') (hQ : ∀ v w, R v w → Q v w) : Alike Q step step' := by
  cases h with
  | error fault => exact .error fault
  | ok h => exact .ok (hQ _ _ h)

/-- Steps with the same results are the same. -/
theorem eq {step step' : Except ε α} (h : Alike (fun v w => w = v) step step') : step' = step := by
  cases h with
  | error fault => rfl
  | ok h => rw [h]

/-- Where one of two steps gives a result, the other gives a related one. -/
theorem exists_ok {v : α} (h : Alike R step step') (hstep : step = .ok v) : ∃ w, step' = .ok w ∧ R v w := by
  subst hstep
  cases h with
  | ok h => exact ⟨_, rfl, h⟩

end Alike

end ScannedPage
