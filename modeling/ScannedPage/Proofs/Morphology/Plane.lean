import Mathlib.Algebra.Notation.Prod
import Mathlib.Logic.Relation
import Mathlib.Tactic.Common

/-!
# Ink in the plane

The pixels of an image together with the white around it make up a plane. Two places touch when they share at least
a corner, and ink falls apart into the parts within which one can go from place to place, each touching the one
before.

Taking ink away keeps these parts as they are (`Retracts`) when every place that is taken lay flat on the rest:
three places in a row on one side of it stay black, and the three on the other side were white (`Flat`). Every part
can then be walked in the rest, with the black row in place of what was taken (`retracts_of_flat`).
-/

namespace ScannedPage.Morphology

/-- A place of the plane that an image lies in. -/
abbrev Place := Int × Int

/-- Two places are the same or share at least a corner. -/
def Touch (p q : Place) : Prop := p.1 ≤ q.1 + 1 ∧ q.1 ≤ p.1 + 1 ∧ p.2 ≤ q.2 + 1 ∧ q.2 ≤ p.2 + 1

/-- A walk over black places leads from one place to another. -/
def Joined (X : Place → Prop) : Place → Place → Prop := Relation.ReflTransGen fun p q => X p ∧ X q ∧ Touch p q

/-- The steps along both axes. -/
def axisSteps : List Place := [(-1, 0), (0, -1), (1, 0), (0, 1)]

/-- The places next to one in a direction: the one straight ahead, and those before and after it in the row
across. -/
def ahead (d : Place) (k : Int) (p : Place) : Place := (p.1 + d.1 + k * d.2, p.2 + d.2 + k * d.1)

/-- How far the places ahead lie to the side. -/
def sides : List Int := [-1, 0, 1]

/-- Places that touch do so in both directions. -/
theorem Touch.symm {p q : Place} (h : Touch p q) : Touch q p := ⟨h.2.1, h.1, h.2.2.2, h.2.2.1⟩

/-- Every place touches itself. -/
theorem Touch.refl (p : Place) : Touch p p := by
  simp only [Touch]
  omega

section Joins

variable {X Y : Place → Prop} {p q : Place}

/-- Black places that touch are joined by a walk of one step. -/
theorem Touch.joined (h : Touch p q) (hp : X p) (hq : X q) : Joined X p q := .single ⟨hp, hq, h⟩

/-- A walk can be taken back. -/
theorem Joined.symm (h : Joined X p q) : Joined X q p := by
  induction h with
  | refl => exact .refl
  | tail _ hstep ih => exact ih.head ⟨hstep.2.1, hstep.1, hstep.2.2.symm⟩

/-- A walk is one over more ink as well. -/
theorem Joined.mono (hXY : ∀ r, X r → Y r) (h : Joined X p q) : Joined Y p q := by
  induction h with
  | refl => exact .refl
  | tail _ hstep ih => exact ih.tail ⟨hXY _ hstep.1, hXY _ hstep.2.1, hstep.2.2⟩

/-- A walk leads over to other ink when each of its steps does. -/
theorem Joined.map {f : Place → Place} (hstep : ∀ p q, Y p → Y q → Touch p q → Joined X (f p) (f q))
    (h : Joined Y p q) : Joined X (f p) (f q) := by
  induction h with
  | refl => exact .refl
  | tail _ hlast ih => exact ih.trans (hstep _ _ hlast.1 hlast.2.1 hlast.2.2)

end Joins

/-- The lesser ink has the same parts as the greater: it reaches every one, and no two of its places are joined by
the rest of the greater ink only. -/
structure Retracts (X Y : Place → Prop) : Prop where
  sub : ∀ p, X p → Y p
  joined : ∀ p q, X p → X q → Joined Y p q → Joined X p q
  reaches : ∀ p, Y p → ∃ q, X q ∧ Joined Y p q

namespace Retracts

variable {X Y Z : Place → Prop}

/-- Ink has the parts that it has. -/
theorem refl (X : Place → Prop) : Retracts X X := ⟨fun _ h => h, fun _ _ _ _ h => h, fun p hp => ⟨p, hp, .refl⟩⟩

/-- Ink may be taken away in several steps. -/
theorem trans (h : Retracts X Y) (h' : Retracts Y Z) : Retracts X Z where
  sub p hp := h'.sub p (h.sub p hp)
  joined p q hp hq hj := h.joined p q hp hq (h'.joined p q (h.sub p hp) (h.sub q hq) hj)
  reaches p hp := by
    obtain ⟨q, hq, hpq⟩ := h'.reaches p hp
    obtain ⟨r, hr, hqr⟩ := h.reaches q hq
    exact ⟨r, hr, hpq.trans (hqr.mono h'.sub)⟩

/-- Places of the lesser ink are joined in both or in none. -/
theorem joined_iff (h : Retracts X Y) {p q : Place} (hp : X p) (hq : X q) : Joined X p q ↔ Joined Y p q :=
  ⟨Joined.mono h.sub, h.joined p q hp hq⟩

end Retracts

/-- Every place of the greater ink only lies flat on the lesser: the row ahead of it is black in both, and the row
behind it is white in both. -/
def Flat (d : Place) (X Y : Place → Prop) : Prop :=
  ∀ p, Y p → ¬ X p → ∀ k ∈ sides, X (ahead d k p) ∧ ¬ Y (ahead (-d) k p)

section Flatness

variable {d : Place} {p q : Place}

/-- A place touches the place straight ahead. -/
theorem touch_ahead (hd : d ∈ axisSteps) : Touch p (ahead d 0 p) := by
  simp only [axisSteps, List.mem_cons, List.not_mem_nil, or_false] at hd
  rcases hd with rfl | rfl | rfl | rfl <;> simp only [Touch, ahead] <;> omega

/-- What touches a place and is not in the row behind it touches the place ahead. -/
theorem Touch.ahead (hd : d ∈ axisSteps) (h : Touch p q) (hbehind : ∀ k ∈ sides, p ≠ ahead (-d) k q) :
    Touch p (Morphology.ahead d 0 q) := by
  obtain ⟨x, y⟩ := p
  obtain ⟨x', y'⟩ := q
  simp only [sides, List.mem_cons, List.not_mem_nil, or_false, forall_eq_or_imp, forall_eq] at hbehind
  simp only [axisSteps, List.mem_cons, List.not_mem_nil, or_false] at hd
  rcases hd with rfl | rfl | rfl | rfl <;>
    simp only [Touch, Morphology.ahead, Prod.fst_neg, Prod.snd_neg, ne_eq, Prod.mk.injEq] at h hbehind ⊢ <;> omega

/-- The places ahead of two that touch do so as well. -/
theorem Touch.ahead_ahead (h : Touch p q) : Touch (Morphology.ahead d 0 p) (Morphology.ahead d 0 q) := by
  simp only [Touch, Morphology.ahead] at h ⊢
  omega

/-- A place ahead has the place itself behind. -/
theorem ahead_neg_ahead (d : Place) (k : Int) (p : Place) : ahead (-d) k (ahead d k p) = p := by
  simp only [ahead, Prod.fst_neg, Prod.snd_neg, Int.mul_neg]
  exact Prod.ext (by omega) (by omega)

/-- The way around what is taken away: a place of the rest stays, and any other goes one step ahead. -/
noncomputable def detour (d : Place) (X : Place → Prop) (p : Place) : Place :=
  haveI := Classical.propDecidable (X p)
  if X p then p else ahead d 0 p

section Detour

variable {X Y : Place → Prop}

/-- The way around leaves the places of the rest. -/
theorem detour_of_mem (hp : X p) : detour d X p = p := if_pos hp

/-- The way around takes the places that are taken away one step ahead. -/
theorem detour_of_not_mem (hp : ¬ X p) : detour d X p = ahead d 0 p := if_neg hp

/-- The way around leads into the rest. -/
theorem Flat.mem_detour (h : Flat d X Y) (hp : Y p) : X (detour d X p) := by
  by_cases hXp : X p
  · rwa [detour_of_mem hXp]
  · rw [detour_of_not_mem hXp]
    exact (h p hp hXp 0 (by decide)).1

/-- A place of the rest that touches one taken away touches the way around it. -/
theorem Flat.touch_ahead (h : Flat d X Y) (hd : d ∈ axisSteps) (hp : Y p) (hq : Y q) (hXq : ¬ X q)
    (htouch : Touch p q) : Touch p (Morphology.ahead d 0 q) := by
  refine htouch.ahead hd fun k hk heq => ?_
  rw [heq] at hp
  exact (h q hq hXq k hk).2 hp

/-- Ways around places that touch do so as well. -/
theorem Flat.touch_detour (h : Flat d X Y) (hd : d ∈ axisSteps) (hp : Y p) (hq : Y q) (htouch : Touch p q) :
    Touch (detour d X p) (detour d X q) := by
  by_cases hXp : X p
  · rw [detour_of_mem hXp]
    by_cases hXq : X q
    · rwa [detour_of_mem hXq]
    · rw [detour_of_not_mem hXq]
      exact h.touch_ahead hd hp hq hXq htouch
  · rw [detour_of_not_mem hXp]
    by_cases hXq : X q
    · rw [detour_of_mem hXq]
      exact (h.touch_ahead hd hq hp hXp htouch.symm).symm
    · rw [detour_of_not_mem hXq]
      exact htouch.ahead_ahead

/-- Taking away ink that lies flat on the rest keeps the parts. -/
theorem retracts_of_flat (hd : d ∈ axisSteps) (hsub : ∀ p, X p → Y p) (h : Flat d X Y) : Retracts X Y where
  sub := hsub
  joined p q hp hq hj := by
    have hmapped := hj.map fun p q hp hq htouch =>
      (h.touch_detour hd hp hq htouch).joined (h.mem_detour hp) (h.mem_detour hq)
    rwa [detour_of_mem hp, detour_of_mem hq] at hmapped
  reaches p hp := by
    refine ⟨detour d X p, h.mem_detour hp, Touch.joined ?_ hp (hsub _ (h.mem_detour hp))⟩
    by_cases hXp : X p
    · rw [detour_of_mem hXp]
      exact .refl p
    · rw [detour_of_not_mem hXp]
      exact Morphology.touch_ahead hd

end Detour

end Flatness

/-- Two inks that come from one by adding to it have the same parts on the places they share, if each of these
touches what both come from. -/
theorem joined_iff_of_core {X Z M : Place → Prop} (hX : Retracts M X) (hZ : Retracts M Z)
    (hnear : ∀ p, Z p → ∃ q, M q ∧ Touch p q) {p q : Place} (hXp : X p) (hZp : Z p) (hXq : X q) (hZq : Z q) :
    Joined X p q ↔ Joined Z p q := by
  obtain ⟨p', hp', hpp'⟩ := hnear p hZp
  obtain ⟨q', hq', hqq'⟩ := hnear q hZq
  have hcore {Y : Place → Prop} (hY : Retracts M Y) (hYp : Y p) (hYq : Y q) : Joined Y p q ↔ Joined M p' q' := by
    have hp := hpp'.joined hYp (hY.sub p' hp')
    have hq := hqq'.joined hYq (hY.sub q' hq')
    rw [hY.joined_iff hp' hq']
    exact ⟨fun h => (hp.symm.trans h).trans hq, fun h => (hp.trans h).trans hq.symm⟩
  rw [hcore hX hXp hXq, hcore hZ hZp hZq]

end ScannedPage.Morphology
