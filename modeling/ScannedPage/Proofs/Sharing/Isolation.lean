import ScannedPage.Proofs.Sharing.Copies

/-!
# A desk that mirrors copies

A desk mirrors the names that hold copies of their own when every name holds the same on both sides, and names
share a sheet exactly if they are of one family. Laying out, giving, letting go and taking a share keep this. So
does a change in place (`Mirrors.amend`), since a sheet is changed only while one name holds it.
-/

namespace ScannedPage

section Together

variable {place : String → Option Nat} {name other : String} {new : Nat}

/-- Two names are at one place. -/
def Together (place : String → Option Nat) (a b : String) : Prop := ∃ p, place a = some p ∧ place b = some p

/-- Places after a name has moved. -/
def moved (place : String → Option Nat) (name : String) (p : Option Nat) (n : String) : Option Nat :=
  if n = name then p else place n

/-- A name that moved to a place of its own is together with itself only. -/
theorem together_moved_new (hnew : ∀ n p, place n = some p → p ≠ new) (a b : String) :
    Together (moved place name (some new)) a b ↔
      a = name ∧ b = name ∨ a ≠ name ∧ b ≠ name ∧ Together place a b := by
  by_cases ha : a = name <;> by_cases hb : b = name
  · simp [Together, moved, ha, hb]
  · simpa [Together, moved, ha, hb] using fun h => hnew b new h rfl
  · simpa [Together, moved, ha, hb] using fun h => hnew a new h rfl
  · simp [Together, moved, ha, hb]

/-- A name without a place is together with nobody. -/
theorem together_moved_none (a b : String) :
    Together (moved place name none) a b ↔ a ≠ name ∧ b ≠ name ∧ Together place a b := by
  by_cases ha : a = name <;> by_cases hb : b = name <;> simp [Together, moved, ha, hb]

/-- A name that moved to the place of another is together with the same names as that. -/
theorem together_moved_joined (hother : place other = some new) (a b : String) :
    Together (moved place name (some new)) a b ↔
      Together place (if a = name then other else a) (if b = name then other else b) := by
  by_cases ha : a = name <;> by_cases hb : b = name <;> simp [Together, moved, ha, hb, hother]

/-- A name that was alone may move to a new place unnoticed. -/
theorem together_moved_alone {p : Nat} (hname : place name = some p) (halone : ∀ n, place n = some p → n = name)
    (hnew : ∀ n p, place n = some p → p ≠ new) (a b : String) :
    Together (moved place name (some new)) a b ↔ Together place a b := by
  rw [together_moved_new hnew]
  constructor
  · rintro (⟨rfl, rfl⟩ | ⟨_, _, h⟩)
    · exact ⟨p, hname, hname⟩
    · exact h
  · rintro ⟨q, ha, hb⟩
    by_cases hq : q = p
    · subst hq
      exact .inl ⟨halone a ha, halone b hb⟩
    · have hne : ∀ n, place n = some q → n ≠ name := by
        rintro n hn rfl
        exact hq (Option.some.inj (hn.symm.trans hname))
      exact .inr ⟨hne a ha, hne b hb, q, ha, hb⟩

end Together

namespace Copies

variable (c : Copies) (name n : String)

/-- What is held after a name has taken up something new. -/
theorem copy?_put (k : Copy) : (c.put name k).copy? n = if n = name then some k else c.copy? n :=
  lookup_put c.held name k n

/-- What is held after a name has let go. -/
theorem copy?_drop : (c.drop name).copy? n = if n = name then none else c.copy? n :=
  lookup_erase c.held name n

/-- What is held after a family was founded. -/
theorem copy?_found (r : Raster) :
    (c.found name r).copy? n = if n = name then some (.fixed c.families r) else c.copy? n :=
  lookup_put c.held name _ n

/-- The families after a name has taken up something new. -/
theorem family?_put (k : Copy) : (c.put name k).family? = moved c.family? name k.family? := by
  funext n
  rw [family?, copy?_put, moved]
  split <;> rfl

/-- The families after a name has let go. -/
theorem family?_drop : (c.drop name).family? = moved c.family? name none := by
  funext n
  rw [family?, copy?_drop, moved]
  split <;> rfl

/-- The families after one was founded. -/
theorem family?_found (r : Raster) : (c.found name r).family? = moved c.family? name (some c.families) := by
  funext n
  rw [family?, copy?_found, moved]
  split <;> rfl

end Copies

namespace Desk

variable (d : Desk) (name n : String)

/-- What is held after a name has taken up something new. -/
theorem holding?_hold (h : Holding) : (d.hold name h).holding? n = if n = name then some h else d.holding? n :=
  lookup_put d.names name h n

/-- What is held after a name has let go. -/
theorem holding?_drop : (d.drop name).holding? n = if n = name then none else d.holding? n :=
  lookup_erase d.names name n

/-- The sheets of names after one has taken a share in a sheet. -/
theorem sheet?_hold_shared (sheet : Nat) :
    (d.hold name (.shared sheet)).sheet? = moved d.sheet? name (some sheet) := by
  funext n
  by_cases hn : n = name <;> simp [sheet?, holding?_hold, moved, hn]

/-- The sheets of names after one was laid out. -/
theorem sheet?_lay (r : Raster) : (d.lay name r).sheet? = moved d.sheet? name (some d.sheets.size) :=
  sheet?_hold_shared { d with sheets := d.sheets.push r } name d.sheets.size

/-- The sheets of names after one was given a mutable raster. -/
theorem sheet?_give (r : Raster) : (d.give name r).sheet? = moved d.sheet? name none := by
  funext n
  by_cases hn : n = name <;> simp [give, sheet?, holding?_hold, moved, hn]

/-- The sheets of names after one has let go. -/
theorem sheet?_drop : (d.drop name).sheet? = moved d.sheet? name none := by
  funext n
  by_cases hn : n = name <;> simp [sheet?, holding?_drop, moved, hn]

/-- Two names share a sheet. -/
def Shares (a b : String) : Prop := Together d.sheet? a b

/-- The names that share with an immutable name are those on its sheet. -/
theorem shares_iff_sheet? {d : Desk} {name : String} {sheet : Nat} (h : d.sheet? name = some sheet) (n : String) :
    d.Shares name n ↔ d.sheet? n = some sheet := by
  simp [Shares, Together, h, eq_comm]

end Desk

/-- A name holds the same on a desk as it does without sharing. -/
inductive Matches (d : Desk) (c : Copies) (name : String) : Prop
  | none (hd : d.holding? name = none) (hc : c.copy? name = none)
  | shared (sheet family : Nat) (r : Raster) (hd : d.holding? name = some (.shared sheet))
      (hr : d.sheets[sheet]? = some r) (hc : c.copy? name = some (.fixed family r))
  | owned (r : Raster) (hd : d.holding? name = some (.owned r)) (hc : c.copy? name = some (.loose r))

/-- A desk holds the same as names without sharing, and shares within families. -/
structure Mirrors (d : Desk) (c : Copies) : Prop where
  distinct_names : Distinct d.names
  distinct_held : Distinct c.held
  holds : ∀ name, Matches d c name
  family_lt : ∀ name family, c.family? name = some family → family < c.families
  shares_iff : ∀ a b, d.Shares a b ↔ Together c.family? a b

namespace Mirrors

/-- Nothing is held on either side. -/
theorem empty : Mirrors Desk.empty Copies.empty where
  distinct_names := List.nodup_nil
  distinct_held := List.nodup_nil
  holds name := .none rfl rfl
  family_lt name family h := by simp [Copies.family?, Copies.copy?, Copies.empty] at h
  shares_iff a b := by
    simp [Desk.Shares, Together, Desk.sheet?, Desk.holding?, Desk.empty, Copies.family?, Copies.copy?,
      Copies.empty]

variable {d : Desk} {c : Copies} (h : Mirrors d c)
include h

/-- Every sheet that is held is laid out. -/
theorem sheet_lt {name : String} {sheet : Nat} (hsheet : d.sheet? name = some sheet) : sheet < d.sheets.size := by
  cases h.holds name with
  | none hd hc => simp [Desk.sheet?, hd] at hsheet
  | owned r hd hc => simp [Desk.sheet?, hd] at hsheet
  | shared s family r hd hr hc =>
    simp only [Desk.sheet?, hd, Option.some.injEq] at hsheet
    subst hsheet
    exact (Array.getElem?_eq_some_iff.mp hr).1

/-- What names hold is still the same when one name was given the same on both sides. -/
theorem holds_moved {d' : Desk} {c' : Copies} {name : String} (hname : Matches d' c' name)
    (hd : ∀ n, n ≠ name → d'.holding? n = d.holding? n) (hc : ∀ n, n ≠ name → c'.copy? n = c.copy? n)
    (hr : ∀ n sheet, n ≠ name → d.sheet? n = some sheet → d'.sheets[sheet]? = d.sheets[sheet]?) (n : String) :
    Matches d' c' n := by
  by_cases hn : n = name
  · exact hn ▸ hname
  · cases h.holds n with
    | none hold copy => exact .none ((hd n hn).trans hold) ((hc n hn).trans copy)
    | owned r hold copy => exact .owned r ((hd n hn).trans hold) ((hc n hn).trans copy)
    | shared sheet family r hold laid copy =>
      have hsheet : d.sheet? n = some sheet := by simp [Desk.sheet?, hold]
      exact .shared sheet family r ((hd n hn).trans hold) ((hr n sheet hn hsheet).trans laid)
        ((hc n hn).trans copy)

/-- Families stay below their number when one name moves to a family below it. -/
theorem family_lt_moved {c' : Copies} {name : String} {p : Option Nat}
    (hmoved : c'.family? = moved c.family? name p)
    (hle : c.families ≤ c'.families) (hp : ∀ f, p = some f → f < c'.families) (n : String) (family : Nat)
    (hfamily : c'.family? n = some family) : family < c'.families := by
  rw [hmoved, moved] at hfamily
  split at hfamily
  · exact hp family hfamily
  · exact Nat.lt_of_lt_of_le (h.family_lt n family hfamily) hle

/-- A raster laid out anew founds a family. -/
theorem lay (name : String) (r : Raster) : Mirrors (d.lay name r) (c.found name r) where
  distinct_names := h.distinct_names.put name _
  distinct_held := h.distinct_held.put name _
  holds := by
    apply h.holds_moved
    · apply Matches.shared d.sheets.size c.families r
      · exact (Desk.holding?_hold _ name name _).trans (if_pos rfl)
      · exact Array.getElem?_push_size
      · exact (c.copy?_found name name r).trans (if_pos rfl)
    · exact fun n hn => (Desk.holding?_hold _ name n _).trans (if_neg hn)
    · exact fun n hn => (c.copy?_found name n r).trans (if_neg hn)
    · intro n sheet _ hsheet
      have hlt := h.sheet_lt hsheet
      exact (Array.getElem?_push_lt hlt).trans (Array.getElem?_eq_getElem hlt).symm
  family_lt := by
    apply h.family_lt_moved (c.family?_found name r)
    · exact Nat.le_succ _
    · rintro f ⟨⟩
      exact Nat.lt_succ_self _
  shares_iff a b := by
    rw [Desk.Shares, Desk.sheet?_lay, Copies.family?_found,
      together_moved_new fun n p hp => Nat.ne_of_lt (h.sheet_lt hp),
      together_moved_new fun n p hp => Nat.ne_of_lt (h.family_lt n p hp), ← h.shares_iff]
    rfl

/-- A mutable raster belongs to no family. -/
theorem give (name : String) (r : Raster) : Mirrors (d.give name r) (c.put name (.loose r)) where
  distinct_names := h.distinct_names.put name _
  distinct_held := h.distinct_held.put name _
  holds := by
    apply h.holds_moved
    · apply Matches.owned r
      · exact (d.holding?_hold name name _).trans (if_pos rfl)
      · exact (c.copy?_put name name _).trans (if_pos rfl)
    · exact fun n hn => (d.holding?_hold name n _).trans (if_neg hn)
    · exact fun n hn => (c.copy?_put name n _).trans (if_neg hn)
    · exact fun _ _ _ _ => rfl
  family_lt := h.family_lt_moved (c.family?_put name _) (Nat.le_refl _) fun f hf => by cases hf
  shares_iff a b := by
    rw [Desk.Shares, Desk.sheet?_give, Copies.family?_put, Copy.family?, together_moved_none, together_moved_none,
      ← h.shares_iff]
    rfl

/-- A name that has let go shares nothing. -/
theorem drop (name : String) : Mirrors (d.drop name) (c.drop name) where
  distinct_names := h.distinct_names.erase name
  distinct_held := h.distinct_held.erase name
  holds := by
    apply h.holds_moved
    · apply Matches.none
      · exact (d.holding?_drop name name).trans (if_pos rfl)
      · exact (c.copy?_drop name name).trans (if_pos rfl)
    · exact fun n hn => (d.holding?_drop name n).trans (if_neg hn)
    · exact fun n hn => (c.copy?_drop name n).trans (if_neg hn)
    · exact fun _ _ _ _ => rfl
  family_lt := h.family_lt_moved (c.family?_drop name) (Nat.le_refl _) fun f hf => by cases hf
  shares_iff a b := by
    rw [Desk.Shares, Desk.sheet?_drop, Copies.family?_drop, together_moved_none, together_moved_none,
      ← h.shares_iff]
    rfl

section Immutable

variable {name : String} {sheet family : Nat} {r : Raster} (hd : d.holding? name = some (.shared sheet))
  (hr : d.sheets[sheet]? = some r) (hc : c.copy? name = some (.fixed family r))
include hd hc

omit h in
/-- The sheet and the family of an immutable name. -/
theorem sheet_and_family : d.sheet? name = some sheet ∧ c.family? name = some family := by
  simp [Desk.sheet?, Copies.family?, Copy.family?, hd, hc]

include hr in
/-- A name that takes a share joins the family. -/
theorem join (other : String) : Mirrors (d.hold other (.shared sheet)) (c.put other (.fixed family r)) where
  distinct_names := h.distinct_names.put other _
  distinct_held := h.distinct_held.put other _
  holds := by
    apply h.holds_moved
    · apply Matches.shared sheet family r
      · exact (d.holding?_hold other other _).trans (if_pos rfl)
      · exact hr
      · exact (c.copy?_put other other _).trans (if_pos rfl)
    · exact fun n hn => (d.holding?_hold other n _).trans (if_neg hn)
    · exact fun n hn => (c.copy?_put other n _).trans (if_neg hn)
    · exact fun _ _ _ _ => rfl
  family_lt := by
    apply h.family_lt_moved (c.family?_put other _) (Nat.le_refl _)
    rintro f ⟨⟩
    exact h.family_lt name family (sheet_and_family hd hc).2
  shares_iff a b := by
    rw [Desk.Shares, Desk.sheet?_hold_shared, Copies.family?_put, Copy.family?,
      together_moved_joined (sheet_and_family hd hc).1, together_moved_joined (sheet_and_family hd hc).2,
      ← h.shares_iff]
    rfl

/-- The names on a sheet are the names in the family. -/
theorem sheet_iff_family (n : String) : d.sheet? n = some sheet ↔ c.family? n = some family := by
  obtain ⟨hsheet, hfamily⟩ := sheet_and_family hd hc
  have hin : c.family? n = some family ↔ Together c.family? name n := by simp [Together, hfamily, eq_comm]
  rw [← Desk.shares_iff_sheet? hsheet, hin]
  exact h.shares_iff name n

/-- A sheet is changed in place while one name holds it, as if that name founded a family. -/
theorem amend (halone : ∀ n, d.sheet? n = some sheet → n = name) (r' : Raster) :
    Mirrors { d with sheets := d.sheets.setIfInBounds sheet r' } (c.found name r') where
  distinct_names := h.distinct_names
  distinct_held := h.distinct_held.put name _
  holds := by
    apply h.holds_moved
    · apply Matches.shared sheet c.families r'
      · exact hd
      · exact Array.getElem?_setIfInBounds_self_of_lt (h.sheet_lt (sheet_and_family hd hc).1)
      · exact (c.copy?_found name name r').trans (if_pos rfl)
    · exact fun _ _ => rfl
    · exact fun n hn => (c.copy?_found name n r').trans (if_neg hn)
    · rintro n s hn hs
      apply Array.getElem?_setIfInBounds_ne
      rintro rfl
      exact hn (halone n hs)
  family_lt := by
    apply h.family_lt_moved (c.family?_found name r') (Nat.le_succ _)
    rintro f ⟨⟩
    exact Nat.lt_succ_self _
  shares_iff a b := by
    have hmember : ∀ n, c.family? n = some family → n = name :=
      fun n hn => halone n ((h.sheet_iff_family hd hc n).mpr hn)
    rw [Copies.family?_found, together_moved_alone (sheet_and_family hd hc).2 hmember
      fun n p hp => Nat.ne_of_lt (h.family_lt n p hp), ← h.shares_iff]
    rfl

end Immutable

end Mirrors

end ScannedPage
