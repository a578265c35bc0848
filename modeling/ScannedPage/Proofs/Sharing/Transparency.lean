import ScannedPage.Proofs.Sharing.History

/-!
# Sharing does not show

What is read through a name after any history is what a copy of its own would show, so an operation bears on its
target only. Who shares shows in the number of holders and in who may take a raster over, and both follow from the
families of the copies.
-/

namespace ScannedPage

namespace Copies

variable {c : Copies} {n : String}

/-- An operation on an immutable raster, refused or not, leaves a name alone if its continuation does. -/
theorem copy?_onFixed {name : String} {next : Nat → Raster → Except Refusal Unit × Copies}
    (hnext : ∀ family r, (next family r).2.copy? n = c.copy? n) : (c.onFixed name next).2.copy? n = c.copy? n := by
  rw [onFixed]
  split
  · exact hnext _ _
  · rfl

/-- An operation on a mutable raster, refused or not, leaves a name alone if its continuation does. -/
theorem copy?_onLoose {name : String} {next : Raster → Except Refusal Unit × Copies}
    (hnext : ∀ r, (next r).2.copy? n = c.copy? n) : (c.onLoose name next).2.copy? n = c.copy? n := by
  rw [onLoose]
  split
  · exact hnext _
  · rfl

/-- An operation that may find no raster to end with leaves a name alone if it does so with every raster. -/
theorem copy?_settleWith {next : Raster → Copies} (hnext : ∀ r, (next r).copy? n = c.copy? n)
    (made : Except Refusal Raster) : (c.settleWith next made).2.copy? n = c.copy? n := by
  cases made with
  | ok r => exact hnext r
  | error why => rfl

/-- A conversion leaves every name alone but the one that it goes to. -/
theorem copy?_converted {other : String} (hn : n ≠ other) (family : Nat) (same : Bool) (r : Raster) :
    (c.converted other family same r).copy? n = c.copy? n := by
  rw [converted]
  split
  · exact (c.copy?_put other n _).trans (if_neg hn)
  · exact (c.copy?_found other n r).trans (if_neg hn)

/-- Without sharing an operation bears on its target only. -/
theorem copy?_perform (op : Operation) (hn : n ≠ op.target) : (c.perform op).2.copy? n = c.copy? n := by
  have hput : ∀ k, (c.put op.target k).copy? n = c.copy? n := fun k => (c.copy?_put _ n k).trans (if_neg hn)
  have hfound : ∀ r, (c.found op.target r).copy? n = c.copy? n := fun r => (c.copy?_found _ n r).trans (if_neg hn)
  cases op with
  | create name made => exact copy?_settleWith hfound _
  | drop name =>
    rw [perform]
    split
    · exact (c.copy?_drop name n).trans (if_neg hn)
    · rfl
  | freeze name => exact copy?_onLoose hfound
  | edit name e => exact copy?_onLoose fun r => copy?_settleWith (fun r => hput _) _
  | setResolution name p => exact copy?_onFixed fun _ r => hfound _
  | takeOver name =>
    apply copy?_onFixed
    intro family r
    split
    · exact hput _
    · rfl
  | share name other => exact copy?_onFixed fun _ _ => hput _
  | copy name other => exact copy?_onFixed fun _ _ => hput _
  | template name other format => exact copy?_onFixed fun _ _ => hput _
  | toGray name other => exact copy?_onFixed fun _ r => copy?_converted hn _ _ _
  | toRgb name other => exact copy?_onFixed fun _ r => copy?_converted hn _ _ _
  | invert name other => exact copy?_onFixed fun _ r => copy?_settleWith hfound _

end Copies

namespace Desk

variable {d : Desk}

/-- A refusal to take a raster over gives back the desk as it was. -/
theorem takeOver?_refused {name : String} {after : Desk} (h : d.takeOver? name = some (false, after)) :
    after = d := by
  simp only [takeOver?, Option.bind_eq_bind, Option.bind_eq_some_iff] at h
  obtain ⟨sheet, _, r, _, h⟩ := h
  split at h <;> simp_all

/-- A refused operation leaves the desk as it was. -/
theorem perform_refused (op : Operation) (why : Refusal) (h : (d.perform op).1 = .error why) :
    (d.perform op).2 = d := by
  have hsettle : ∀ after, (d.settle after).1 = .error why → (d.settle after).2 = d := by
    rintro (_ | after) h
    · rfl
    · cases h
  have hsettleWith : ∀ next made, (d.settleWith next made).1 = .error why → (d.settleWith next made).2 = d := by
    rintro next (cause | r) h
    · rfl
    · cases h
  cases op with
  | create name made => exact hsettleWith _ _ h
  | takeOver name =>
    revert h
    rw [perform]
    split
    · exact fun _ => rfl
    · rintro ⟨⟩
    · next after hafter => exact fun _ => takeOver?_refused hafter
  | edit name e =>
    revert h
    rw [perform]
    split
    · exact fun _ => rfl
    · exact hsettleWith _ _
  | invert name other =>
    revert h
    rw [perform]
    split
    · exact fun _ => rfl
    · exact hsettleWith _ _
  | share name other => exact hsettle _ h
  | drop name => exact hsettle _ h
  | setResolution name p => exact hsettle _ h
  | copy name other => exact hsettle _ h
  | freeze name => exact hsettle _ h
  | template name other format => exact hsettle _ h
  | toGray name other => exact hsettle _ h
  | toRgb name other => exact hsettle _ h

/-- The source of an immutable raster has a sheet, which holds it. -/
theorem immutable?_eq_some {name : String} {r : Raster} (h : d.immutable? name = some r) :
    ∃ sheet, d.sheet? name = some sheet ∧ d.sheets[sheet]? = some r :=
  Option.bind_eq_some_iff.mp h

/-- The name of a clone shares with its source. -/
theorem shares_share {name : String} (other : String) (h : (d.immutable? name).isSome) :
    (d.perform (.share name other)).2.Shares name other := by
  obtain ⟨r, hr⟩ := Option.isSome_iff_exists.mp h
  obtain ⟨sheet, hsheet, _⟩ := immutable?_eq_some hr
  simp only [perform, share?, hsheet, Option.map_some, settle, Shares, sheet?_hold_shared]
  rw [together_moved_joined hsheet]
  simp [Together, hsheet]

section Mirrored

variable {c : Copies} (h : Mirrors d c)
include h

/-- The name of a conversion shares with its source if that had the format, or is the source. -/
theorem shares_convert {name other : String} {r : Raster} (hr : d.immutable? name = some r) (format : PixelFormat)
    (f : Raster → Raster) :
    (d.settle (d.convert? name other format f)).2.Shares name other ↔ r.format = format ∨ name = other := by
  obtain ⟨sheet, hsheet, hr⟩ := immutable?_eq_some hr
  simp only [convert?_eq hsheet hr, settle]
  by_cases hf : r.format = format
  · rw [if_pos hf, Shares, sheet?_hold_shared, together_moved_joined hsheet]
    simp [Together, hsheet, hf]
  · rw [if_neg hf, Shares, sheet?_lay, together_moved_new fun n p hp => Nat.ne_of_lt (h.sheet_lt hp)]
    simp [hf]

/-- A name whose resolution was set shares with nobody else. -/
theorem not_shares_setResolution {name : String} (hname : (d.immutable? name).isSome) (p : Resolution) (n : String)
    (hn : n ≠ name) : ¬ (d.perform (.setResolution name p)).2.Shares name n := by
  obtain ⟨r, hr⟩ := Option.isSome_iff_exists.mp hname
  obtain ⟨sheet, hsheet, hr⟩ := immutable?_eq_some hr
  simp only [perform, setResolution?_eq hsheet hr, settle]
  split
  · next hone =>
    intro hshares
    exact hn ((h.holders_eq_one hsheet).mp hone n ((shares_iff_sheet? hsheet n).mp hshares))
  · rw [Shares, sheet?_lay, together_moved_new fun n p hp => Nat.ne_of_lt (h.sheet_lt hp)]
    simp [hn]

/-- A raster is taken over exactly if it is immutable and nobody else shares it. -/
theorem takeOver_ok (name : String) : (d.perform (.takeOver name)).1 = .ok () ↔
    (d.immutable? name).isSome ∧ ∀ n, d.Shares name n → n = name := by
  cases h.holds name with
  | none hd hc => simp [perform, takeOver?, immutable?, sheet?, hd, refuse]
  | owned r hd hc => simp [perform, takeOver?, immutable?, sheet?, hd, refuse]
  | shared sheet family r hd hr hc =>
    have hsheet := (Mirrors.sheet_and_family hd hc).1
    have hsome : (d.immutable? name).isSome = true := by simp [immutable?, hsheet, hr]
    simp only [perform, takeOver?_eq hsheet hr, hsome, true_and, shares_iff_sheet? hsheet,
      ← h.holders_eq_one hsheet]
    by_cases hone : d.holders sheet = 1 <;> simp [hone]

/-- The number of holders of an immutable raster is the number of names that share it. -/
theorem refCount?_shares {name : String} (hname : (d.immutable? name).isSome) {names : List String}
    (hnodup : names.Nodup) (hmem : ∀ n, n ∈ names ↔ d.Shares name n) : d.refCount? name = some names.length := by
  obtain ⟨r, hr⟩ := Option.isSome_iff_exists.mp hname
  obtain ⟨sheet, hsheet, _⟩ := immutable?_eq_some hr
  have hperm : (carriers d.names (Holding.inSheet sheet)).Perm names := by
    apply (List.perm_ext_iff_of_nodup (h.distinct_names.nodup_carriers _) hnodup).mpr
    intro n
    rw [h.mem_holders, hmem, shares_iff_sheet? hsheet]
  rw [refCount?, hsheet, Option.map_some, holders_eq, hperm.length_eq]

end Mirrored

end Desk

/-- What shows on a desk whose rasters are meant to be copies. -/
structure Transparent (d : Desk) (c : Copies) : Prop where
  immutable?_eq : ∀ name, d.immutable? name = c.immutable? name
  mutable?_eq : ∀ name, d.mutable? name = c.mutable? name
  /-- An operation does not change what is read through a name that it does not give anything new. -/
  others : ∀ op name, name ≠ op.target → (d.perform op).2.immutable? name = d.immutable? name ∧
    (d.perform op).2.mutable? name = d.mutable? name
  refused : ∀ op why, (d.perform op).1 = .error why → (d.perform op).2 = d
  shares_iff : ∀ a b, d.Shares a b ↔ Together c.family? a b
  refCount?_eq : ∀ name, d.refCount? name = c.refCount? name
  refCount?_shares : ∀ name, ∀ names : List String, (d.immutable? name).isSome → names.Nodup →
    (∀ n, n ∈ names ↔ d.Shares name n) → d.refCount? name = some names.length
  takeOver_ok : ∀ name, (d.perform (.takeOver name)).1 = .ok () ↔
    (d.immutable? name).isSome ∧ ∀ n, d.Shares name n → n = name
  shares_share : ∀ name other, (d.immutable? name).isSome → (d.perform (.share name other)).2.Shares name other
  shares_toGray : ∀ name other r, d.immutable? name = some r →
    ((d.perform (.toGray name other)).2.Shares name other ↔ r.format = .gray8 ∨ name = other)
  shares_toRgb : ∀ name other r, d.immutable? name = some r →
    ((d.perform (.toRgb name other)).2.Shares name other ↔ r.format = .rgb32 ∨ name = other)
  not_shares_setResolution : ∀ name p n, (d.immutable? name).isSome → n ≠ name →
    ¬ (d.perform (.setResolution name p)).2.Shares name n

/-- A desk that mirrors copies does not show that it shares. -/
theorem Mirrors.transparent {d : Desk} {c : Copies} (h : Mirrors d c) : Transparent d c where
  immutable?_eq := h.immutable?_eq
  mutable?_eq := h.mutable?_eq
  others op name hname := by
    have hafter := (h.perform op).2
    have hcopy := c.copy?_perform op hname
    rw [hafter.immutable?_eq, hafter.mutable?_eq, h.immutable?_eq, h.mutable?_eq]
    simp only [Copies.immutable?, Copies.mutable?, hcopy, and_self]
  refused := Desk.perform_refused
  shares_iff := h.shares_iff
  refCount?_eq := h.refCount?_eq
  refCount?_shares name names hname hnodup hmem := Desk.refCount?_shares h hname hnodup hmem
  takeOver_ok := Desk.takeOver_ok h
  shares_share name other hname := Desk.shares_share other hname
  shares_toGray name other r hr := Desk.shares_convert h hr .gray8 Raster.toGray
  shares_toRgb name other r hr := Desk.shares_convert h hr .rgb32 Raster.toRgb
  not_shares_setResolution name p n hname hn := Desk.not_shares_setResolution h hname p n hn

/-- A history of rasters that are shared is answered like one of copies, and the sharing does not show. -/
theorem Desk.run_eq_copies (history : List Operation) :
    (Desk.empty.run history).1 = (Copies.empty.run history).1 ∧
      Transparent (Desk.empty.run history).2 (Copies.empty.run history).2 := by
  obtain ⟨hreplies, hafter⟩ := Mirrors.empty.run history
  exact ⟨hreplies, hafter.transparent⟩

end ScannedPage
