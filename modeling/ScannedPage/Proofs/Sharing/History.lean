import ScannedPage.Proofs.Sharing.Isolation

/-!
# Histories of a desk

A sheet has as many holders as its family has members, so a desk that looks at the number of holders decides as the
copies do. Each operation is then answered alike and leaves a desk that mirrors the copies (`Mirrors.perform`), and
so does every history of operations (`Mirrors.run`).
-/

namespace ScannedPage

section Carriers

variable {α β : Type}

/-- The one carrier of a property is alone with it. -/
theorem Distinct.length_carriers_eq_one {l : List (String × α)} (h : Distinct l) {p : α → Bool} {name : String}
    (hname : name ∈ carriers l p) : (carriers l p).length = 1 ↔ ∀ n ∈ carriers l p, n = name := by
  constructor
  · intro hone n hn
    obtain ⟨a, ha⟩ := List.length_eq_one_iff.mp hone
    rw [ha, List.mem_singleton] at hname hn
    exact hn.trans hname.symm
  · intro hall
    have hrep := List.eq_replicate_of_mem hall
    have hle : (carriers l p).length ≤ 1 := List.nodup_replicate.mp (hrep ▸ h.nodup_carriers p)
    exact Nat.le_antisymm hle (List.length_pos_of_mem hname)

/-- Two properties with the same carriers are carried equally often. -/
theorem length_carriers_congr {l : List (String × α)} {l' : List (String × β)} (h : Distinct l) (h' : Distinct l')
    {p : α → Bool} {q : β → Bool} (heq : ∀ n, n ∈ carriers l p ↔ n ∈ carriers l' q) :
    (carriers l p).length = (carriers l' q).length :=
  ((List.perm_ext_iff_of_nodup (h.nodup_carriers p) (h'.nodup_carriers q)).mpr heq).length_eq

end Carriers

/-- The holding is a share in the sheet. -/
def Holding.inSheet (sheet : Nat) : Holding → Bool
  | .shared s => s == sheet
  | .owned _ => false

/-- The holders of a sheet, by name. -/
theorem Desk.holders_eq (d : Desk) (sheet : Nat) :
    d.holders sheet = (carriers d.names (Holding.inSheet sheet)).length := by
  rw [carriers, List.length_map]
  rfl

/-- The members of a family, by name. -/
theorem Copies.members_eq (c : Copies) (family : Nat) :
    c.members family = (carriers c.held fun k => k.family? == some family).length := by
  rw [carriers, List.length_map]
  rfl

namespace Mirrors

variable {d : Desk} {c : Copies} (h : Mirrors d c)
include h

/-- The holders of a sheet are the names on it. -/
theorem mem_holders {sheet : Nat} {n : String} :
    n ∈ carriers d.names (Holding.inSheet sheet) ↔ d.sheet? n = some sheet := by
  rw [h.distinct_names.mem_carriers, Desk.sheet?, Desk.holding?]
  cases d.names.lookup n with
  | none => simp
  | some k => cases k <;> simp [Holding.inSheet]

/-- A sheet has one holder if no other name is on it. -/
theorem holders_eq_one {name : String} {sheet : Nat} (hsheet : d.sheet? name = some sheet) :
    d.holders sheet = 1 ↔ ∀ n, d.sheet? n = some sheet → n = name := by
  rw [d.holders_eq, h.distinct_names.length_carriers_eq_one (h.mem_holders.mpr hsheet)]
  simp only [h.mem_holders]

/-- The members of a family are the names in it. -/
theorem mem_members {family : Nat} {n : String} :
    (n ∈ carriers c.held fun k => k.family? == some family) ↔ c.family? n = some family := by
  rw [h.distinct_held.mem_carriers]
  simp [Copies.family?, Copies.copy?, Option.bind_eq_some_iff]

/-- A name is alone in its family if nobody else is in it. -/
theorem alone_iff (name : String) (family : Nat) :
    c.alone name family = true ↔ ∀ n, c.family? n = some family → n = name := by
  simp only [Copies.alone, List.all_eq_true, Bool.or_eq_true, beq_iff_eq, bne_iff_ne, Prod.forall,
    h.distinct_held.mem_iff, Copies.family?, Copies.copy?, Option.bind_eq_some_iff]
  constructor
  · rintro hall n ⟨k, hk, hfamily⟩
    exact (hall n k hk).resolve_right fun hne => hne hfamily
  · intro hall n k hk
    by_cases hfamily : k.family? = some family
    · exact .inl (hall n ⟨k, hk, hfamily⟩)
    · exact .inr hfamily

section Immutable

variable {name : String} {sheet family : Nat} {r : Raster} (hd : d.holding? name = some (.shared sheet))
  (hr : d.sheets[sheet]? = some r) (hc : c.copy? name = some (.fixed family r))
include hd hc

/-- A sheet has as many holders as the family has members. -/
theorem holders_eq_members : d.holders sheet = c.members family := by
  rw [d.holders_eq, c.members_eq]
  apply length_carriers_congr h.distinct_names h.distinct_held
  intro n
  rw [h.mem_holders, h.mem_members]
  exact h.sheet_iff_family hd hc n

/-- A sheet has one holder exactly if its name is alone in the family. -/
theorem holders_eq_one_iff_alone : d.holders sheet = 1 ↔ c.alone name family = true := by
  rw [h.holders_eq_one (sheet_and_family hd hc).1, h.alone_iff]
  simp only [h.sheet_iff_family hd hc]

end Immutable

/-- Both sides read the same through a name. -/
theorem immutable?_eq (name : String) : d.immutable? name = c.immutable? name := by
  cases h.holds name with
  | none hd hc => simp [Desk.immutable?, Desk.sheet?, Copies.immutable?, hd, hc]
  | owned r hd hc => simp [Desk.immutable?, Desk.sheet?, Copies.immutable?, hd, hc]
  | shared sheet family r hd hr hc => simp [Desk.immutable?, Desk.sheet?, Copies.immutable?, hd, hr, hc]

/-- Both sides have the same mutable raster under a name. -/
theorem mutable?_eq (name : String) : d.mutable? name = c.mutable? name := by
  cases h.holds name with
  | none hd hc => simp [Desk.mutable?, Copies.mutable?, hd, hc]
  | owned r hd hc => simp [Desk.mutable?, Copies.mutable?, hd, hc]
  | shared sheet family r hd hr hc => simp [Desk.mutable?, Copies.mutable?, hd, hc]

/-- The holders of the sheet of a name are the members of its family. -/
theorem refCount?_eq (name : String) : d.refCount? name = c.refCount? name := by
  cases h.holds name with
  | none hd hc => simp [Desk.refCount?, Desk.sheet?, Copies.refCount?, Copies.family?, hd, hc]
  | owned r hd hc => simp [Desk.refCount?, Desk.sheet?, Copies.refCount?, Copies.family?, Copy.family?, hd, hc]
  | shared sheet family r hd hr hc =>
    obtain ⟨hsheet, hfamily⟩ := sheet_and_family hd hc
    rw [Desk.refCount?, Copies.refCount?, hsheet, hfamily, Option.map_some, Option.map_some,
      h.holders_eq_members hd hc]

end Mirrors

namespace Desk

variable {d : Desk} {name : String} {sheet : Nat} {r : Raster} (hsheet : d.sheet? name = some sheet)
  (hr : d.sheets[sheet]? = some r)
include hsheet hr

/-- A resolution is set in place on a sheet with one holder, else on a new sheet. -/
theorem setResolution?_eq (p : Resolution) : d.setResolution? name p = some
    (if d.holders sheet = 1 then { d with sheets := d.sheets.setIfInBounds sheet (r.withResolution p) }
      else d.lay name (r.withResolution p)) := by
  simp only [setResolution?, hsheet, hr, Option.bind_eq_bind, Option.bind_some]
  split <;> rfl

/-- The raster of a sheet with one holder is taken over. -/
theorem takeOver?_eq :
    d.takeOver? name = some (if d.holders sheet = 1 then (true, d.give name r) else (false, d)) := by
  simp only [takeOver?, hsheet, hr, Option.bind_eq_bind, Option.bind_some]
  split <;> rfl

/-- A conversion to the format of the sheet shares it. -/
theorem convert?_eq (other : String) (format : PixelFormat) (f : Raster → Raster) :
    d.convert? name other format f =
    some (if r.format = format then d.hold other (.shared sheet) else d.lay other (f r)) := by
  simp only [convert?, hsheet, hr, Option.bind_eq_bind, Option.bind_some]
  split <;> rfl

end Desk

/-- Both sides give one answer, and mirror each other afterwards. -/
def Answers (x : Except Refusal Unit × Desk) (y : Except Refusal Unit × Copies) : Prop :=
  x.1 = y.1 ∧ Mirrors x.2 y.2

namespace Mirrors

variable {d : Desk} {c : Copies} (h : Mirrors d c)
include h

/-- Both sides refuse alike. -/
theorem refuse (why : Refusal) : Answers (d.refuse why) (.error why, c) := ⟨rfl, h⟩

/-- Both sides settle alike with a raster or with the reason why there is none. -/
theorem settleWith {next : Raster → Desk} {next' : Raster → Copies} (hnext : ∀ r, Mirrors (next r) (next' r))
    (made : Except Refusal Raster) : Answers (d.settleWith next made) (c.settleWith next' made) := by
  cases made with
  | ok r => exact ⟨rfl, hnext r⟩
  | error why => exact h.refuse why

/-- An operation on an immutable raster is refused alike where there is none. -/
theorem onFixed {name : String} {x : Except Refusal Unit × Desk}
    {next : Nat → Raster → Except Refusal Unit × Copies}
    (habsent : d.sheet? name = none → x = d.refuse .absent)
    (hpresent : ∀ sheet family r, d.holding? name = some (.shared sheet) → d.sheets[sheet]? = some r →
      c.copy? name = some (.fixed family r) → Answers x (next family r)) :
    Answers x (c.onFixed name next) := by
  cases h.holds name with
  | none hd hc =>
    rw [habsent (by simp [Desk.sheet?, hd]), Copies.onFixed, hc]
    exact h.refuse _
  | owned r hd hc =>
    rw [habsent (by simp [Desk.sheet?, hd]), Copies.onFixed, hc]
    exact h.refuse _
  | shared sheet family r hd hr hc =>
    rw [Copies.onFixed, hc]
    exact hpresent sheet family r hd hr hc

/-- An operation on a mutable raster is refused alike where there is none. -/
theorem onLoose {name : String} {x : Except Refusal Unit × Desk} {next : Raster → Except Refusal Unit × Copies}
    (habsent : d.mutable? name = none → x = d.refuse .absent)
    (hpresent : ∀ r, d.mutable? name = some r → Answers x (next r)) : Answers x (c.onLoose name next) := by
  cases h.holds name with
  | none hd hc =>
    rw [habsent (by simp [Desk.mutable?, hd]), Copies.onLoose, hc]
    exact h.refuse _
  | shared sheet family r hd hr hc =>
    rw [habsent (by simp [Desk.mutable?, hd]), Copies.onLoose, hc]
    exact h.refuse _
  | owned r hd hc =>
    rw [Copies.onLoose, hc]
    exact hpresent r (by simp [Desk.mutable?, hd])

/-- An operation that only reads an immutable raster is refused alike where there is none. -/
theorem onImmutable {name : String} {x : Except Refusal Unit × Desk} {next : Raster → Except Refusal Unit × Copies}
    (habsent : d.immutable? name = none → x = d.refuse .absent)
    (hpresent : ∀ r, d.immutable? name = some r → Answers x (next r)) :
    Answers x (c.onFixed name fun _ r => next r) := by
  apply h.onFixed
  · intro hsheet
    exact habsent (by simp [Desk.immutable?, hsheet])
  · intro sheet family r hd hr _
    exact hpresent r (by simp [Desk.immutable?, Desk.sheet?, hd, hr])

/-- A conversion that keeps rasters of its format shares them, and lays out the others. -/
theorem convert (name other : String) {format : PixelFormat} {f : Raster → Raster}
    (hsame : ∀ r : Raster, r.format = format → f r = r) :
    Answers (d.settle (d.convert? name other format f))
      (c.onFixed name fun family r => (.ok (), c.converted other family (r.format = format) (f r))) := by
  apply h.onFixed
  · intro hsheet
    simp [Desk.convert?, hsheet, Desk.settle]
  · intro sheet family r hd hr hc
    have hsheet := (sheet_and_family hd hc).1
    rw [Desk.convert?_eq hsheet hr, Copies.converted, Desk.settle]
    by_cases hf : r.format = format
    · rw [if_pos hf, if_pos (decide_eq_true hf), hsame r hf]
      exact ⟨rfl, h.join hd hr hc other⟩
    · rw [if_neg hf, if_neg (by simpa using hf)]
      exact ⟨rfl, h.lay other (f r)⟩

/-- A resolution is set in place or on a sheet of its own. -/
theorem setResolution (name : String) (p : Resolution) :
    Answers (d.perform (.setResolution name p)) (c.perform (.setResolution name p)) := by
  apply h.onFixed
  · intro hsheet
    simp [Desk.perform, Desk.setResolution?, hsheet, Desk.settle]
  · intro sheet family r hd hr hc
    have hsheet := (sheet_and_family hd hc).1
    rw [Desk.perform, Desk.setResolution?_eq hsheet hr, Desk.settle]
    split
    · next hone => exact ⟨rfl, h.amend hd hc ((h.holders_eq_one hsheet).mp hone) _⟩
    · exact ⟨rfl, h.lay name _⟩

/-- A raster is taken over by the name that is alone with it. -/
theorem takeOver (name : String) : Answers (d.perform (.takeOver name)) (c.perform (.takeOver name)) := by
  apply h.onFixed
  · intro hsheet
    simp [Desk.perform, Desk.takeOver?, hsheet]
  · intro sheet family r hd hr hc
    have hsheet := (sheet_and_family hd hc).1
    have halone := h.holders_eq_one_iff_alone hd hc
    rw [Desk.perform, Desk.takeOver?_eq hsheet hr]
    by_cases hone : d.holders sheet = 1
    · rw [if_pos (halone.mp hone), if_pos hone]
      exact ⟨rfl, h.give name r⟩
    · rw [if_neg (mt halone.mpr hone), if_neg hone]
      exact h.refuse .shared

/-- A name lets go alike. -/
theorem release (name : String) : Answers (d.perform (.drop name)) (c.perform (.drop name)) := by
  have hdrop := h.drop name
  cases h.holds name with
  | none hd hc => simpa [Desk.perform, Desk.settle, Copies.perform, hd, hc] using h.refuse .absent
  | owned r hd hc => simpa [Desk.perform, Desk.settle, Copies.perform, hd, hc, Answers] using hdrop
  | shared sheet family r hd hr hc =>
    simpa [Desk.perform, Desk.settle, Copies.perform, hd, hc, Answers] using hdrop

/-- Every operation is answered alike. -/
theorem perform (op : Operation) : Answers (d.perform op) (c.perform op) := by
  cases op with
  | create name made => exact h.settleWith (h.lay name) _
  | share name other =>
    apply h.onFixed
    · intro hsheet
      simp [Desk.perform, Desk.share?, hsheet, Desk.settle]
    · intro sheet family r hd hr hc
      simp only [Desk.perform, Desk.share?, (sheet_and_family hd hc).1, Option.map_some, Desk.settle]
      exact ⟨rfl, h.join hd hr hc other⟩
  | drop name => exact h.release name
  | setResolution name p => exact h.setResolution name p
  | copy name other =>
    apply h.onImmutable
    · intro hnone
      simp [Desk.perform, Desk.copy?, hnone, Desk.settle]
    · intro r hr
      simp only [Desk.perform, Desk.copy?, hr, Option.map_some, Desk.settle]
      exact ⟨rfl, h.give other r⟩
  | takeOver name => exact h.takeOver name
  | freeze name =>
    apply h.onLoose
    · intro hnone
      simp [Desk.perform, Desk.freeze?, hnone, Desk.settle]
    · intro r hr
      simp only [Desk.perform, Desk.freeze?, hr, Option.map_some, Desk.settle]
      exact ⟨rfl, h.lay name r⟩
  | edit name e =>
    apply h.onLoose
    · intro hnone
      simp [Desk.perform, hnone]
    · intro r hr
      simp only [Desk.perform, hr]
      exact h.settleWith (h.give name) _
  | template name other format =>
    apply h.onImmutable
    · intro hnone
      simp [Desk.perform, hnone, Desk.settle]
    · intro r hr
      simp only [Desk.perform, hr, Option.map_some, Desk.settle]
      exact ⟨rfl, h.give other _⟩
  | toGray name other => exact h.convert name other fun _ hf => if_pos hf
  | toRgb name other => exact h.convert name other fun _ hf => if_pos hf
  | invert name other =>
    apply h.onImmutable
    · intro hnone
      simp [Desk.perform, hnone]
    · intro r hr
      simp only [Desk.perform, hr]
      exact h.settleWith (h.lay other) _

/-- Every history is answered alike. -/
theorem run (history : List Operation) :
    (d.run history).1 = (c.run history).1 ∧ Mirrors (d.run history).2 (c.run history).2 := by
  induction history generalizing d c with
  | nil => exact ⟨rfl, h⟩
  | cons op history ih =>
    obtain ⟨hreply, hnext⟩ := h.perform op
    obtain ⟨hreplies, hafter⟩ := ih hnext
    exact ⟨congrArg₂ List.cons hreply hreplies, hafter⟩

end Mirrors

end ScannedPage
