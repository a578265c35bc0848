import Mathlib.Data.List.Nodup
import Mathlib.Data.List.Perm.Basic
import ScannedPage.Raster.Operations

/-!
# Rasters that are never shared

The plain model of a desk: every name holds a raster of its own, so an operation changes what its target holds and
nothing else. An immutable raster also belongs to a family. A clone, and a conversion to the format that a raster
has already, stay in the family of their source; whatever else is laid down founds a family. The families do not
bear on what a name reads. They only tell how many names would share the data.
-/

namespace ScannedPage

section Table

variable {α : Type} {l : List (String × α)}

/-- Looking up a name among the entries whose names have a property. -/
theorem lookup_filter_name (f : String → Bool) (l : List (String × α)) (n : String) :
    (l.filter fun e => f e.1).lookup n = if f n then l.lookup n else none := by
  induction l with
  | nil => simp
  | cons e l ih =>
    obtain ⟨name, v⟩ := e
    by_cases hn : n = name
    · subst hn
      cases hf : f n <;> simp [hf, ih]
    · have hne : (n == name) = false := beq_eq_false_iff_ne.mpr hn
      cases hf : f name <;> simp [hf, ih, List.lookup_cons, hne]

/-- Looking up a name after an entry was taken out. -/
theorem lookup_erase (l : List (String × α)) (name n : String) :
    (l.filter (·.1 != name)).lookup n = if n = name then none else l.lookup n := by
  rw [lookup_filter_name (· != name)]
  by_cases h : n = name <;> simp [h]

/-- Looking up a name after an entry was put in. -/
theorem lookup_put (l : List (String × α)) (name : String) (v : α) (n : String) :
    ((name, v) :: l.filter (·.1 != name)).lookup n = if n = name then some v else l.lookup n := by
  by_cases h : n = name
  · simp [h]
  · rw [List.lookup_cons, beq_eq_false_iff_ne.mpr h, if_neg h, lookup_erase, if_neg h]

/-- Every name has at most one entry. -/
def Distinct (l : List (String × α)) : Prop := (l.map Prod.fst).Nodup

/-- Taking an entry out leaves at most one entry for a name. -/
theorem Distinct.erase (h : Distinct l) (name : String) : Distinct (l.filter (·.1 != name)) :=
  h.sublist (List.filter_sublist.map Prod.fst)

/-- Putting an entry in leaves at most one entry for a name. -/
theorem Distinct.put (h : Distinct l) (name : String) (v : α) :
    Distinct ((name, v) :: l.filter (·.1 != name)) := by
  apply List.nodup_cons.mpr
  constructor
  · simp
  · exact h.erase name

/-- The entries are what is looked up. -/
theorem Distinct.mem_iff (h : Distinct l) {n : String} {v : α} : (n, v) ∈ l ↔ l.lookup n = some v := by
  induction l with
  | nil => simp
  | cons e l ih =>
    obtain ⟨name, w⟩ := e
    obtain ⟨hfresh, htail⟩ := List.nodup_cons.mp h
    by_cases hn : n = name
    · subst hn
      have hnot : (n, v) ∉ l := fun hmem => hfresh (List.mem_map.mpr ⟨(n, v), hmem, rfl⟩)
      simp [hnot, eq_comm]
    · have hne : (n == name) = false := beq_eq_false_iff_ne.mpr hn
      simp only [List.lookup_cons, hne, List.mem_cons, Prod.mk.injEq, hn, false_and, false_or]
      exact ih htail

/-- The names of the entries with a property. -/
def carriers (l : List (String × α)) (p : α → Bool) : List String := (l.filter fun e => p e.2).map Prod.fst

/-- A name is listed when what it is looked up as has the property. -/
theorem Distinct.mem_carriers (h : Distinct l) {p : α → Bool} {n : String} :
    n ∈ carriers l p ↔ ∃ v, l.lookup n = some v ∧ p v = true := by
  simp only [carriers, List.mem_map, List.mem_filter, Prod.exists, exists_and_right, exists_eq_right, h.mem_iff]

/-- No name is listed twice. -/
theorem Distinct.nodup_carriers (h : Distinct l) (p : α → Bool) : (carriers l p).Nodup :=
  h.sublist (List.filter_sublist.map Prod.fst)

end Table

/-- What a name holds when nothing is shared. -/
inductive Copy
  /-- An immutable raster of its own, and the family that it belongs to. -/
  | fixed (family : Nat) (raster : Raster)
  /-- A mutable raster. -/
  | loose (raster : Raster)

/-- The family of an immutable raster. -/
def Copy.family? : Copy → Option Nat
  | fixed family _ => some family
  | loose _ => none

/-- The number of families so far, and what each name holds. -/
structure Copies where
  families : Nat
  held : List (String × Copy)

namespace Copies

/-- Nothing is held. -/
def empty : Copies := ⟨0, []⟩

/-- What a name holds. -/
def copy? (c : Copies) (name : String) : Option Copy := c.held.lookup name

/-- The family of an immutable name. -/
def family? (c : Copies) (name : String) : Option Nat := (c.copy? name).bind Copy.family?

/-- The immutable raster of a name. -/
def immutable? (c : Copies) (name : String) : Option Raster :=
  match c.copy? name with
  | some (.fixed _ r) => some r
  | _ => none

/-- The mutable raster of a name. -/
def mutable? (c : Copies) (name : String) : Option Raster :=
  match c.copy? name with
  | some (.loose r) => some r
  | _ => none

/-- The number of names in a family. -/
def members (c : Copies) (family : Nat) : Nat := (c.held.filter fun e => e.2.family? == some family).length

/-- The number of names in the family of an immutable name. -/
def refCount? (c : Copies) (name : String) : Option Nat := (c.family? name).map c.members

/-- No name but the given one is in the family. -/
def alone (c : Copies) (name : String) (family : Nat) : Bool :=
  c.held.all fun e => e.1 == name || e.2.family? != some family

/-- The names after one of them has taken up something new. -/
def put (c : Copies) (name : String) (k : Copy) : Copies :=
  { c with held := (name, k) :: c.held.filter (·.1 != name) }

/-- The names after one of them has let go of what it held. -/
def drop (c : Copies) (name : String) : Copies := { c with held := c.held.filter (·.1 != name) }

/-- Gives a name an immutable raster that founds a family. -/
def found (c : Copies) (name : String) (r : Raster) : Copies :=
  { c.put name (.fixed c.families r) with families := c.families + 1 }

/-- The reply to an operation that ends with a raster or with the reason why there is none. -/
def settleWith (c : Copies) (next : Raster → Copies) : Except Refusal Raster → Except Refusal Unit × Copies
  | .ok r => (.ok (), next r)
  | .error why => (.error why, c)

/-- The reply to an operation on an immutable raster. -/
def onFixed (c : Copies) (name : String) (next : Nat → Raster → Except Refusal Unit × Copies) :
    Except Refusal Unit × Copies :=
  match c.copy? name with
  | some (.fixed family r) => next family r
  | _ => (.error .absent, c)

/-- The reply to an operation on a mutable raster. -/
def onLoose (c : Copies) (name : String) (next : Raster → Except Refusal Unit × Copies) :
    Except Refusal Unit × Copies :=
  match c.copy? name with
  | some (.loose r) => next r
  | _ => (.error .absent, c)

/-- The names after a conversion, which stays in the family of its source if the format is the same. -/
def converted (c : Copies) (other : String) (family : Nat) (same : Bool) (r : Raster) : Copies :=
  if same then c.put other (.fixed family r) else c.found other r

/-- The reply to an operation, and the names after it. -/
def perform (c : Copies) : Operation → Except Refusal Unit × Copies
  | .create name made => c.settleWith (c.found name) (made.result.mapError .fault)
  | .share name other => c.onFixed name fun family r => (.ok (), c.put other (.fixed family r))
  | .drop name => if (c.copy? name).isSome then (.ok (), c.drop name) else (.error .absent, c)
  | .setResolution name p => c.onFixed name fun _ r => (.ok (), c.found name (r.withResolution p))
  | .copy name other => c.onFixed name fun _ r => (.ok (), c.put other (.loose r))
  | .takeOver name => c.onFixed name fun family r =>
      if c.alone name family then (.ok (), c.put name (.loose r)) else (.error .shared, c)
  | .freeze name => c.onLoose name fun r => (.ok (), c.found name r)
  | .edit name e => c.onLoose name fun r => c.settleWith (fun r => c.put name (.loose r)) (e.apply r)
  | .template name other format => c.onFixed name fun _ r => (.ok (), c.put other (.loose (r.template format)))
  | .toGray name other => c.onFixed name fun family r =>
      (.ok (), c.converted other family (r.format = .gray8) r.toGray)
  | .toRgb name other => c.onFixed name fun family r =>
      (.ok (), c.converted other family (r.format = .rgb32) r.toRgb)
  | .invert name other => c.onFixed name fun _ r => c.settleWith (c.found other) (r.invert.mapError .fault)

/-- The replies to a history of operations, and the names after it. -/
def run (c : Copies) : List Operation → List (Except Refusal Unit) × Copies
  | [] => ([], c)
  | op :: history =>
    let (reply, next) := c.perform op
    let (replies, after) := next.run history
    (reply :: replies, after)

end Copies

end ScannedPage
