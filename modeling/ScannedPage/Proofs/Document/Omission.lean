import Mathlib.Data.List.Basic
import ScannedPage.Document.Value

/-!
# Documents with fields left out

A field of a document is found by a way: the names of the fields and the places in the lists that lead to it. Any
choice of fields can be left out of a document (`Value.prune`), at every depth at once. A record with texts as
names is then read as before, but for the names that are missing (`slots?_prune`), and so is the word of a choice
as long as it stays (`choice?_prune`).
-/

namespace ScannedPage

/-- A step from a part of a document into a part of that. -/
inductive Key
  | field (name : String)
  | item (place : Nat)
deriving DecidableEq

/-- Which fields to leave out, by the way to each. -/
abbrev Omission := List Key → Bool

namespace Omission

/-- The choice of no field at all. -/
def nothing : Omission := fun _ => false

/-- What to leave out of a part. -/
def under (o : Omission) (key : Key) : Omission := fun way => o (key :: way)

/-- Whether to leave out the field of a name; only texts name a field. -/
def drops (o : Omission) : Value → Bool
  | .text name => o [.field name]
  | _ => false

/-- What to leave out of the value under a name. -/
def within (o : Omission) : Value → Omission
  | .text name => o.under (.field name)
  | _ => nothing

/-- A field that is left out has its default. -/
def reset {α : Type} (o : Omission) (name : String) (default value : α) : α :=
  if o [.field name] then default else value

/-- Nothing is left out. The way without any step leads to no field. -/
def IsNone (o : Omission) : Prop := ∀ key way, o (key :: way) = false

/-- By the choice of no field nothing is left out. -/
theorem isNone_nothing : nothing.IsNone := fun _ _ => rfl

/-- Only fields of a kind are left out. -/
def Only (o : Omission) (kind : List Key → Prop) : Prop := ∀ key way, o (key :: way) = true → kind (key :: way)

variable {o : Omission} {kind kind' : List Key → Prop} {key : Key}

/-- Where nothing is left out, nothing is left out of a part. -/
theorem IsNone.under (h : o.IsNone) (key : Key) : (o.under key).IsNone := fun _ _ => h _ _

/-- Where nothing is left out, every field stays. -/
theorem IsNone.drops (h : o.IsNone) : (name : Value) → o.drops name = false
  | .text _ => h _ _
  | .null | .bool _ | .int _ | .float _ | .list _ | .record _ | .plain _ | .tagged .. | .unreadable => rfl

/-- Where nothing is left out, every field stays as it is. -/
theorem IsNone.within (h : o.IsNone) : (name : Value) → (o.within name).IsNone
  | .text _ => h.under _
  | .null | .bool _ | .int _ | .float _ | .list _ | .record _ | .plain _ | .tagged .. | .unreadable =>
    isNone_nothing

/-- Where nothing is left out, no field has its default for that. -/
theorem IsNone.reset {α : Type} (h : o.IsNone) (name : String) (default value : α) :
    o.reset name default value = value := by
  rw [Omission.reset, h]
  rfl

/-- Where only fields of a kind are left out, every other field stays. -/
theorem Only.stays (h : o.Only kind) {name : String} (hkind : ¬ kind [.field name]) : o [.field name] = false :=
  Bool.eq_false_iff.mpr fun ho => hkind (h _ _ ho)

/-- Where only fields of a kind are left out, nothing is left out of a part without such a field. -/
theorem Only.isNone_under (h : o.Only kind) (hkind : ∀ key' way, ¬ kind (key :: key' :: way)) :
    (o.under key).IsNone :=
  fun key' way => Bool.eq_false_iff.mpr fun ho => hkind key' way (h _ _ ho)

/-- Where only fields of a kind are left out, a part loses only those of the kind that lie in it. -/
theorem Only.under (h : o.Only kind) (hkind : ∀ key' way, kind (key :: key' :: way) → kind' (key' :: way)) :
    (o.under key).Only kind' :=
  fun key' way ho => hkind key' way (h _ _ ho)

end Omission

namespace Value

mutual

/-- The value without the fields to leave out. -/
def prune (o : Omission) : Value → Value
  | list items => list (pruneItems o 0 items)
  | record fields => record (pruneFields o fields)
  | tagged tag v => tagged tag (v.prune o)
  | null => null
  | bool b => bool b
  | int i => int i
  | float x => float x
  | text s => text s
  | plain s => plain s
  | unreadable => unreadable

/-- The items from a place on, without the fields to leave out. -/
def pruneItems (o : Omission) (place : Nat) : List Value → List Value
  | [] => []
  | v :: rest => v.prune (o.under (.item place)) :: pruneItems o (place + 1) rest

/-- The fields that stay, each without the fields to leave out of it. -/
def pruneFields (o : Omission) : List (Value × Value) → List (Value × Value)
  | [] => []
  | (name, v) :: rest =>
    if o.drops name then pruneFields o rest else (name, v.prune (o.within name)) :: pruneFields o rest

end

mutual

/-- A value from which nothing is left out stays as it is. -/
theorem prune_eq_self {o : Omission} (h : o.IsNone) : (v : Value) → v.prune o = v
  | list items => by rw [prune, pruneItems_eq_self h]
  | record fields => by rw [prune, pruneFields_eq_self h]
  | tagged tag v => by rw [prune, prune_eq_self h]
  | null | bool _ | int _ | float _ | text _ | plain _ | unreadable => by rw [prune]

/-- The items of a list from which nothing is left out stay as they are. -/
theorem pruneItems_eq_self {o : Omission} (h : o.IsNone) (place : Nat) :
    (items : List Value) → pruneItems o place items = items
  | [] => by rw [pruneItems]
  | v :: rest => by rw [pruneItems, prune_eq_self (h.under _), pruneItems_eq_self h]

/-- The fields of a record from which nothing is left out stay as they are. -/
theorem pruneFields_eq_self {o : Omission} (h : o.IsNone) :
    (fields : List (Value × Value)) → pruneFields o fields = fields
  | [] => by rw [pruneFields]
  | (name, v) :: rest => by
    rw [pruneFields, h.drops, prune_eq_self (h.within _), pruneFields_eq_self h]
    rfl

end

mutual

/-- Leaving fields out makes nothing deeper. -/
theorem depth_prune_le (o : Omission) : (v : Value) → (v.prune o).depth ≤ v.depth
  | list items => by
    rw [prune, depth, depth]
    exact Nat.succ_le_succ (depthItems_prune_le o 0 items)
  | record fields => by
    rw [prune, depth, depth]
    exact Nat.succ_le_succ (depthFields_prune_le o fields)
  | tagged tag v => by
    rw [prune, depth, depth]
    exact depth_prune_le o v
  | null | bool _ | int _ | float _ | text _ | plain _ | unreadable => Nat.le_of_eq (by rw [prune])

/-- Leaving fields out makes the items of a list no deeper. -/
theorem depthItems_prune_le (o : Omission) (place : Nat) :
    (items : List Value) → depthItems (pruneItems o place items) ≤ depthItems items
  | [] => Nat.le_of_eq (by rw [pruneItems])
  | v :: rest => by
    rw [pruneItems, depthItems, depthItems]
    have hfirst := depth_prune_le (o.under (.item place)) v
    have hrest := depthItems_prune_le o (place + 1) rest
    omega

/-- Leaving fields out makes the fields of a record no deeper. -/
theorem depthFields_prune_le (o : Omission) :
    (fields : List (Value × Value)) → depthFields (pruneFields o fields) ≤ depthFields fields
  | [] => Nat.le_of_eq (by rw [pruneFields])
  | (name, v) :: rest => by
    have hfirst := depth_prune_le (o.within name) v
    have hrest := depthFields_prune_le o rest
    rw [pruneFields, depthFields]
    split
    · omega
    · rw [depthFields]
      omega

end

section Records

variable {fields : List (String × Value)}

/-- A record with texts as names has these names. -/
theorem namedFields?_ofFields (names : List String) (fields : List (String × Value)) :
    namedFields? names (fields.map fun (name, v) => (.text name, v)) = some fields := by
  induction fields with
  | nil => rfl
  | cons field rest ih =>
    rw [namedFields?, List.map_cons, List.mapM_cons, ← namedFields?, ih]
    rfl

/-- Where names occur once, a reader finds what is under a name. -/
theorem lookup?_eq (h : (fields.map Prod.fst).Nodup) (name : String) :
    lookup? fields name = some (fields.lookup name) := by
  induction fields with
  | nil => rfl
  | cons field rest ih =>
    obtain ⟨hnew, hrest⟩ := List.nodup_cons.mp h
    rw [lookup?, List.filter_cons, List.lookup_cons]
    by_cases hname : field.1 = name
    · have hnone : rest.filter (·.1 == name) = [] := by
        refine List.filter_eq_nil_iff.mpr fun entry hentry heq => hnew ?_
        rw [hname, ← beq_iff_eq.mp heq]
        exact List.mem_map_of_mem hentry
      simp [hname, hnone]
    · have hother : name ≠ field.1 := fun heq => hname heq.symm
      simp only [beq_eq_false_iff_ne.mpr hname, beq_eq_false_iff_ne.mpr hother]
      exact ih hrest

/-- A record whose names occur once is read by these names. -/
theorem slots?_ofFields (h : (fields.map Prod.fst).Nodup) (positional : Bool) (names : List String) :
    (ofFields fields).slots? positional names = some (names.map fun name => fields.lookup name) := by
  have hlookup : lookup? fields = fun name => pure (fields.lookup name) := funext (lookup?_eq h)
  simp only [slots?, ofFields, untagged, namedFields?_ofFields, hlookup, Option.bind_eq_bind, Option.bind_some,
    List.mapM_pure]
  rfl

/-- Settled values of a record with texts as names make a settled record. -/
theorem settleFields?_ofFields (h : ∀ field ∈ fields, field.2.settle? = some field.2) :
    settleFields? (fields.map fun (name, v) => (.text name, v)) =
      some (fields.map fun (name, v) => (.text name, v)) := by
  induction fields with
  | nil => rfl
  | cons field rest ih =>
    rw [List.map_cons, settleFields?, settle?, h field List.mem_cons_self,
      ih fun entry hentry => h entry (List.mem_cons_of_mem _ hentry)]
    rfl

/-- The items of a list that are settled one by one are settled together. -/
theorem settleItems?_eq {items : List Value} (h : ∀ v ∈ items, v.settle? = some v) :
    settleItems? items = some items := by
  induction items with
  | nil => rfl
  | cons v rest ih =>
    rw [settleItems?, h v List.mem_cons_self, ih fun item hitem => h item (List.mem_cons_of_mem _ hitem)]
    rfl

/-- A record is one deeper than its values. -/
theorem depth_ofFields_le {n : Nat} (h : ∀ field ∈ fields, field.2.depth ≤ n) :
    (ofFields fields).depth ≤ n + 1 := by
  rw [ofFields, depth]
  refine Nat.succ_le_succ ?_
  induction fields with
  | nil => exact Nat.zero_le n
  | cons field rest ih =>
    have hfirst := h field List.mem_cons_self
    have hrest := ih fun entry hentry => h entry (List.mem_cons_of_mem _ hentry)
    rw [List.map_cons, depthFields, depth]
    omega

/-- A list is one deeper than its items. -/
theorem depth_list_le {n : Nat} {items : List Value} (h : ∀ v ∈ items, v.depth ≤ n) :
    (list items).depth ≤ n + 1 := by
  rw [depth]
  refine Nat.succ_le_succ ?_
  induction items with
  | nil => exact Nat.zero_le n
  | cons v rest ih =>
    have hfirst := h v List.mem_cons_self
    have hrest := ih fun item hitem => h item (List.mem_cons_of_mem _ hitem)
    rw [depthItems]
    omega

/-- Texts as names are settled. -/
theorem mapM_settle?_names (fields : List (String × Value)) :
    (fields.map fun (name, v) => ((.text name : Value), v)).mapM (fun (key, v) => do return (← key.settle?, v)) =
      some (fields.map fun (name, v) => ((.text name : Value), v)) := by
  induction fields with
  | nil => rfl
  | cons field rest ih =>
    rw [List.map_cons, List.mapM_cons, ih]
    rfl

/-- A record that begins with the word of a choice is that word and the rest, once all is settled. -/
theorem choice?_ofFields {name word : String} (hname : name ∉ fields.map Prod.fst)
    (hsettled : ∀ field ∈ fields, field.2.settle? = some field.2) :
    (ofFields ((name, .text word) :: fields)).choice? name = some (word, ofFields fields) := by
  -- no other field has the name of the word, so the two parts are that field and the rest
  have hothers : fields.filter (fun field => field.1 == name) = [] :=
    List.filter_eq_nil_iff.mpr fun field hfield heq => hname (beq_iff_eq.mp heq ▸ List.mem_map_of_mem hfield)
  have hrest : fields.filter (fun field => !(field.1 == name)) = fields :=
    List.filter_eq_self.mpr fun field hfield => by
      rw [Bool.not_eq_true', beq_eq_false_iff_ne]
      exact fun heq => hname (heq ▸ List.mem_map_of_mem hfield)
  rw [ofFields, choice?, choice?.choiceOfFields, mapM_settle?_names]
  simp only [Option.bind_eq_bind, Option.bind_some, List.partition_eq_filter_filter, List.map_cons,
    List.filter_cons, List.filter_map, Function.comp_def, beq_self_eq_true, hothers, if_true]
  simp [hrest, asText?, untagged, settleFields?_ofFields hsettled, ofFields]

end Records

section Fields

variable (o : Omission) {fields : List (String × Value)} {name : String}

/-- The fields of a record that stay. -/
def keptFields (fields : List (String × Value)) : List (String × Value) :=
  (fields.filter fun field => !o [.field field.1]).map fun field =>
    (field.1, field.2.prune (o.under (.field field.1)))

/-- What stays of the value under a name. -/
def kept (name : String) (v : Option Value) : Option Value :=
  if o [.field name] then none else v.map (prune (o.under (.field name)))

/-- A field to leave out does not stay. -/
theorem keptFields_cons_of_drop {v : Value} (h : o [.field name] = true) :
    keptFields o ((name, v) :: fields) = keptFields o fields := by
  simp [keptFields, h]

/-- A field that is not to be left out stays. -/
theorem keptFields_cons_of_not_drop {v : Value} (h : o [.field name] = false) :
    keptFields o ((name, v) :: fields) = (name, v.prune (o.under (.field name))) :: keptFields o fields := by
  simp [keptFields, h]

/-- A record without the fields to leave out has the fields that stay. -/
theorem prune_ofFields (fields : List (String × Value)) :
    (ofFields fields).prune o = ofFields (keptFields o fields) := by
  have hfields : pruneFields o (fields.map fun (name, v) => (.text name, v)) =
      (keptFields o fields).map fun (name, v) => (.text name, v) := by
    induction fields with
    | nil => rw [List.map_nil, pruneFields, keptFields, List.filter_nil, List.map_nil, List.map_nil]
    | cons field rest ih =>
      obtain ⟨name, v⟩ := field
      rw [List.map_cons, pruneFields, ih, Omission.drops, Omission.within]
      cases hdrop : o [.field name] with
      | true => rw [keptFields_cons_of_drop o hdrop, if_pos rfl]
      | false =>
        rw [keptFields_cons_of_not_drop o hdrop, if_neg Bool.false_ne_true]
        rfl
  rw [ofFields, prune, hfields, ofFields]

/-- The names that stay are names of the record, and each occurs as often as before. -/
theorem sublist_keptFields (fields : List (String × Value)) :
    ((keptFields o fields).map Prod.fst).Sublist (fields.map Prod.fst) := by
  rw [keptFields, List.map_map]
  exact List.filter_sublist.map Prod.fst

/-- Under a name there is what stays of the value there. -/
theorem lookup_keptFields (fields : List (String × Value)) (name : String) :
    (keptFields o fields).lookup name = kept o name (fields.lookup name) := by
  induction fields with
  | nil => cases hdrop : o [.field name] <;> simp [keptFields, kept, hdrop]
  | cons field rest ih =>
    obtain ⟨name', v⟩ := field
    by_cases hname : name = name'
    · subst hname
      cases hdrop : o [.field name] with
      | true =>
        rw [keptFields_cons_of_drop o hdrop, ih, kept, kept, if_pos hdrop, if_pos hdrop]
      | false =>
        rw [keptFields_cons_of_not_drop o hdrop, List.lookup_cons_self, List.lookup_cons_self, kept, hdrop]
        rfl
    · have hother : (name == name') = false := beq_eq_false_iff_ne.mpr hname
      rw [List.lookup_cons, hother, ← ih]
      cases hdrop : o [.field name'] with
      | true => rw [keptFields_cons_of_drop o hdrop]
      | false => rw [keptFields_cons_of_not_drop o hdrop, List.lookup_cons, hother]

/-- A record whose names occur once is read by what stays of its fields. -/
theorem slots?_prune (h : (fields.map Prod.fst).Nodup) (positional : Bool) (names : List String) :
    ((ofFields fields).prune o).slots? positional names =
      some (names.map fun name => kept o name (fields.lookup name)) := by
  rw [prune_ofFields, slots?_ofFields (h.sublist (sublist_keptFields o fields)),
    funext (lookup_keptFields o fields)]

/-- A choice whose word stays is that word and what stays of the rest, once all is settled. -/
theorem choice?_prune {word : String} (hkeep : o [.field name] = false) (hname : name ∉ fields.map Prod.fst)
    (hsettled : ∀ field ∈ fields, (field.2.prune (o.under (.field field.1))).settle? =
      some (field.2.prune (o.under (.field field.1)))) :
    ((ofFields ((name, .text word) :: fields)).prune o).choice? name = some (word, (ofFields fields).prune o) := by
  rw [prune_ofFields, prune_ofFields, keptFields_cons_of_not_drop o hkeep, prune]
  refine choice?_ofFields (fun hmem => hname ((sublist_keptFields o fields).subset hmem)) fun field hfield => ?_
  obtain ⟨field', hfield', rfl⟩ := List.mem_map.mp hfield
  exact hsettled field' (List.mem_filter.mp hfield').1

variable {α : Type} {decode : Value → Option α} {v : Value} {x : α}

/-- A field that may be missing is read as what stays of it, or by default. -/
theorem orDefault?_kept (h : decode (v.prune (o.under (.field name))) = some x) (default : α) :
    orDefault? decode default (kept o name (some v)) = some (o.reset name default x) := by
  rw [kept, Omission.reset]
  split
  · rfl
  · exact h

/-- A field that must not be missing is read if it stays. -/
theorem required?_kept (hkeep : o [.field name] = false) (h : decode (v.prune (o.under (.field name))) = some x) :
    required? decode (kept o name (some v)) = some x := by
  rw [kept, hkeep]
  exact h

end Fields

section Items

variable {α β : Type} {decode : Value → Option β} {encode : α → Value} {items : List α}

/-- The items of a list are read as what stays of each. -/
theorem mapM_pruneItems {o : Omission} {without : Nat → α → β} (place : Nat)
    (h : ∀ i, ∀ x ∈ items, decode ((encode x).prune (o.under (.item i))) = some (without i x)) :
    (pruneItems o place (items.map encode)).mapM decode =
      some ((items.zipIdx place).map fun (x, i) => without i x) := by
  induction items generalizing place with
  | nil => rw [List.map_nil, pruneItems]; rfl
  | cons x rest ih =>
    rw [List.map_cons, pruneItems, List.mapM_cons, h place x List.mem_cons_self,
      ih (place + 1) fun i y hy => h i y (List.mem_cons_of_mem _ hy)]
    rfl

/-- The items of a list are read as they are when nothing is left out. -/
theorem mapM_encode {encode : β → Value} {items : List β} (h : ∀ x ∈ items, decode (encode x) = some x) :
    (items.map encode).mapM decode = some items := by
  induction items with
  | nil => rfl
  | cons x rest ih =>
    rw [List.map_cons, List.mapM_cons, h x List.mem_cons_self, ih fun y hy => h y (List.mem_cons_of_mem _ hy)]
    rfl

end Items

end Value

end ScannedPage
