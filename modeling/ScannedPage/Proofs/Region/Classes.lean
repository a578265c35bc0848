import Mathlib.Logic.Relation
import Mathlib.Order.Bounds.Basic
import ScannedPage.Proofs.Region.UnionFind

/-!
# Histories of a table of classes

The classes of a table are read off its entries: two labels are linked when parents lead from one to the other. In
an ordered table this is to have one root (`linked_iff`). Looking up a label takes two loops over the entries, one
that follows the parents up to the root and one that shortens the way; both end, and find nothing but entries of
labels that were made (`climb?_eq_some`, `shorten?_eq_some`). Each call keeps the table ordered and adds exactly
the pair it joins to the equations between labels (`Keeps.perform`), so after any history of calls the classes are
those that the joined pairs generate (`run_keeps`).
-/

namespace ScannedPage.Region.UnionFind

section Loops

/-- The way up from a label as a loop of at most so many rounds: it ends at a label that is its own parent. A label
without an entry is a fault. -/
def climb? (u : UnionFind) : (rounds label : Nat) → Option Nat
  | 0, _ => none
  | rounds + 1, label => do
    let parent ← u.parents[label]?
    if parent = label then return label else u.climb? rounds parent

/-- The way of a label shortened by a loop of at most so many rounds: each label on it gets the root as its parent,
up to one that has it. A label without an entry is a fault. -/
def shorten? (root : Nat) : (rounds : Nat) → (u : UnionFind) → (label : Nat) → Option UnionFind
  | 0, _, _ => none
  | rounds + 1, u, label => do
    let parent ← u.parents[label]?
    if parent = root then return u else shorten? root rounds (u.redirect label root) parent

variable {u : UnionFind} {label parent rounds : Nat}

/-- The entry of a label that was made is its parent. -/
theorem getElem?_parents (h : label < u.parents.size) : u.parents[label]? = some (u.parent label) := by
  simp [UnionFind.parent, h]

/-- The entry of a label is its parent. -/
theorem parent_of_getElem? (h : u.parents[label]? = some parent) : u.parent label = parent := by
  simp [UnionFind.parent, h]

variable (h : u.Ordered) (hlabel : label < u.parents.size) (hrounds : label < rounds)
include h hlabel hrounds

/-- The loop up from a label ends at its root, as each round comes to a smaller label. -/
theorem climb?_eq_some : u.climb? rounds label = some (u.root label) := by
  induction rounds generalizing label with
  | zero => exact absurd hrounds (Nat.not_lt_zero _)
  | succ rounds ih =>
    simp only [climb?, getElem?_parents hlabel, Option.bind_eq_bind, Option.bind_some]
    split
    · next heq => rw [root_of_parent_eq heq, Option.pure_def]
    · next hne =>
      have hlt : u.parent label < label := Nat.lt_of_le_of_ne (h label) hne
      rw [ih (hlt.trans hlabel) (Nat.lt_of_lt_of_le hlt (Nat.le_of_lt_succ hrounds)), root_parent h label]

/-- The loop that shortens a way ends, with the table of a look-up. -/
theorem shorten?_eq_some : shorten? (u.root label) rounds u label = some (u.find label).2 := by
  induction rounds generalizing u label with
  | zero => exact absurd hrounds (Nat.not_lt_zero _)
  | succ rounds ih =>
    simp only [shorten?, getElem?_parents hlabel, Option.bind_eq_bind, Option.bind_some, find]
    rw [compress]
    split
    · rfl
    · next hne =>
      -- the root itself has the root as its parent, so the label lies above it
      have hlt : u.parent label < label :=
        Nat.lt_of_le_of_ne (h label) fun heq => hne (heq.trans (root_of_parent_eq heq).symm)
      have hshort := sameRoots_redirect h label
      have hmade : u.parent label < (u.redirect label (u.root label)).parents.size := by
        rw [hshort.size]
        exact hlt.trans hlabel
      have hrest := ih hshort.ordered hmade (Nat.lt_of_lt_of_le hlt (Nat.le_of_lt_succ hrounds))
      rw [if_pos hlt]
      rwa [find, hshort.root, root_parent h label] at hrest

end Loops

section Classes

/-- Two labels of a table are in one class when parents lead from one to the other, up or down. -/
def Linked (u : UnionFind) : Nat → Nat → Prop :=
  Relation.EqvGen fun label parent => u.parents[label]? = some parent

variable {u v : UnionFind} {a b : Nat}

/-- A label is linked to its root. -/
theorem linked_root (h : u.Ordered) (label : Nat) : u.Linked label (u.root label) := by
  induction label using Nat.strongRecOn with
  | ind label ih =>
    rcases Nat.lt_or_eq_of_le (h label) with hlt | heq
    · have hmade : label < u.parents.size := by
        by_contra hsize
        exact absurd (parent_of_size_le (Nat.le_of_not_lt hsize)) (Nat.ne_of_lt hlt)
      rw [← root_parent h label]
      exact .trans _ _ _ (.rel _ _ (getElem?_parents hmade)) (ih _ hlt)
    · rw [root_of_parent_eq heq]
      exact .refl _

/-- Linked labels are those with one root. -/
theorem linked_iff (h : u.Ordered) : u.Linked a b ↔ u.root a = u.root b := by
  constructor
  · intro hlinked
    induction hlinked with
    | rel label parent hentry => rw [← parent_of_getElem? hentry, root_parent h label]
    | refl => rfl
    | symm _ _ _ ih => exact ih.symm
    | trans _ _ _ _ _ ih ih' => exact ih.trans ih'
  · intro hroot
    have hb := linked_root h b
    rw [← hroot] at hb
    exact .trans _ _ _ (linked_root h a) hb.symm

/-- A table with the same roots has the same classes. -/
theorem SameRoots.linked_iff (h : SameRoots u v) (hu : u.Ordered) : v.Linked a b ↔ u.Linked a b := by
  rw [UnionFind.linked_iff h.ordered, UnionFind.linked_iff hu, h.root, h.root]

end Classes

section Equations

/-- The least equivalence of labels in which the labels of each pair are equivalent. -/
def Equated (pairs : List (Nat × Nat)) : Nat → Nat → Prop := Relation.EqvGen fun a b => (a, b) ∈ pairs

variable {pairs more : List (Nat × Nat)} {a b c d : Nat}

/-- More pairs keep labels equivalent. -/
theorem Equated.mono (hsub : pairs ⊆ more) (h : Equated pairs a b) : Equated more a b :=
  Relation.EqvGen.mono (fun _ _ hpair => hsub hpair) _ _ h

/-- Without pairs a label is equivalent to itself only. -/
theorem equated_nil_iff : Equated [] a b ↔ a = b := by
  constructor
  · intro h
    induction h with
    | rel _ _ hpair => exact absurd hpair List.not_mem_nil
    | refl => rfl
    | symm _ _ _ ih => exact ih.symm
    | trans _ _ _ _ _ ih ih' => exact ih.trans ih'
  · rintro rfl
    exact .refl a

/-- A property that the labels of each pair share is shared by equivalent labels. -/
theorem Equated.iff_of_forall {P : Nat → Prop} (hpairs : ∀ p ∈ pairs, P p.1 ↔ P p.2) (h : Equated pairs a b) :
    P a ↔ P b := by
  induction h with
  | rel _ _ hpair => exact hpairs _ hpair
  | refl => exact Iff.rfl
  | symm _ _ _ ih => exact ih.symm
  | trans _ _ _ _ _ ih ih' => exact ih.trans ih'

/-- One more pair makes two classes one. -/
theorem equated_concat_iff : Equated (pairs ++ [(a, b)]) c d ↔ Equated pairs c d ∨
    (Equated pairs c a ∨ Equated pairs c b) ∧ (Equated pairs d a ∨ Equated pairs d b) := by
  have hnew : Equated (pairs ++ [(a, b)]) a b := .rel _ _ (List.mem_append_right _ List.mem_cons_self)
  have hold {x y : Nat} (h : Equated pairs x y) : Equated (pairs ++ [(a, b)]) x y :=
    h.mono (List.subset_append_left _ _)
  have hmet {x : Nat} (h : Equated pairs x a ∨ Equated pairs x b) : Equated (pairs ++ [(a, b)]) x a :=
    h.elim hold fun hxb => (hold hxb).trans _ _ _ hnew.symm
  constructor
  · intro h
    induction h with
    | rel x y hpair =>
      rcases List.mem_append.mp hpair with hpair | hpair
      · exact Or.inl (.rel _ _ hpair)
      · obtain ⟨rfl, rfl⟩ := Prod.mk.inj (List.mem_singleton.mp hpair)
        exact Or.inr ⟨Or.inl (.refl _), Or.inr (.refl _)⟩
    | refl => exact Or.inl (.refl _)
    | symm x y _ ih => exact ih.imp (Relation.EqvGen.symm _ _) And.symm
    | trans x y z _ _ ih ih' =>
      rcases ih with hxy | ⟨hx, hy⟩
      · refine ih'.imp (hxy.trans _ _ _) fun ⟨hy, hz⟩ => ⟨?_, hz⟩
        exact hy.imp (hxy.trans _ _ _) (hxy.trans _ _ _)
      · refine Or.inr ⟨hx, ?_⟩
        rcases ih' with hyz | ⟨_, hz⟩
        · exact hy.imp (hyz.symm.trans _ _ _) (hyz.symm.trans _ _ _)
        · exact hz
  · rintro (hcd | ⟨hc, hd⟩)
    · exact hold hcd
    · exact (hmet hc).trans _ _ _ (hmet hd).symm

end Equations

/-- A call on a table of classes. -/
inductive Call
  | makeSet
  | find (label : Nat)
  | union (a b : Nat)
deriving DecidableEq, Repr

namespace Call

/-- The labels that a call is about. -/
def labels : Call → List Nat
  | makeSet => []
  | find label => [label]
  | union a b => [a, b]

/-- The pairs that a call joins. -/
def joins : Call → List (Nat × Nat)
  | union a b => [(a, b)]
  | makeSet | find _ => []

end Call

/-- The table after a call. -/
def perform (u : UnionFind) : Call → UnionFind
  | .makeSet => u.makeSet.2
  | .find label => (u.find label).2
  | .union a b => u.union a b

/-- The table after a history of calls. -/
def run (u : UnionFind) (calls : List Call) : UnionFind := calls.foldl perform u

/-- Every call is about labels that the table has when the call comes. -/
def Admits : UnionFind → List Call → Prop
  | _, [] => True
  | u, c :: calls => (∀ label ∈ c.labels, label < u.parents.size) ∧ (u.perform c).Admits calls

/-- Whether calls are about labels of the table can be computed. -/
instance decidableAdmits : (u : UnionFind) → (calls : List Call) → Decidable (u.Admits calls)
  | _, [] => inferInstanceAs (Decidable True)
  | u, c :: calls =>
    have := decidableAdmits (u.perform c) calls
    inferInstanceAs (Decidable (_ ∧ _))

/-- The table is ordered, and its classes are those that some pairs generate. -/
structure Keeps (u : UnionFind) (pairs : List (Nat × Nat)) : Prop where
  ordered : u.Ordered
  root_eq_iff : ∀ a b, u.root a = u.root b ↔ Equated pairs a b

/-- In the first table every label is alone. -/
theorem keeps_initial : initial.Keeps [] := by
  refine ⟨ordered_initial, fun a b => ?_⟩
  have hroot (label : Nat) : initial.root label = label := by
    cases label with
    | zero => exact Nat.le_zero.mp (root_le ordered_initial 0)
    | succ n => exact root_of_parent_eq (parent_of_size_le (Nat.le_add_left 1 n))
  rw [hroot, hroot, equated_nil_iff]

variable {u : UnionFind} {pairs : List (Nat × Nat)}

/-- A call adds the pair that it joins. -/
theorem Keeps.perform (h : u.Keeps pairs) {c : Call} (hc : ∀ label ∈ c.labels, label < u.parents.size) :
    (u.perform c).Keeps (pairs ++ c.joins) := by
  cases c with
  | makeSet =>
    refine ⟨h.ordered.makeSet, fun a b => ?_⟩
    rw [UnionFind.perform, root_makeSet, root_makeSet, h.root_eq_iff, Call.joins, List.append_nil]
  | find label =>
    have hsame := sameRoots_find h.ordered label
    refine ⟨hsame.ordered, fun a b => ?_⟩
    rw [UnionFind.perform, hsame.root, hsame.root, h.root_eq_iff, Call.joins, List.append_nil]
  | union a b =>
    have hjoined := joined_union h.ordered (hc a (by simp [Call.labels])) (hc b (by simp [Call.labels]))
    refine ⟨hjoined.ordered, fun c d => ?_⟩
    rw [Call.joins, equated_concat_iff, ← h.root_eq_iff, ← h.root_eq_iff, ← h.root_eq_iff, ← h.root_eq_iff,
      ← h.root_eq_iff]
    exact hjoined.root_eq_iff c d

/-- A history of calls adds the pairs that they join. -/
theorem Keeps.run (h : u.Keeps pairs) {calls : List Call} (hcalls : u.Admits calls) :
    (u.run calls).Keeps (pairs ++ calls.flatMap Call.joins) := by
  induction calls generalizing u pairs with
  | nil => simpa [UnionFind.run] using h
  | cons c calls ih =>
    have hrest := ih (h.perform hcalls.1) hcalls.2
    rwa [List.append_assoc, ← List.flatMap_cons] at hrest

/-- The root of a label is the smallest label of its class. -/
theorem Keeps.isLeast_root (h : u.Keeps pairs) (label : Nat) :
    IsLeast {b | Equated pairs label b} (u.root label) := by
  constructor
  · exact (h.root_eq_iff _ _).mp (root_root h.ordered label).symm
  · intro b hb
    rw [(h.root_eq_iff label b).mpr hb]
    exact root_le h.ordered b

/-- After any history of calls on labels made before, no entry of the table exceeds its label. The two loops of a
look-up end for every label that was made, after at most one round for each label up to it, and without leaving the
table. They give the smallest label of its class, and a table with the same classes. The classes are those that the
joined pairs generate, whatever was looked up in between; so label zero is alone as long as no pair has it. -/
theorem run_keeps_classes {calls : List Call} (h : initial.Admits calls) :
    let u := initial.run calls
    let pairs := calls.flatMap Call.joins
    (∀ label parent : Nat, u.parents[label]? = some parent → parent ≤ label) ∧
    (∀ label, label < u.parents.size →
      (∀ rounds, label < rounds → u.climb? rounds label = some (u.find label).1 ∧
        shorten? (u.find label).1 rounds u label = some (u.find label).2) ∧
      IsLeast {b | u.Linked label b} (u.find label).1 ∧
      ∀ a b, (u.find label).2.Linked a b ↔ u.Linked a b) ∧
    (∀ a b, u.Linked a b ↔ Equated pairs a b) ∧
    ((∀ p ∈ pairs, p.1 ≠ 0 ∧ p.2 ≠ 0) → ∀ b, u.Linked 0 b → b = 0) := by
  intro u pairs
  have hkeeps : u.Keeps pairs := keeps_initial.run h
  have hordered := hkeeps.ordered
  have hclasses (a b : Nat) : u.Linked a b ↔ Equated pairs a b :=
    (linked_iff hordered).trans (hkeeps.root_eq_iff a b)
  refine ⟨fun label parent hentry => ?_, fun label hlabel => ⟨fun rounds hrounds => ?_, ?_, fun a b => ?_⟩,
    hclasses, fun hpairs b hb => ?_⟩
  · rw [← parent_of_getElem? hentry]
    exact hordered label
  · exact ⟨climb?_eq_some hordered hlabel hrounds, shorten?_eq_some hordered hlabel hrounds⟩
  · simpa only [hclasses, fst_find] using hkeeps.isLeast_root label
  · exact (sameRoots_find hordered label).linked_iff hordered
  · have hzero := ((hclasses 0 b).mp hb).iff_of_forall (P := (· = 0)) fun p hp =>
      iff_of_false (hpairs p hp).1 (hpairs p hp).2
    exact hzero.mp rfl

/-- Four labels are joined from the last one down, which leaves a way of two steps from the last to the first. -/
theorem run_keeps_classes_chain :
    let calls := [.makeSet, .makeSet, .makeSet, .makeSet, .union 3 4, .union 2 3, .find 4, .union 4 1]
    initial.Admits calls ∧ (initial.run calls).parents = #[0, 1, 1, 2, 2] ∧
      IsLeast {b | (initial.run calls).Linked 4 b} 1 ∧
      shorten? 1 5 (initial.run calls) 4 = some ⟨#[0, 1, 1, 2, 1]⟩ ∧
      ∀ b, (initial.run calls).Linked 0 b → b = 0 := by
  intro calls
  have hadmits : initial.Admits calls := by decide +kernel
  have hfound : (initial.run calls).find 4 = (1, ⟨#[0, 1, 1, 2, 1]⟩) := by decide +kernel
  obtain ⟨_, hlookup, _, hzero⟩ := run_keeps_classes hadmits
  obtain ⟨hloops, hleast, _⟩ := hlookup 4 (by decide +kernel)
  rw [hfound] at hleast hloops
  exact ⟨hadmits, by decide +kernel, hleast, (hloops 5 (by decide)).2, hzero (by decide)⟩

end ScannedPage.Region.UnionFind
