import ScannedPage.Region.UnionFind

/-!
# Roots of a table of classes

In an ordered table no parent exceeds its child, so the way up from a label ends at a label that is
its own parent. Everything that is said of classes here is said through `root`: shortening a way
leaves every root in place, a new label is a root, and a join moves one class under the smaller of
two roots and leaves all other roots alone.
-/

namespace ScannedPage.Region.UnionFind

/-- No parent exceeds its child. -/
def Ordered (u : UnionFind) : Prop := ∀ label, u.parent label ≤ label

/-- Labels that were never made are their own parents. -/
theorem parent_of_size_le {u : UnionFind} {label : Nat} (h : u.parents.size ≤ label) :
    u.parent label = label := by
  simp [parent, Array.getElem?_eq_none h]

/-- The first table is ordered. -/
theorem ordered_initial : initial.Ordered := by
  intro label
  cases label with
  | zero => exact Nat.le_refl 0
  | succ n => exact Nat.le_of_eq (parent_of_size_le (Nat.le_add_left 1 n))

/-- The table in which one label has another parent. -/
def redirect (u : UnionFind) (label target : Nat) : UnionFind := ⟨u.parents.setIfInBounds label target⟩

/-- Redirecting a label keeps the number of labels. -/
@[simp] theorem size_redirect (u : UnionFind) (label target : Nat) :
    (u.redirect label target).parents.size = u.parents.size :=
  Array.size_setIfInBounds

/-- Redirecting changes one parent, that of a label made before. -/
theorem parent_redirect (u : UnionFind) (label target a : Nat) :
    (u.redirect label target).parent a =
      if a = label ∧ label < u.parents.size then target else u.parent a := by
  by_cases ha : a = label
  · subst ha
    by_cases hs : a < u.parents.size <;> simp [redirect, parent, hs]
  · simp [redirect, parent, ha, Ne.symm ha]

/-- A smaller target keeps a table ordered. -/
theorem Ordered.redirect {u : UnionFind} (h : u.Ordered) {label target : Nat} (ht : target ≤ label) :
    (u.redirect label target).Ordered := by
  intro a
  rw [parent_redirect]
  split
  · next ha => exact ha.1 ▸ ht
  · exact h a

/-- A label that is its own parent is its own root. -/
theorem root_of_parent_eq {u : UnionFind} {label : Nat} (hp : u.parent label = label) :
    u.root label = label := by
  rw [root, hp, if_neg (Nat.lt_irrefl label)]

section Roots

variable {u : UnionFind} (h : u.Ordered)
include h

/-- A label and its parent have one root. -/
theorem root_parent (label : Nat) : u.root (u.parent label) = u.root label := by
  rcases Nat.lt_or_eq_of_le (h label) with hlt | heq
  · rw [root.eq_def u label, if_pos hlt]
  · rw [heq]

/-- A root is its own parent. -/
theorem parent_root (label : Nat) : u.parent (u.root label) = u.root label := by
  induction label using Nat.strongRecOn with
  | ind label ih =>
    rcases Nat.lt_or_eq_of_le (h label) with hlt | heq
    · rw [← root_parent h label]
      exact ih _ hlt
    · rw [root_of_parent_eq heq, heq]

/-- A root is the root of itself. -/
theorem root_root (label : Nat) : u.root (u.root label) = u.root label :=
  root_of_parent_eq (parent_root h label)

/-- A root is at most every label below it. -/
theorem root_le (label : Nat) : u.root label ≤ label := by
  induction label using Nat.strongRecOn with
  | ind label ih =>
    rcases Nat.lt_or_eq_of_le (h label) with hlt | heq
    · rw [← root_parent h label]
      exact Nat.le_trans (ih _ hlt) (h label)
    · exact Nat.le_of_eq (root_of_parent_eq heq)

/-- Redirecting a root to another label moves its class to the class of that label. -/
theorem root_redirect_root {label target : Nat} (hl : u.parent label = label) (hs : label < u.parents.size)
    (ht : target ≤ label) (a : Nat) :
    (u.redirect label target).root a = if u.root a = label then u.root target else u.root a := by
  have hord := h.redirect ht
  induction a using Nat.strongRecOn with
  | ind a ih =>
    by_cases ha : a = label
    · subst ha
      have hp : (u.redirect a target).parent a = target := by rw [parent_redirect, if_pos ⟨rfl, hs⟩]
      rw [← root_parent hord a, hp, root_of_parent_eq hl, if_pos rfl]
      rcases Nat.lt_or_eq_of_le ht with hlt | rfl
      · -- the target lies below the label, so its own way up never meets the label
        have hne : u.root target ≠ a := Nat.ne_of_lt (Nat.lt_of_le_of_lt (root_le h target) hlt)
        rw [ih target hlt, if_neg hne]
      · exact (root_of_parent_eq hp).trans (root_of_parent_eq hl).symm
    · have hp : (u.redirect label target).parent a = u.parent a := by
        rw [parent_redirect, if_neg fun hc => ha hc.1]
      rcases Nat.lt_or_eq_of_le (h a) with hlt | heq
      · rw [← root_parent hord a, hp, ih _ hlt, root_parent h a]
      · rw [root_of_parent_eq (hp.trans heq), root_of_parent_eq heq, if_neg ha]

/-- Redirecting a label to its root changes no root. -/
theorem root_redirect_self (label a : Nat) : (u.redirect label (u.root label)).root a = u.root a := by
  have hord := h.redirect (root_le h label)
  induction a using Nat.strongRecOn with
  | ind a ih =>
    by_cases ha : a = label ∧ label < u.parents.size
    · obtain ⟨rfl, hs⟩ := ha
      have hp : (u.redirect a (u.root a)).parent a = u.root a := by rw [parent_redirect, if_pos ⟨rfl, hs⟩]
      rcases Nat.lt_or_eq_of_le (root_le h a) with hlt | heq
      · rw [← root_parent hord a, hp, ih _ hlt, root_root h a]
      · exact (root_of_parent_eq (hp.trans heq)).trans heq.symm
    · have hp : (u.redirect label (u.root label)).parent a = u.parent a := by
        rw [parent_redirect, if_neg ha]
      rcases Nat.lt_or_eq_of_le (h a) with hlt | heq
      · rw [← root_parent hord a, hp, ih _ hlt, root_parent h a]
      · rw [root_of_parent_eq (hp.trans heq), root_of_parent_eq heq]

end Roots

/-- Roots depend on the parents alone, which a new label leaves as they are. -/
theorem parent_makeSet (u : UnionFind) (label : Nat) : u.makeSet.2.parent label = u.parent label := by
  rcases Nat.lt_trichotomy label u.parents.size with hlt | heq | hgt
  · simp [parent, makeSet, Array.getElem?_push, Nat.ne_of_lt hlt]
  · simp [parent, makeSet, heq]
  · rw [parent_of_size_le (Nat.le_of_lt hgt)]
    exact parent_of_size_le (by rw [makeSet, Array.size_push]; exact hgt)

/-- A new label is the next number. -/
@[simp] theorem fst_makeSet (u : UnionFind) : u.makeSet.1 = u.parents.size := rfl

/-- A new label is one label more. -/
@[simp] theorem size_makeSet (u : UnionFind) : u.makeSet.2.parents.size = u.parents.size + 1 :=
  Array.size_push _

/-- A new label keeps a table ordered. -/
theorem Ordered.makeSet {u : UnionFind} (h : u.Ordered) : u.makeSet.2.Ordered := fun label => by
  rw [parent_makeSet]
  exact h label

/-- A new label is alone, and every other label keeps its root. -/
theorem root_makeSet (u : UnionFind) (label : Nat) : u.makeSet.2.root label = u.root label := by
  induction label using Nat.strongRecOn with
  | ind label ih =>
    rw [root.eq_def u.makeSet.2, root.eq_def u, parent_makeSet]
    split
    · next hlt => exact ih _ hlt
    · rfl

/-- What one operation leaves as it is: the number of labels, the order, and every root. -/
structure SameRoots (u v : UnionFind) : Prop where
  size : v.parents.size = u.parents.size
  ordered : v.Ordered
  root : ∀ label, v.root label = u.root label

/-- Redirecting a label to its root moves no root. -/
theorem sameRoots_redirect {u : UnionFind} (h : u.Ordered) (label : Nat) :
    SameRoots u (u.redirect label (u.root label)) :=
  ⟨size_redirect .., h.redirect (root_le h label), root_redirect_self h label⟩

/-- Shortening the way of a label to its root moves no root. -/
theorem sameRoots_compress {u : UnionFind} (h : u.Ordered) (label : Nat) :
    SameRoots u (u.compress (u.root label) label) := by
  induction label using Nat.strongRecOn generalizing u with
  | ind label ih =>
    have hshort := sameRoots_redirect h label
    rw [compress]
    split
    · exact ⟨rfl, h, fun _ => rfl⟩
    · split
      · next hlt =>
        -- the rest of the way is shortened in a table in which its root is still the same
        have hroot : (u.redirect label (u.root label)).root (u.parent label) = u.root label :=
          (hshort.root _).trans (root_parent h label)
        have hrest := ih _ hlt hshort.ordered
        rw [hroot] at hrest
        exact ⟨hrest.size.trans hshort.size, hrest.ordered, fun a => (hrest.root a).trans (hshort.root a)⟩
      · exact hshort

/-- Looking up a label gives its root. -/
@[simp] theorem fst_find (u : UnionFind) (label : Nat) : (u.find label).1 = u.root label := rfl

/-- Looking up a label moves no root. -/
theorem sameRoots_find {u : UnionFind} (h : u.Ordered) (label : Nat) : SameRoots u (u.find label).2 :=
  sameRoots_compress h label

/-- What a join of two labels leaves: the number of labels, the order, and one class in place of two, under
the smaller of both roots. -/
structure Joined (u v : UnionFind) (a b : Nat) : Prop where
  size : v.parents.size = u.parents.size
  ordered : v.Ordered
  root : ∀ label, v.root label =
    if u.root label = u.root a ∨ u.root label = u.root b then min (u.root a) (u.root b) else u.root label

/-- Putting the greater of two roots under the smaller joins their classes. -/
theorem joined_redirect {u : UnionFind} (h : u.Ordered) {a b : Nat} (hb : b < u.parents.size)
    (hlt : u.root a < u.root b) : Joined u (u.redirect (u.root b) (u.root a)) a b := by
  have hs : u.root b < u.parents.size := Nat.lt_of_le_of_lt (root_le h b) hb
  refine ⟨size_redirect .., h.redirect (Nat.le_of_lt hlt), fun label => ?_⟩
  rw [root_redirect_root h (parent_root h b) hs (Nat.le_of_lt hlt), root_root h,
    Nat.min_eq_left (Nat.le_of_lt hlt)]
  by_cases hlb : u.root label = u.root b
  · rw [if_pos hlb, if_pos (Or.inr hlb)]
  · rw [if_neg hlb]
    split
    · next hor => exact hor.resolve_right hlb
    · rfl

/-- A join is the same whichever label comes first. -/
theorem Joined.symm {u v : UnionFind} {a b : Nat} (h : Joined u v a b) : Joined u v b a :=
  ⟨h.size, h.ordered, fun label => by rw [h.root, Nat.min_comm]; simp only [or_comm]⟩

/-- Look-ups before a join do not matter. -/
theorem Joined.of_sameRoots {u w v : UnionFind} {a b : Nat} (hw : SameRoots u w) (h : Joined w v a b) :
    Joined u v a b :=
  ⟨h.size.trans hw.size, h.ordered, fun label => by rw [h.root]; simp only [hw.root]⟩

/-- Joining two labels gives one class in place of two. -/
theorem joined_union {u : UnionFind} (h : u.Ordered) {a b : Nat} (ha : a < u.parents.size)
    (hb : b < u.parents.size) : Joined u (u.union a b) a b := by
  have h1 := sameRoots_find h a
  have h2 := sameRoots_find h1.ordered b
  have hw : SameRoots u ((u.find a).2.find b).2 :=
    ⟨h2.size.trans h1.size, h2.ordered, fun label => (h2.root label).trans (h1.root label)⟩
  apply Joined.of_sameRoots hw
  generalize hwd : ((u.find a).2.find b).2 = w at hw
  have hunion : u.union a b = if w.root a < w.root b then w.redirect (w.root b) (w.root a)
      else if w.root b < w.root a then w.redirect (w.root a) (w.root b) else w := by
    simp only [union, fst_find, h1.root, hwd, hw.root, redirect]
  rw [hunion]
  rw [← hw.size] at ha hb
  rcases Nat.lt_trichotomy (w.root a) (w.root b) with hlt | heq | hgt
  · rw [if_pos hlt]
    exact joined_redirect hw.ordered hb hlt
  · rw [heq, if_neg (Nat.lt_irrefl _), if_neg (Nat.lt_irrefl _)]
    refine ⟨rfl, hw.ordered, fun label => ?_⟩
    rw [heq, Nat.min_self]
    split
    · next hor => exact hor.elim id id
    · rfl
  · rw [if_neg (Nat.lt_asymm hgt), if_pos hgt]
    exact (joined_redirect hw.ordered ha hgt).symm

/-- After a join two labels share a root if they did before or if each belonged to a joined class. -/
theorem Joined.root_eq_iff {u v : UnionFind} {a b : Nat} (h : Joined u v a b) (c d : Nat) :
    v.root c = v.root d ↔ u.root c = u.root d ∨
      (u.root c = u.root a ∨ u.root c = u.root b) ∧ (u.root d = u.root a ∨ u.root d = u.root b) := by
  rw [h.root, h.root]
  split <;> split <;> grind

end ScannedPage.Region.UnionFind
