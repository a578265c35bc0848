/-!
# Classes of labels

Labels are numbered from zero, and each has a parent that is at most itself; a label that is its own
parent is a root. Labels belong to one class when they lead to the same root, which is the smallest
label of the class. Looking up a label also shortens its way to the root, which changes no class.
-/

namespace ScannedPage.Region

/-- The parent of every label made so far. -/
structure UnionFind where
  parents : Array Nat
deriving DecidableEq, Repr

namespace UnionFind

/-- Only label zero, alone in its class. -/
def initial : UnionFind := ⟨#[0]⟩

/-- The parent of a label; a label that was never made is its own. -/
@[inline]
def parent (u : UnionFind) (label : Nat) : Nat := u.parents.getD label label

/-- A new label, alone in its class. -/
def makeSet (u : UnionFind) : Nat × UnionFind :=
  (u.parents.size, ⟨u.parents.push u.parents.size⟩)

/-- The end of the way up from a label, which ends where no smaller parent follows. -/
def root (u : UnionFind) (label : Nat) : Nat :=
  if u.parent label < label then u.root (u.parent label) else label
termination_by label

/-- Lets every label on the way up from a label lead straight to the given root. -/
def compress (u : UnionFind) (root label : Nat) : UnionFind :=
  let next := u.parent label
  if next = root then u
  else
    let shortened : UnionFind := ⟨u.parents.setIfInBounds label root⟩
    if next < label then shortened.compress root next else shortened
termination_by label

/-- The root of a label, and the classes with the way to it shortened. -/
def find (u : UnionFind) (label : Nat) : Nat × UnionFind :=
  let root := u.root label
  (root, u.compress root label)

/-- Joins the classes of two labels; the smaller root stays a root. -/
def union (u : UnionFind) (a b : Nat) : UnionFind :=
  let (rootA, u) := u.find a
  let (rootB, u) := u.find b
  if rootA < rootB then ⟨u.parents.setIfInBounds rootB rootA⟩
  else if rootB < rootA then ⟨u.parents.setIfInBounds rootA rootB⟩
  else u

end UnionFind

end ScannedPage.Region
