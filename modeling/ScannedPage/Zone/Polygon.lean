import ScannedPage.Scalar

/-!
# Polygons

A polygon is the list of its vertices; the last is joined to the first. It is usable when it has at
least three vertices, encloses an area, and no two edges that are apart from each other cross in an
inner point. Filling follows the nonzero winding rule along the lines through the pixel centres: an
edge crosses such a line downward or upward, half open so that a shared vertex counts once, and a
pixel is inside when the directions of the crossings up to its centre do not cancel.
-/

namespace ScannedPage

open Scalar

/-- A position with fractions of a pixel. -/
structure Point (K : Type) where
  x : K
  y : K
deriving BEq, DecidableEq, Repr

/-- A directed edge. -/
abbrev Edge (K : Type) := Point K × Point K

namespace Polygon

/-- Why a polygon is not usable. -/
inductive Fault
  | tooFewVertices (count : Nat)
  | nonFinite
  | zeroArea
  | selfIntersecting (first second : Nat)
deriving DecidableEq, Repr

/-- The edges in order; the last leads back to the first vertex. -/
def edges {K : Type} : List (Point K) → List (Edge K)
  | [] => []
  | p :: ps => List.zip (p :: ps) (ps ++ [p])

variable {K : Type} [Scalar K] [DecidableLE K] [DecidableLT K]

/-- The area with its sign: positive when the vertices run clockwise with the rows downward. -/
@[specialize]
def signedArea (vertices : List (Point K)) : K :=
  ((edges vertices).foldl (fun sum (p, q) => sum + (p.x * q.y - q.x * p.y)) ((0 : Nat) : K)) / ((2 : Nat) : K)

/-- Which side of the line from the first to the second point the third lies on, by its sign. -/
@[inline]
def orientation (a b c : Point K) : K := (b.x - a.x) * (c.y - a.y) - (b.y - a.y) * (c.x - a.x)

/-- Two edges meet in a single point that is inner to both. -/
@[specialize]
def properlyCross (e f : Edge K) : Bool :=
  let zero : K := ((0 : Nat) : K)
  decide (orientation e.1 e.2 f.1 * orientation e.1 e.2 f.2 < zero) &&
    decide (orientation f.1 f.2 e.1 * orientation f.1 f.2 e.2 < zero)

/-- Two places in a cycle of `n` edges, in order, whose edges share no vertex. -/
def apart (n i j : Nat) : Bool := decide (i + 2 ≤ j ∧ ¬ (i = 0 ∧ j + 1 = n))

/-- The first pair, in lexicographic order, of edges that are apart and cross. -/
@[specialize]
def firstCrossing (vertices : List (Point K)) : Option (Nat × Nat) :=
  let all := (edges vertices).zipIdx
  all.findSome? fun (e, i) =>
    (all.find? fun (f, j) => apart all.length i j && properlyCross e f).map fun (_, j) => (i, j)

/-- The least area that counts. -/
def leastArea (K : Type) [Scalar K] : K := ((1 : Nat) : K) / ((Nat.pow 2 52 : Nat) : K)

/-- The first fault of a polygon, if it has any. -/
@[specialize]
def fault? (vertices : List (Point K)) : Option Fault :=
  if vertices.length < 3 then some (.tooFewVertices vertices.length)
  else if vertices.any fun p => !(isFinite p.x && isFinite p.y) then some .nonFinite
  else if Scalar.abs (signedArea vertices) < leastArea K then some .zeroArea
  else (firstCrossing vertices).map fun (i, j) => .selfIntersecting i j

/-- Where an edge crosses a horizontal line, and whether it runs downward (1) or upward (-1) there. -/
structure Crossing (K : Type) where
  x : K
  /-- One for a number. A vertex that is not a number puts its crossing last; a crossing that is not a
  number although its vertices are, because they are infinite, comes first. -/
  rank : Nat
  winding : Int

/-- The crossing of an edge with the line at a height, if it crosses there. -/
@[specialize]
def crossing? (height : K) (e : Edge K) : Option (Crossing K) :=
  let (a, b) := e
  let winding? : Option Int :=
    if a.y ≤ height ∧ height < b.y then some 1
    else if b.y ≤ height ∧ height < a.y then some (-1)
    else none
  winding?.map fun winding =>
    let x := a.x + (height - a.y) / (b.y - a.y) * (b.x - a.x)
    let rank := if isNumber x then 1 else if isNumber a.x && isNumber b.x then 0 else 2
    ⟨x, rank, winding⟩

/-- The order of crossings from left to right. -/
@[inline]
def Crossing.before (c d : Crossing K) : Bool :=
  decide (c.rank < d.rank) || (decide (c.rank = d.rank) && !decide (d.x < c.x))

/-- The crossings of a polygon with a line, from left to right. -/
@[specialize]
def crossings (vertices : List (Point K)) (height : K) : List (Crossing K) :=
  ((edges vertices).filterMap (crossing? height)).mergeSort Crossing.before

/-- The first pixel whose centre is not left of an abscissa, from zero on. -/
@[inline]
def firstPixel (x : K) : Nat := (ceilInt (x - ((1 : Nat) : K) / ((2 : Nat) : K))).toNat

/-- The half-open pixel intervals between crossings at which the windings so far do not cancel. -/
@[specialize]
def spansFrom (sum : Int) : List (Crossing K) → List (Nat × Nat)
  | c :: d :: rest =>
    let sum := sum + c.winding
    if sum = 0 then spansFrom sum (d :: rest)
    else (firstPixel c.x, firstPixel d.x) :: spansFrom sum (d :: rest)
  | _ => []

/-- The half-open interval of the rows that a polygon can touch, if it has finite extremes. -/
@[specialize]
def rowRange? (vertices : List (Point K)) : Option (Nat × Nat) :=
  match vertices with
  | [] => none
  | p :: ps =>
    let low := ps.foldl (fun m q => least m q.y) p.y
    let high := ps.foldl (fun m q => greatest m q.y) p.y
    if isFinite low && isFinite high then some (firstPixel low, firstPixel high) else none

/-- The centre of a row of pixels. -/
@[inline]
def rowCentre (y : Nat) : K := ((y : Nat) : K) + ((1 : Nat) : K) / ((2 : Nat) : K)

/-- The covered pixel intervals of a row. -/
@[specialize]
def rowSpans (vertices : List (Point K)) (y : Nat) : List (Nat × Nat) :=
  match rowRange? vertices with
  | none => []
  | some (first, last) =>
    if vertices.length < 3 ∨ y < first ∨ last ≤ y then []
    else spansFrom 0 (crossings vertices (rowCentre y))

/-- The polygon covers a pixel. -/
@[specialize]
def covers (vertices : List (Point K)) (x y : Nat) : Bool :=
  (rowSpans vertices y).any fun (first, last) => decide (first ≤ x ∧ x < last)

end Polygon

end ScannedPage
