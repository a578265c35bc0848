import Mathlib.Data.Nat.ModEq
import Mathlib.Data.Prod.Lex
import Mathlib.Order.Bounds.Basic
import ScannedPage.Proofs.Zone.Crossing
import ScannedPage.Proofs.Zone.Winding

/-!
# Which polygons are usable

The edges of a polygon form a cycle. Two of them clash when they are neither the same edge nor next to each other
and they cross (`Clash`). The check of a polygon goes through the pairs of edges in lexicographic order, each pair
once and without neighbours, so it names the first pair that clashes (`isLeast_firstCrossing`), or none if there is
none. Places of a cycle stay equally far apart when it is shifted or read backwards (`FarApart.shift`,
`FarApart.turn`), and the area changes at most its sign. So whether a polygon is usable depends on its shape alone.
-/

namespace ScannedPage

namespace Polygon

section Places

variable {n i j : Nat}

/-- Two places of a cycle are neither the same nor next to each other. -/
def FarApart (n i j : Nat) : Prop := ¬ i ≡ j [MOD n] ∧ ¬ i + 1 ≡ j [MOD n] ∧ ¬ j + 1 ≡ i [MOD n]

/-- Whether places are far apart does not depend on which of them is named first. -/
theorem FarApart.symm (h : FarApart n i j) : FarApart n j i := ⟨fun hsame => h.1 hsame.symm, h.2.2, h.2.1⟩

/-- The pairs of places that are looked at are those far apart, each pair once. -/
theorem apart_iff (hi : i < n) (hj : j < n) : apart n i j = true ↔ i < j ∧ FarApart n i j := by
  have hwrap (hle : i ≤ j) : j + 1 ≡ i [MOD n] ↔ i = 0 ∧ j + 1 = n := by
    rw [Nat.ModEq, Nat.mod_eq_of_lt hi]
    rcases Nat.lt_or_eq_of_le (Nat.succ_le_of_lt hj) with hlt | heq
    · rw [Nat.mod_eq_of_lt hlt]
      omega
    · rw [← heq, Nat.mod_self]
      omega
  rw [apart, decide_eq_true_eq]
  constructor
  · rintro ⟨hgap, hends⟩
    refine ⟨by omega, fun hsame => ?_, fun hnext => ?_, fun hlast => hends ((hwrap (by omega)).mp hlast)⟩
    · rw [Nat.ModEq, Nat.mod_eq_of_lt hi, Nat.mod_eq_of_lt hj] at hsame
      omega
    · rw [Nat.ModEq, Nat.mod_eq_of_lt (by omega), Nat.mod_eq_of_lt hj] at hnext
      omega
  · rintro ⟨hlt, -, hnext, hlast⟩
    refine ⟨?_, fun hends => hlast ((hwrap hlt.le).mpr hends)⟩
    by_contra hnear
    exact hnext (by rw [show i + 1 = j by omega])

end Places

/-- The edges at two places of a cycle are far apart and cross. -/
def Clash (es : List (Edge ℚ)) (i j : Nat) : Prop :=
  FarApart es.length i j ∧ ∃ e ∈ es[i]?, ∃ f ∈ es[j]?, Cross e f

section Clashes

variable {es : List (Edge ℚ)} {i j : Nat}

/-- Whether edges clash does not depend on which of them is named first. -/
theorem Clash.symm (h : Clash es i j) : Clash es j i := by
  obtain ⟨hfar, e, he, f, hf, hcross⟩ := h
  exact ⟨hfar.symm, f, hf, e, he, hcross.symm⟩

/-- The places of edges that clash are places of the cycle. -/
theorem Clash.lt (h : Clash es i j) : i < es.length ∧ j < es.length := by
  obtain ⟨-, e, he, f, hf, -⟩ := h
  exact ⟨(List.getElem?_eq_some_iff.mp he).1, (List.getElem?_eq_some_iff.mp hf).1⟩

/-- No edge clashes with itself. -/
theorem Clash.ne (h : Clash es i j) : i ≠ j := fun heq => h.1.1 (by rw [heq])

/-- A search through numbered elements ends at the first place whose element fits. -/
theorem find?_zipIdx_eq_some_iff {α : Type*} {l : List α} {p : α × Nat → Bool} {a : α} {j : Nat} :
    l.zipIdx.find? p = some (a, j) ↔ l[j]? = some a ∧ p (a, j) = true ∧
      ∀ j' < j, ∀ a' ∈ l[j']?, p (a', j') = false := by
  rw [List.find?_eq_some_iff_getElem]
  constructor
  · rintro ⟨hp, k, hk, heq, hbefore⟩
    rw [List.getElem_zipIdx, Prod.mk.injEq, Nat.zero_add] at heq
    obtain ⟨rfl, rfl⟩ := heq
    rw [List.length_zipIdx] at hk
    refine ⟨List.getElem?_eq_getElem hk, hp, fun j' hj' a' ha' => ?_⟩
    obtain ⟨hlt, rfl⟩ := List.getElem?_eq_some_iff.mp ha'
    simpa using hbefore j' hj'
  · rintro ⟨ha, hp, hbefore⟩
    obtain ⟨hlt, rfl⟩ := List.getElem?_eq_some_iff.mp ha
    refine ⟨hp, j, by simpa using hlt, by simp, fun j' hj' => ?_⟩
    have := hbefore j' hj' _ (List.getElem?_eq_getElem (hj'.trans hlt))
    simpa using this

/-- A search for a result through numbered elements ends at the first place whose element has one. -/
theorem findSome?_zipIdx_eq_some {α β : Type*} {l : List α} {g : α × Nat → Option β} {b : β}
    (h : l.zipIdx.findSome? g = some b) :
    ∃ i, ∃ a ∈ l[i]?, g (a, i) = some b ∧ ∀ i' < i, ∀ a' ∈ l[i']?, g (a', i') = none := by
  obtain ⟨before, ⟨a, i⟩, after, hsplit, hg, hbefore⟩ := List.findSome?_eq_some_iff.mp h
  have hplace : (l.zipIdx)[before.length]? = some (a, i) := by simp [hsplit]
  rw [List.getElem?_zipIdx, Option.map_eq_some_iff] at hplace
  obtain ⟨_, ha, heq⟩ := hplace
  obtain ⟨rfl, rfl⟩ := Prod.mk.inj heq
  rw [Nat.zero_add] at hg
  refine ⟨before.length, _, ha, hg, fun i' hi' a' ha' => hbefore _ ?_⟩
  have hearly : (l.zipIdx)[i']? = some (a', i') := by rw [List.getElem?_zipIdx, Option.mem_def.mp ha']; simp
  rw [hsplit, List.getElem?_append_left hi'] at hearly
  exact List.mem_of_getElem? hearly

variable [Transcendentals]

/-- The test of two edges by their places. -/
theorem clash_iff {e f : Edge ℚ} (he : es[i]? = some e) (hf : es[j]? = some f) :
    (apart es.length i j && properlyCross e f) = true ↔ i < j ∧ Clash es i j := by
  have hi := (List.getElem?_eq_some_iff.mp he).1
  have hj := (List.getElem?_eq_some_iff.mp hf).1
  rw [Bool.and_eq_true, apart_iff hi hj, properlyCross_iff, Clash, he, hf, and_assoc]
  simp

/-- The search for an edge that a given one crosses finds nothing if none behind it clashes with it. -/
theorem find?_clash_eq_none_iff {e : Edge ℚ} (he : es[i]? = some e) :
    es.zipIdx.find? (fun (f, j) => apart es.zipIdx.length i j && properlyCross e f) = none ↔
      ∀ j, i < j → ¬ Clash es i j := by
  rw [List.find?_eq_none, List.length_zipIdx]
  constructor
  · intro hnone j hlt hclash
    have hf := List.getElem?_eq_getElem hclash.lt.2
    exact hnone _ (List.mk_mem_zipIdx_iff_getElem?.mpr hf) ((clash_iff he hf).mpr ⟨hlt, hclash⟩)
  · rintro hnone ⟨f, j⟩ hf htest
    obtain ⟨hlt, hclash⟩ := (clash_iff he (List.mk_mem_zipIdx_iff_getElem?.mp hf)).mp htest
    exact hnone j hlt hclash

/-- The search for an edge that a given one crosses finds the first one behind it that clashes with it. -/
theorem isLeast_of_find?_clash {e f : Edge ℚ} (he : es[i]? = some e)
    (h : es.zipIdx.find? (fun (f, j) => apart es.zipIdx.length i j && properlyCross e f) = some (f, j)) :
    IsLeast {j | i < j ∧ Clash es i j} j := by
  rw [find?_zipIdx_eq_some_iff, List.length_zipIdx] at h
  obtain ⟨hf, htest, hbefore⟩ := h
  refine ⟨(clash_iff he hf).mp htest, fun j' hj' => ?_⟩
  by_contra hlt
  have hf' := List.getElem?_eq_getElem hj'.2.lt.2
  exact Bool.eq_false_iff.mp (hbefore j' (not_le.mp hlt) _ hf') ((clash_iff he hf').mpr hj')

variable {vertices : List (Point ℚ)}

/-- The search through all pairs of edges finds nothing exactly if no edges clash. -/
theorem firstCrossing_eq_none_iff : firstCrossing vertices = none ↔ ∀ i j, ¬ Clash (edges vertices) i j := by
  rw [firstCrossing, List.findSome?_eq_none_iff]
  constructor
  · intro hnone
    have hbehind (i j : Nat) (hlt : i < j) : ¬ Clash (edges vertices) i j := fun hclash => by
      have he := List.getElem?_eq_getElem hclash.lt.1
      have hrow := hnone _ (List.mk_mem_zipIdx_iff_getElem?.mpr he)
      rw [Option.map_eq_none_iff, find?_clash_eq_none_iff he] at hrow
      exact hrow j hlt hclash
    intro i j hclash
    rcases Nat.lt_or_gt_of_ne hclash.ne with hlt | hgt
    · exact hbehind i j hlt hclash
    · exact hbehind j i hgt hclash.symm
  · rintro hnone ⟨e, i⟩ he
    rw [Option.map_eq_none_iff, find?_clash_eq_none_iff (List.mk_mem_zipIdx_iff_getElem?.mp he)]
    exact fun j _ => hnone i j

/-- The search through all pairs of edges finds the first pair that clashes, in lexicographic order. -/
theorem isLeast_firstCrossing (h : firstCrossing vertices = some (i, j)) :
    IsLeast {p : Nat ×ₗ Nat | Clash (edges vertices) (ofLex p).1 (ofLex p).2} (toLex (i, j)) := by
  obtain ⟨i', e, he, hrow, hbefore⟩ := findSome?_zipIdx_eq_some h
  obtain ⟨⟨f, j'⟩, hfind, heq⟩ := Option.map_eq_some_iff.mp hrow
  obtain ⟨rfl, rfl⟩ := Prod.mk.inj heq
  obtain ⟨⟨-, hclash⟩, hleast⟩ := isLeast_of_find?_clash he hfind
  have hfirst {k l : Nat} (hlt : k < l) (hother : Clash (edges vertices) k l) : toLex (i', j') ≤ toLex (k, l) := by
    rw [Prod.Lex.toLex_le_toLex]
    rcases Nat.lt_trichotomy i' k with hbehind | rfl | hahead
    · exact Or.inl hbehind
    · exact Or.inr ⟨rfl, hleast ⟨hlt, hother⟩⟩
    · -- an earlier row has been searched in vain
      have hk := List.getElem?_eq_getElem hother.lt.1
      have hnone := hbefore k hahead _ hk
      rw [Option.map_eq_none_iff, find?_clash_eq_none_iff hk] at hnone
      exact absurd hother (hnone l hlt)
  refine ⟨hclash, fun p hp => ?_⟩
  rcases Nat.lt_or_gt_of_ne hp.ne with hlt | hgt
  · exact hfirst hlt hp
  · -- named the other way round, the same pair comes earlier
    exact (hfirst hgt hp.symm).trans (Prod.Lex.toLex_le_toLex.mpr (Or.inl hgt))

end Clashes

section Rearrangements

variable {es es' : List (Edge ℚ)} {n : Nat}

/-- Shifted around the cycle, places are as far apart as before. -/
theorem FarApart.shift {i j : Nat} (h : FarApart n i j) (k : Nat) : FarApart n ((i + k) % n) ((j + k) % n) := by
  have hcancel {a b c d : Nat} (heq : (a + k) % n + c ≡ (b + k) % n + d [MOD n]) : a + c ≡ b + d [MOD n] := by
    refine Nat.ModEq.add_right_cancel' k ?_
    calc a + c + k = a + k + c := by omega
      _ ≡ (a + k) % n + c [MOD n] := (Nat.mod_modEq ..).symm.add_right c
      _ ≡ (b + k) % n + d [MOD n] := heq
      _ ≡ b + k + d [MOD n] := (Nat.mod_modEq ..).add_right d
      _ = b + d + k := by omega
  exact ⟨fun heq => h.1 (hcancel (c := 0) (d := 0) heq), fun heq => h.2.1 (hcancel (d := 0) heq),
    fun heq => h.2.2 (hcancel (d := 0) heq)⟩

/-- Counted from the other end, places are as far apart as before. -/
theorem FarApart.turn {i j : Nat} (h : FarApart n i j) (hi : i < n) (hj : j < n) :
    FarApart n (n - 1 - i) (n - 1 - j) := by
  have hcancel {a b c d : Nat} (ha : a < n) (hb : b < n) (heq : n - 1 - a + c ≡ n - 1 - b + d [MOD n]) :
      b + c ≡ a + d [MOD n] := by
    refine Nat.ModEq.add_left_cancel' (n - 1) ?_
    calc n - 1 + (b + c) = n - 1 - a + c + (a + b) := by omega
      _ ≡ n - 1 - b + d + (a + b) [MOD n] := heq.add_right _
      _ = n - 1 + (a + d) := by omega
  exact ⟨fun heq => h.1 (hcancel (c := 0) (d := 0) hi hj heq).symm, fun heq => h.2.2 (hcancel (d := 0) hi hj heq),
    fun heq => h.2.1 (hcancel (d := 0) hj hi heq)⟩

/-- Edges of a rotated cycle clash only if edges of the cycle do. -/
theorem exists_clash_of_rotate (k : Nat) (h : ∃ i j, Clash (es.rotate k) i j) : ∃ i j, Clash es i j := by
  obtain ⟨i, j, hclash⟩ := h
  obtain ⟨hi, hj⟩ := hclash.lt
  obtain ⟨hfar, e, he, f, hf, hcross⟩ := hclash
  rw [List.length_rotate] at hfar hi hj
  rw [List.getElem?_rotate hi] at he
  rw [List.getElem?_rotate hj] at hf
  exact ⟨_, _, hfar.shift k, e, he, f, hf, hcross⟩

/-- Whether any edges clash does not depend on where the cycle starts. -/
theorem exists_clash_rotate (k : Nat) : (∃ i j, Clash (es.rotate k) i j) ↔ ∃ i j, Clash es i j := by
  refine ⟨exists_clash_of_rotate k, fun h => ?_⟩
  obtain ⟨back, hback⟩ := (List.IsRotated.forall es k : es.rotate k ~r es)
  rw [← hback] at h
  exact exists_clash_of_rotate back h

/-- Whether any edges clash does not depend on the direction of the cycle. -/
theorem exists_clash_reverse : (∃ i j, Clash es.reverse i j) ↔ ∃ i j, Clash es i j := by
  have hturn (es : List (Edge ℚ)) (h : ∃ i j, Clash es.reverse i j) : ∃ i j, Clash es i j := by
    obtain ⟨i, j, hclash⟩ := h
    obtain ⟨hi, hj⟩ := hclash.lt
    obtain ⟨hfar, e, he, f, hf, hcross⟩ := hclash
    rw [List.length_reverse] at hfar hi hj
    rw [List.getElem?_reverse hi] at he
    rw [List.getElem?_reverse hj] at hf
    exact ⟨_, _, hfar.turn hi hj, e, he, f, hf, hcross⟩
  refine ⟨hturn es, fun h => hturn es.reverse ?_⟩
  rwa [List.reverse_reverse]

/-- Edges that are all turned around clash where they did before. -/
theorem clash_map_swap {i j : Nat} : Clash (es.map Prod.swap) i j ↔ Clash es i j := by
  rw [Clash, Clash, List.length_map, List.getElem?_map, List.getElem?_map]
  refine and_congr_right fun _ => ?_
  simp only [Option.mem_def, Option.map_eq_some_iff, exists_exists_and_eq_and, cross_swap]

end Rearrangements

section Areas

variable [Transcendentals] (vertices : List (Point ℚ))

/-- What an edge adds to twice the area. -/
def sweptArea (e : Edge ℚ) : ℚ := e.1.x * e.2.y - e.2.x * e.1.y

/-- The area of a polygon is half the sum over its edges. -/
theorem signedArea_eq : signedArea vertices = ((edges vertices).map sweptArea).sum / 2 := by
  have hfold (es : List (Edge ℚ)) (start : ℚ) :
      es.foldl (fun sum e => sum + sweptArea e) start = start + (es.map sweptArea).sum := by
    induction es generalizing start with
    | nil => simp
    | cons e es ih => rw [List.foldl_cons, ih, List.map_cons, List.sum_cons, add_assoc]
  have hsum := hfold (edges vertices) 0
  rw [zero_add] at hsum
  rw [← hsum]
  rfl

/-- The area of a polygon does not depend on the starting vertex. -/
theorem signedArea_rotate (k : Nat) : signedArea (vertices.rotate k) = signedArea vertices := by
  rw [signedArea_eq, signedArea_eq, edges_rotate, ((List.rotate_perm _ k).map sweptArea).sum_eq]

/-- The area of a polygon changes its sign with the direction. -/
theorem signedArea_reverse : signedArea vertices.reverse = -signedArea vertices := by
  have hswap : sweptArea ∘ Prod.swap = fun e => -sweptArea e := by
    funext e
    exact (neg_sub _ _).symm
  rw [signedArea_eq, signedArea_eq, ((edges_reverse_perm vertices).map sweptArea).sum_eq, List.map_map, hswap,
    ← neg_div, List.sum_neg, List.map_map]
  rfl

end Areas

section Faults

variable [Transcendentals] {vertices : List (Point ℚ)}

/-- Exact coordinates are finite, so that only the number of vertices, the area and the crossings are looked at. -/
theorem fault?_eq (vertices : List (Point ℚ)) : fault? vertices =
    if vertices.length < 3 then some (.tooFewVertices vertices.length)
    else if |signedArea vertices| < leastArea ℚ then some .zeroArea
    else (firstCrossing vertices).map fun (i, j) => .selfIntersecting i j := by
  have hfinite : ¬ (vertices.any fun p => !(Scalar.isFinite p.x && Scalar.isFinite p.y)) = true := by
    rw [List.any_eq_true]
    rintro ⟨p, -, hp⟩
    exact Bool.false_ne_true hp
  rw [fault?, if_neg hfinite]
  rfl

/-- A polygon has no fault when it has three vertices, an area that counts, and no edges that clash. -/
theorem fault?_eq_none_iff : fault? vertices = none ↔
    3 ≤ vertices.length ∧ leastArea ℚ ≤ |signedArea vertices| ∧ ¬ ∃ i j, Clash (edges vertices) i j := by
  rw [fault?_eq]
  split
  · next hfew => simp [Nat.not_le.mpr hfew]
  · next hlength =>
    split
    · next hsmall => simp [not_le.mpr hsmall]
    · next harea => simp [Nat.le_of_not_lt hlength, not_lt.mp harea, firstCrossing_eq_none_iff]

/-- The fault of a polygon with three vertices and an area that counts is the first pair of edges that clash. -/
theorem fault?_eq_selfIntersecting_iff (hlength : 3 ≤ vertices.length)
    (harea : leastArea ℚ ≤ |signedArea vertices|)
    (i j : Nat) : fault? vertices = some (.selfIntersecting i j) ↔
      IsLeast {p : Nat ×ₗ Nat | Clash (edges vertices) (ofLex p).1 (ofLex p).2} (toLex (i, j)) := by
  rw [fault?_eq, if_neg (Nat.not_lt.mpr hlength), if_neg (not_lt.mpr harea)]
  cases hfirst : firstCrossing vertices with
  | none =>
    refine iff_of_false (by simp) fun hleast => ?_
    exact firstCrossing_eq_none_iff.mp hfirst i j hleast.1
  | some pair =>
    obtain ⟨i', j'⟩ := pair
    simp only [Option.map_some, Option.some.injEq, Fault.selfIntersecting.injEq]
    constructor
    · rintro ⟨rfl, rfl⟩
      exact isLeast_firstCrossing hfirst
    · intro hleast
      exact Prod.mk.inj (toLex_inj.mp ((isLeast_firstCrossing hfirst).unique hleast))

end Faults

/-- Whether a polygon is usable depends on its shape alone. In exact arithmetic, a polygon of at least three
vertices with an area that counts is refused for crossing edges exactly when two of its edges that are not next to
each other around the polygon cross, that is, have a single point in common which lies between the ends of both;
the pair that is named is the first one in lexicographic order. So a polygon that is accepted is accepted from
every starting vertex and in both directions. -/
theorem fault?_of_shape [Transcendentals] (vertices : List (Point ℚ)) :
    (3 ≤ vertices.length → leastArea ℚ ≤ |signedArea vertices| →
      ((∃ i j, fault? vertices = some (.selfIntersecting i j)) ↔ ∃ i j, Clash (edges vertices) i j) ∧
      ∀ i j, fault? vertices = some (.selfIntersecting i j) ↔
        IsLeast {p : Nat ×ₗ Nat | Clash (edges vertices) (ofLex p).1 (ofLex p).2} (toLex (i, j))) ∧
    (∀ n, fault? (vertices.rotate n) = none ↔ fault? vertices = none) ∧
    (fault? vertices.reverse = none ↔ fault? vertices = none) := by
  refine ⟨fun hlength harea => ⟨?_, fault?_eq_selfIntersecting_iff hlength harea⟩, fun n => ?_, ?_⟩
  · constructor
    · rintro ⟨i, j, hfault⟩
      exact ⟨i, j, ((fault?_eq_selfIntersecting_iff hlength harea i j).mp hfault).1⟩
    · rintro ⟨i, j, hclash⟩
      cases hfirst : firstCrossing vertices with
      | none => exact absurd hclash (firstCrossing_eq_none_iff.mp hfirst i j)
      | some pair =>
        exact ⟨_, _, (fault?_eq_selfIntersecting_iff hlength harea ..).mpr (isLeast_firstCrossing hfirst)⟩
  · rw [fault?_eq_none_iff, fault?_eq_none_iff, List.length_rotate, signedArea_rotate, edges_rotate,
      exists_clash_rotate]
  · rw [fault?_eq_none_iff, fault?_eq_none_iff, List.length_reverse, signedArea_reverse, abs_neg, edges_reverse,
      exists_clash_rotate, exists_clash_reverse]
    simp only [clash_map_swap]

/-- A square has no fault, whichever corner it starts from and read backwards as well. A bow tie is refused for its
first and its third edge, which are the first two that clash. -/
theorem fault?_square_bow_tie :
    let _ := Transcendentals.ofSquares
    let square : List (Point ℚ) := [⟨0, 0⟩, ⟨10, 0⟩, ⟨10, 10⟩, ⟨0, 10⟩]
    let bowTie : List (Point ℚ) := [⟨0, 0⟩, ⟨10, 10⟩, ⟨10, 0⟩, ⟨0, 6⟩]
    (fault? square = none ∧ (∀ n, fault? (square.rotate n) = none) ∧ fault? square.reverse = none) ∧
      3 ≤ bowTie.length ∧ leastArea ℚ ≤ |signedArea bowTie| ∧ fault? bowTie = some (.selfIntersecting 0 2) ∧
      IsLeast {p : Nat ×ₗ Nat | Clash (edges bowTie) (ofLex p).1 (ofLex p).2} (toLex (0, 2)) := by
  intro _ square bowTie
  have hsquare : fault? square = none := by decide +kernel
  have hrefused : fault? bowTie = some (.selfIntersecting 0 2) := by decide +kernel
  have hlength : 3 ≤ bowTie.length := by decide
  have harea : leastArea ℚ ≤ |signedArea bowTie| := by decide +kernel
  obtain ⟨-, hrotate, hreverse⟩ := fault?_of_shape square
  obtain ⟨hcrossing, -⟩ := fault?_of_shape bowTie
  exact ⟨⟨hsquare, fun n => (hrotate n).mpr hsquare, hreverse.mpr hsquare⟩, hlength, harea, hrefused,
    ((hcrossing hlength harea).2 0 2).mp hrefused⟩

end Polygon

end ScannedPage
