import ScannedPage.Proofs.Page.Parallel
import ScannedPage.Proofs.Page.Warnings

/-!
# Zones that are set aside

A zone that is not usable on the working image leaves a warning and nothing else. The usable zones alone take the
page through the same steps, since every step works with the sifted list, and the sifted list of the usable zones
is that of all zones (`Zone.sift_usable`). The warnings about zones stand before those about reconstructions; they
give the places in the list of the settings, in order, and not the places among the zones that are left.
-/

namespace ScannedPage

section Sift

variable (zones : List Zone)

/-- The places of unusable zones are among the places of all zones, in order. -/
theorem Zone.places_sift_sublist :
    ((Zone.sift zones).2.map Prod.fst).Sublist (List.range zones.length) := by
  -- The first place is general, since every zone shifts the places of the zones after it.
  suffices h : ∀ first, (((zones.zipIdx first).filterMap fun entry => entry.1.fault?.map fun e => (entry.2, e)).map
      Prod.fst).Sublist (List.range' first zones.length) by
    rw [List.range_eq_range']
    exact h 0
  induction zones with
  | nil =>
    intro first
    exact List.Sublist.refl _
  | cons z zones ih =>
    intro first
    rw [List.zipIdx_cons, List.length_cons, List.range'_succ, List.filterMap_cons]
    cases hz : z.fault? with
    | none =>
      simp only [Option.map_none]
      exact (ih (first + 1)).cons first
    | some e =>
      simp only [Option.map_some, List.map_cons]
      exact (ih (first + 1)).cons_cons first

/-- A zone is set aside with the reason that makes it unusable. -/
theorem Zone.mem_sift_iff {place : Nat} {reason : ZoneError} :
    (place, reason) ∈ (Zone.sift zones).2 ↔ ∃ z, zones[place]? = some z ∧ z.fault? = some reason := by
  simp only [Zone.sift, List.mem_filterMap, Prod.exists, List.mem_zipIdx_iff_getElem?, Option.map_eq_some_iff,
    Prod.mk.injEq]
  constructor
  · rintro ⟨z, i, hz, e, he, rfl, rfl⟩
    exact ⟨z, hz, he⟩
  · rintro ⟨z, hz, he⟩
    exact ⟨z, place, hz, reason, he, rfl, rfl⟩

/-- The zones that a map makes usable sift to themselves, and are those that all zones sift to. -/
theorem Zone.sift_usable (f : Zone → Zone) :
    Zone.sift ((zones.filter fun z => (f z).fault?.isNone).map f) = ((Zone.sift (zones.map f)).1, []) := by
  have hall : ∀ z ∈ (zones.filter fun z => (f z).fault?.isNone).map f, z.fault? = none := by
    intro z hz
    obtain ⟨z', hz', rfl⟩ := List.mem_map.mp hz
    exact Option.isNone_iff_eq_none.mp (List.mem_filter.mp hz').2
  rw [Zone.sift_of_usable hall]
  simp [Zone.sift, List.filter_map, Function.comp_def]

end Sift

/-- The place that a warning about a zone names. -/
def PageWarning.place? : PageWarning → Option Nat
  | convergence _ _ => none
  | invalidZone place _ => some place

section Warnings

variable (rejected : List (Nat × ZoneError)) {ws : List PageWarning}

variable (hws : ∀ w ∈ ws, w.isConvergence = true)
include hws

/-- Beside warnings about reconstructions, the others are those about zones. -/
theorem filter_rejections : (rejections rejected ++ ws).filter (!·.isConvergence) = rejections rejected := by
  rw [List.filter_append, List.filter_eq_self.mpr, List.filter_eq_nil_iff.mpr, List.append_nil]
  · intro w hw
    simp [hws w hw]
  · intro w hw
    obtain ⟨_, _, rfl⟩ := List.mem_map.mp hw
    rfl

/-- Beside warnings about reconstructions, one about a zone reports a zone that was set aside. -/
theorem mem_rejections {place : Nat} {reason : ZoneError} :
    .invalidZone place reason ∈ rejections rejected ++ ws ↔ (place, reason) ∈ rejected := by
  constructor
  · intro h
    obtain h | h := List.mem_append.mp h
    · obtain ⟨⟨_, _⟩, hmem, heq⟩ := List.mem_map.mp h
      obtain ⟨rfl, rfl⟩ := PageWarning.invalidZone.inj heq
      exact hmem
    · exact absurd (hws _ h) (by simp [PageWarning.isConvergence])
  · intro h
    exact List.mem_append_left _ (List.mem_map.mpr ⟨_, h, rfl⟩)

/-- The places that warnings name are those of the zones that were set aside. -/
theorem places_rejections : (rejections rejected ++ ws).filterMap PageWarning.place? = rejected.map Prod.fst := by
  have hnone : ws.filterMap PageWarning.place? = [] := by
    apply List.filterMap_eq_nil_iff.mpr
    intro w hw
    cases w with
    | convergence => rfl
    | invalidZone => exact absurd (hws _ hw) (by simp [PageWarning.isConvergence])
  rw [List.filterMap_append, hnone, List.append_nil, rejections, List.filterMap_map, ← List.filterMap_eq_map]
  rfl

end Warnings

namespace PageSettings

variable {s : PageSettings} {input : Raster}

/-- The zones of the settings that are usable on the image that the page is worked on. -/
def usableZones (s : PageSettings) (input : Raster) : List Zone :=
  s.zones.filter fun z => (s.workingZone input z).fault?.isNone

/-- The output names the zones that are not usable, and is that of the usable zones in everything else. -/
structure SetsAside (s : PageSettings) (input : Raster) (out kept : PageOutput) : Prop where
  /-- The usable zones alone give the same page, findings and images, and the same warnings but those about
  zones. -/
  kept_eq : kept = { out with warnings := out.warnings.filter (·.isConvergence) }
  /-- The warnings about zones come before all others. -/
  warnings_eq : out.warnings = out.warnings.filter (!·.isConvergence) ++ out.warnings.filter (·.isConvergence)
  /-- The warnings about zones name the zones that are not usable, each with the reason. -/
  mem_iff : ∀ place reason, .invalidZone place reason ∈ out.warnings ↔
    ∃ z, s.zones[place]? = some z ∧ (s.workingZone input z).fault? = some reason
  /-- The warnings about zones name these in the order of the settings, and each once. -/
  places_lt : (out.warnings.filterMap PageWarning.place?).Pairwise (· < ·)

/-- A run names the zones that it sets aside, before all other warnings. -/
theorem Run.setsAside (run : s.Run input) : s.SetsAside input run.output
    { run.output with warnings := run.output.warnings.filter (·.isConvergence) } := by
  have hws : ∀ w ∈ run.output.warnings.filter (·.isConvergence), w.isConvergence = true :=
    fun w hw => (List.mem_filter.mp hw).2
  refine ⟨rfl, ?_, ?_, ?_⟩
  · have hzones := filter_rejections (Zone.sift run.allZones).2 hws
    rw [← run.warnings_eq] at hzones
    rw [hzones]
    exact run.warnings_eq
  · intro place reason
    rw [run.warnings_eq, mem_rejections _ hws, Zone.mem_sift_iff, run.allZones_eq, workingZones, List.getElem?_map]
    simp only [Option.map_eq_some_iff, exists_exists_and_eq_and]
  · rw [run.warnings_eq, places_rejections _ hws]
    exact List.pairwise_lt_range.sublist (Zone.places_sift_sublist run.allZones)

/-- Without the zones that are not usable, every step is the same. -/
theorem stepsAgree_usableZones (s : PageSettings) (input : Raster) :
    s.StepsAgree { s with zones := s.usableZones input } input := by
  have hzones : Zone.sift (workingZones { s with zones := s.usableZones input } input) =
      ((Zone.sift (s.workingZones input)).1, []) := Zone.sift_usable s.zones (s.workingZone input)
  constructor
  · rfl
  · rfl
  · intro source
    rfl
  · intro gray
    rw [hzones]
    rfl
  · intro gray layers
    rw [hzones]
    rfl

/-- The usable zones alone give the output of all zones without the warnings about zones, under settings with every
value in range. -/
theorem processNormalized_usableZones (s : PageSettings) (input : Raster) :
    Alike (s.SetsAside input) (s.processNormalized input)
      (processNormalized { s with zones := s.usableZones input } input) := by
  refine (processNormalized_alike (stepsAgree_usableZones s input)).mono ?_
  rintro _ _ ⟨run, run', rfl, rfl, hsame⟩
  have hzones : Zone.sift run'.allZones = ((Zone.sift run.allZones).1, []) := by
    rw [run'.allZones_eq, run.allZones_eq]
    exact Zone.sift_usable s.zones (s.workingZone input)
  have houtput : run'.output = { run.output with warnings := run.output.warnings.filter (·.isConvergence) } := by
    rw [run.filter_isConvergence]
    simp only [Run.output, Run.zones, hzones, hsame.copies_eq, hsame.found_eq, hsame.parts_eq, hsame.page_eq]
    rfl
  rw [houtput]
  exact run.setsAside

/-- A zone that is set aside has no effect besides its warning: the usable zones alone end with the same fault, or
with an output that lacks the warnings about zones and is the same in everything else; and these warnings name the
zones that are not usable on the working image, in order and before all others. -/
theorem process_usableZones (s : PageSettings) (input : Raster) (cancelled : Bool) :
    Alike (s.normalized.SetsAside input) (s.process input cancelled)
      (process { s with zones := s.normalized.usableZones input } input cancelled) := by
  refine (Alike.refl (checkpoint cancelled)).bind ?_
  intro _ _ _
  exact processNormalized_usableZones s.normalized input

end PageSettings

end ScannedPage
