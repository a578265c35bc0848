import Mathlib.Data.List.Basic
import Mathlib.Data.List.Nodup
import ScannedPage.Proofs.Batch

/-!
# Batches are partitions of independent pages

The report of a batch lists every place once, either among the outputs or among the failures, and both lists follow
the order of the pages (`BatchReport.Partitions`). The entry at a place is what processing makes of the page there
alone, so that the pages around it may be exchanged for any others. The results of the pages come in the order of
the pages; how the work on them is scheduled is no part of the report.
-/

namespace ScannedPage

/-- The places at which something was noted follow the order of the list. -/
theorem map_fst_filterMap_places {α β : Type} (l : List α) (k : α → Option β) :
    (l.zipIdx.filterMap fun (a, i) => (k a).map fun b => (i, b)).map Prod.fst =
      (l.zipIdx.filter fun entry => (k entry.1).isSome).map Prod.snd := by
  induction l.zipIdx with
  | nil => rfl
  | cons entry entries ih =>
    obtain ⟨a, i⟩ := entry
    cases hk : k a with
    | none => simpa [hk] using ih
    | some b => simpa [hk] using ih

/-- What was noted with its place stands at that place of the list. -/
theorem mem_filterMap_places {α β : Type} (l : List α) (k : α → Option β) (i : Nat) (b : β) :
    (i, b) ∈ (l.zipIdx.filterMap fun (a, i) => (k a).map fun b => (i, b)) ↔ l[i]?.bind k = some b := by
  simp only [List.mem_filterMap, Prod.exists, Option.map_eq_some_iff, Prod.mk.injEq, List.mem_zipIdx_iff_getElem?,
    Option.bind_eq_some_iff]
  constructor
  · rintro ⟨a, j, hat, b', hb', rfl, rfl⟩
    exact ⟨a, hat, hb'⟩
  · rintro ⟨a, hat, hb⟩
    exact ⟨a, i, hat, b, hb, rfl, rfl⟩

/-- A step is refused or gives a result, and never both. -/
theorem isSome_refusal? {ε α : Type} (step : Except ε α) : (refusal? step).isSome = !step.toOption.isSome := by
  cases step <;> rfl

namespace BatchReport

/-- The places of the pages that succeeded. -/
def outputPlaces (b : BatchReport) : List Nat := b.outputs.map Prod.fst

/-- The places of the pages that failed. -/
def failurePlaces (b : BatchReport) : List Nat := b.failures.map Prod.fst

/-- The report has a result as an entry at a place. -/
def Enters (b : BatchReport) (place : Nat) : Except PageError PageOutput → Prop
  | .ok output => (place, output) ∈ b.outputs
  | .error fault => (place, fault) ∈ b.failures

/-- The report lists every result of a list once, at its place and in order. -/
structure Partitions (b : BatchReport) (results : List (Except PageError PageOutput)) : Prop where
  outputs_increase : b.outputPlaces.Pairwise (· < ·)
  failures_increase : b.failurePlaces.Pairwise (· < ·)
  disjoint : b.outputPlaces.Disjoint b.failurePlaces
  places_perm : (b.outputPlaces ++ b.failurePlaces).Perm (List.range results.length)
  enters_iff : ∀ place result, b.Enters place result ↔ results[place]? = some result
  output?_eq : ∀ place, b.output? place = results[place]?.bind Except.toOption

section Results

variable (results : List (Except PageError PageOutput))

/-- The outputs and the failures of a report, noted with their places. -/
theorem ofResults_eq : ofResults results =
    ⟨results.zipIdx.filterMap fun (r, i) => r.toOption.map fun o => (i, o),
      results.zipIdx.filterMap fun (r, i) => (refusal? r).map fun e => (i, e)⟩ := by
  have h := ofResults_map results id
  rwa [List.map_id] at h

/-- The pages that succeeded stand at the places of the results. -/
theorem outputPlaces_ofResults : (ofResults results).outputPlaces =
    (results.zipIdx.filter fun entry => entry.1.toOption.isSome).map Prod.snd := by
  rw [ofResults_eq, outputPlaces, map_fst_filterMap_places]

/-- The pages that failed stand at the other places. -/
theorem failurePlaces_ofResults : (ofResults results).failurePlaces =
    (results.zipIdx.filter fun entry => !entry.1.toOption.isSome).map Prod.snd := by
  rw [ofResults_eq, failurePlaces, map_fst_filterMap_places]
  simp only [isSome_refusal?]

/-- A part of the results in their order has increasing places. -/
theorem pairwise_places (keep : Except PageError PageOutput × Nat → Bool) :
    ((results.zipIdx.filter keep).map Prod.snd).Pairwise (· < ·) := by
  have hall : (results.zipIdx.map Prod.snd).Pairwise (· < ·) := by
    rw [List.zipIdx_map_snd]
    exact List.pairwise_lt_range'
  exact hall.sublist (List.filter_sublist.map Prod.snd)

/-- Every place is that of an output or of a failure. -/
theorem places_ofResults_perm : ((ofResults results).outputPlaces ++ (ofResults results).failurePlaces).Perm
    (List.range results.length) := by
  have hall : results.zipIdx.map Prod.snd = List.range results.length := by
    rw [List.zipIdx_map_snd, List.range_eq_range']
  rw [outputPlaces_ofResults, failurePlaces_ofResults, ← List.map_append, ← hall]
  exact (List.filter_append_perm (fun entry => entry.1.toOption.isSome) results.zipIdx).map Prod.snd

/-- No place is that of an output and of a failure. -/
theorem places_ofResults_disjoint :
    (ofResults results).outputPlaces.Disjoint (ofResults results).failurePlaces := by
  have hnodup := (places_ofResults_perm results).nodup_iff.mpr List.nodup_range
  exact (List.nodup_append'.mp hnodup).2.2

/-- The entry at a place is the result there. -/
theorem enters_ofResults_iff (place : Nat) (result : Except PageError PageOutput) :
    (ofResults results).Enters place result ↔ results[place]? = some result := by
  rw [ofResults_eq]
  cases result with
  | ok output =>
    refine (mem_filterMap_places results Except.toOption place output).trans ?_
    cases results[place]? with
    | none => simp
    | some r => cases r <;> simp [Except.toOption]
  | error fault =>
    refine (mem_filterMap_places results refusal? place fault).trans ?_
    cases results[place]? with
    | none => simp
    | some r => cases r <;> simp [refusal?]

/-- Looking up a place finds the output of the page there, if it has one. -/
theorem output?_ofResults (place : Nat) :
    (ofResults results).output? place = results[place]?.bind Except.toOption := by
  have hat : ∀ output, (place, output) ∈ (ofResults results).outputs ↔
      results[place]?.bind Except.toOption = some output := by
    intro output
    rw [ofResults_eq]
    exact mem_filterMap_places results Except.toOption place output
  rw [output?]
  cases hfind : (ofResults results).outputs.find? fun entry => entry.1 == place with
  | some entry =>
    obtain ⟨place', output⟩ := entry
    have hplace : (place' == place) = true :=
      List.find?_some (p := fun entry : Nat × PageOutput => entry.1 == place) hfind
    obtain rfl : place' = place := beq_iff_eq.mp hplace
    exact ((hat output).mp (List.mem_of_find?_eq_some hfind)).symm
  | none =>
    cases hresult : results[place]?.bind Except.toOption with
    | none => rfl
    | some output =>
      have hother := List.find?_eq_none.mp hfind _ ((hat output).mpr hresult)
      exact absurd (beq_self_eq_true place) hother

/-- A report lists every result once, at its place and in order. -/
theorem partitions_ofResults : (ofResults results).Partitions results where
  outputs_increase := by
    rw [outputPlaces_ofResults]
    exact pairwise_places results _
  failures_increase := by
    rw [failurePlaces_ofResults]
    exact pairwise_places results _
  disjoint := places_ofResults_disjoint results
  places_perm := places_ofResults_perm results
  enters_iff := enters_ofResults_iff results
  output?_eq := output?_ofResults results

end Results

end BatchReport

/-- A batch lists what becomes of every page, and each page is processed as if it were alone: whatever pages stand
before and after it, its entry and the output found at its place are its own. Pages that share one record are
processed as if each carried it. -/
theorem runBatchWithSettings_partitions (pages : List (Raster × PageSettings)) (cancelled : Bool) :
    (runBatchWithSettings pages cancelled).Partitions
      (pages.map fun (page, settings) => settings.process page cancelled) ∧
    (∀ before after page settings,
      (∀ result,
        (runBatchWithSettings (before ++ (page, settings) :: after) cancelled).Enters before.length result ↔
        settings.process page cancelled = result) ∧
      (runBatchWithSettings (before ++ (page, settings) :: after) cancelled).output? before.length =
        (settings.process page cancelled).toOption) ∧
    ∀ shared settings, runBatch shared settings cancelled =
      runBatchWithSettings (shared.map fun page => (page, settings)) cancelled := by
  refine ⟨BatchReport.partitions_ofResults _, fun before after page settings => ?_, fun shared settings => ?_⟩
  · have hpart := BatchReport.partitions_ofResults
      ((before ++ (page, settings) :: after).map fun (page, settings) => settings.process page cancelled)
    have hat : ((before ++ (page, settings) :: after).map fun (page, settings) =>
        settings.process page cancelled)[before.length]? = some (settings.process page cancelled) := by
      simp
    refine ⟨fun result => ?_, ?_⟩
    · refine (hpart.enters_iff before.length result).trans ?_
      rw [hat, Option.some.injEq]
    · refine (hpart.output?_eq before.length).trans ?_
      rw [hat, Option.bind_some]
  · rw [runBatch, runBatchWithSettings, List.map_map]
    rfl

end ScannedPage
