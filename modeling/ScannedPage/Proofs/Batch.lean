import Mathlib.Data.List.Basic
import ScannedPage.Page.Batch

/-!
# Batches page by page

A report splits the results of a batch in two and notes their places. Whoever looks the places up among the pages
gets every output, and every failure, with the page that it belongs to (`BatchReport.outputs_at`,
`BatchReport.failures_at`).
-/

namespace ScannedPage

/-- The fault of a step that was refused. -/
def refusal? {ε α : Type} : Except ε α → Option ε
  | .error fault => some fault
  | .ok _ => none

/-- What was noted with its place is found again at the place. -/
theorem filterMap_places {α β γ : Type} (l : List α) (k : α → Option β) (g : α → β → γ) :
    ((l.zipIdx.filterMap fun (a, i) => (k a).map fun b => (i, b)).filterMap
      fun (i, b) => l[i]?.map fun a => g a b) = l.filterMap fun a => (k a).map (g a) := by
  rw [List.filterMap_filterMap]
  calc
    _ = l.zipIdx.filterMap fun entry => (k entry.1).map (g entry.1) := by
      apply List.filterMap_congr
      rintro ⟨a, i⟩ hmem
      have hat : l[i]? = some a := List.mem_zipIdx_iff_getElem?.mp hmem
      cases hk : k a <;> simp [hat, hk]
    _ = _ := by
      conv_rhs => rw [← List.zipIdx_map_fst 0 l, List.filterMap_map]
      rfl

namespace BatchReport

/-- Adding results one after another adds their outputs and their faults. -/
theorem foldl_add (results : List (Except PageError PageOutput × Nat)) (b : BatchReport) :
    results.foldl (fun b (result, place) => b.add place result) b =
      ⟨b.outputs ++ results.filterMap fun (result, place) => result.toOption.map fun o => (place, o),
        b.failures ++ results.filterMap fun (result, place) => (refusal? result).map fun e => (place, e)⟩ := by
  induction results generalizing b with
  | nil => simp
  | cons entry results ih =>
    obtain ⟨result, place⟩ := entry
    rw [List.foldl_cons, ih]
    cases result <;> simp [add, Except.toOption, refusal?]

variable {α β : Type} (pages : List α) (f : α → Except PageError PageOutput)

/-- The report of a batch, page by page. -/
theorem ofResults_map : ofResults (pages.map f) =
    ⟨pages.zipIdx.filterMap fun (p, i) => (f p).toOption.map fun o => (i, o),
      pages.zipIdx.filterMap fun (p, i) => (refusal? (f p)).map fun e => (i, e)⟩ := by
  rw [ofResults, foldl_add, List.zipIdx_map, List.filterMap_map, List.filterMap_map]
  rfl

/-- Every output is at the place of its page. -/
theorem outputs_at (g : α → PageOutput → β) :
    ((ofResults (pages.map f)).outputs.filterMap fun (place, o) => pages[place]?.map fun p => g p o) =
      pages.filterMap fun p => (f p).toOption.map (g p) := by
  rw [ofResults_map]
  exact filterMap_places pages (fun p => (f p).toOption) g

/-- Every failure is at the place of its page. -/
theorem failures_at (g : α → PageError → β) :
    ((ofResults (pages.map f)).failures.filterMap fun (place, e) => pages[place]?.map fun p => g p e) =
      pages.filterMap fun p => (refusal? (f p)).map (g p) := by
  rw [ofResults_map]
  exact filterMap_places pages (fun p => refusal? (f p)) g

/-- A batch succeeds if no page fails. -/
theorem isSuccess_iff : (ofResults (pages.map f)).isSuccess = true ↔ ∀ p ∈ pages, refusal? (f p) = none := by
  rw [isSuccess, List.isEmpty_iff, ofResults_map, List.filterMap_eq_nil_iff]
  conv_rhs => rw [← List.zipIdx_map_fst 0 pages, List.forall_mem_map]
  simp only [Option.map_eq_none_iff]

end BatchReport

end ScannedPage
