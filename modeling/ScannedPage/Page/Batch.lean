import ScannedPage.Page.Process

/-!
# Batches of pages

The pages of a batch do not know of each other: the entry of a page is what processing that page
alone gives. The report lists outputs and failures apart, each in the order of the pages.
-/

namespace ScannedPage

/-- The pages that succeeded and those that failed, by their places in the batch. -/
structure BatchReport where
  outputs : List (Nat × PageOutput)
  failures : List (Nat × PageError)

namespace BatchReport

/-- No page at all. -/
def empty : BatchReport := ⟨[], []⟩

/-- Adds the result of a page. -/
def add (b : BatchReport) (place : Nat) : Except PageError PageOutput → BatchReport
  | .ok output => { b with outputs := b.outputs ++ [(place, output)] }
  | .error fault => { b with failures := b.failures ++ [(place, fault)] }

/-- The report on the results of all pages in order. -/
def ofResults (results : List (Except PageError PageOutput)) : BatchReport :=
  results.zipIdx.foldl (fun b (result, place) => b.add place result) empty

/-- No page failed. -/
def isSuccess (b : BatchReport) : Bool := b.failures.isEmpty

/-- The number of pages. -/
def size (b : BatchReport) : Nat := b.outputs.length + b.failures.length

/-- There was no page. -/
def isEmpty (b : BatchReport) : Bool := b.size == 0

/-- The output of the page at a place, if it succeeded. -/
def output? (b : BatchReport) (place : Nat) : Option PageOutput :=
  (b.outputs.find? fun entry => entry.1 == place).map (·.2)

end BatchReport

/-- Processes pages that each carry settings of their own. -/
def runBatchWithSettings (pages : List (Raster × PageSettings)) (cancelled : Bool) : BatchReport :=
  .ofResults (pages.map fun (page, settings) => settings.process page cancelled)

/-- Processes pages that share one settings record. -/
def runBatch (pages : List Raster) (settings : PageSettings) (cancelled : Bool) : BatchReport :=
  .ofResults (pages.map fun page => settings.process page cancelled)

end ScannedPage
