import ScannedPage.Bitmap.Basic
import ScannedPage.Job.Basic
import ScannedPage.Page.Batch
import ScannedPage.Path

/-!
# Running a job

All pages of a job are read, those that could be read are processed as a batch, and what succeeded is
written. The log first names the pages that could not be read, then those that failed, then every output
with its warnings. A page that fails does not keep the others from being processed. The files are reached
through a `PageStore`, so that the same run works on any kind of files.
-/

namespace ScannedPage

/-- Access to files: their texts and the pictures in them. -/
structure PageStore (m : Type → Type) where
  readText : String → m (Except JobError String)
  readPicture : String → m (Except JobError Bitmap)
  /-- Writes a picture, in a directory that is made if need be. -/
  writePicture : String → Bitmap → m (Except JobError Unit)

/-- What a line of the log tells of. -/
inductive LogLevel
  | error | warning | success
deriving DecidableEq, Repr

/-- How a line of the level begins. -/
def LogLevel.label : LogLevel → String
  | error => "ERROR: "
  | warning => "WARN: "
  | success => "OK: "

/-- A line of the log. -/
inductive LogEntry
  | unloadable (job : String) (fault : JobError)
  | unreadable (input : String) (fault : JobError)
  | failed (input output : String) (fault : PageError)
  | warning (input : String) (warning : PageWarning)
  | unwritable (output : String) (fault : JobError)
  | done (input output : String) (specks : Nat)

namespace LogEntry

/-- What the line tells of. -/
def level : LogEntry → LogLevel
  | unloadable .. | unreadable .. | failed .. | unwritable .. => .error
  | warning .. => .warning
  | done .. => .success

/-- The line after its label. -/
def content : LogEntry → String
  | unloadable job fault => "Failed to load job file " ++ job ++ ": " ++ fault.message
  | unreadable input fault => "Failed to read " ++ input ++ ": " ++ fault.message
  | failed input output fault => input ++ " -> " ++ output ++ ": " ++ fault.message
  | warning input w => input ++ ": " ++ w.message
  | unwritable output fault => "Failed to write " ++ output ++ ": " ++ fault.message
  | done input output specks => input ++ " -> " ++ output ++ " (" ++ toString specks ++ " specks removed)"

/-- The text of a line. -/
def text (e : LogEntry) : String := e.level.label ++ e.content

end LogEntry

/-- The lines on a job, and whether everything came to its output. -/
structure JobLog where
  entries : List LogEntry
  succeeds : Bool

/-- A page that was read, with the places it came from and goes to. -/
structure LoadedPage where
  input : String
  output : String
  page : Raster

/-- The file beside an output that shows it between two steps. -/
def snapshotPath (output name : String) : String :=
  Path.withFileName output ((Path.stem? output).getD "page" ++ "." ++ name ++ ".png")

namespace Job

variable {m : Type → Type} [Monad m]

/-- Reads a page, which gets the resolution that the job says. -/
def readPage (store : PageStore m) (path : String) (dots : Nat) : m (Except JobError Raster) := do
  let picture ← store.readPicture path
  return (picture.bind fun b => b.toRaster.mapError .raster).map fun r => r.withResolution (.uniform dots)

/-- A page of the job with its paths, taken from the directory of the job, or the line on why it cannot be read. -/
def loaded (directory : String) (p : PageJob) : Except JobError Raster → Except LogEntry LoadedPage
  | .ok page => .ok ⟨Path.resolve directory p.input, Path.resolve directory p.output, page⟩
  | .error fault => .error (.unreadable (Path.resolve directory p.input) fault)

/-- Reads a page of the job. -/
def load (store : PageStore m) (directory : String) (p : PageJob) : m (Except LogEntry LoadedPage) := do
  return loaded directory p (← readPage store (Path.resolve directory p.input) p.dots)

/-- Writes images to their paths in order, up to the first that cannot be written. -/
def writeAll (store : PageStore m) : List (String × Raster) → m (Except JobError Unit)
  | [] => return .ok ()
  | (path, image) :: rest => do
    match ← store.writePicture path (.ofRaster image) with
    | .ok () => writeAll store rest
    | .error fault => return .error fault

/-- The images of an output with their paths: the page and then the images between its steps. -/
def images (output : String) (o : PageOutput) : List (String × Raster) :=
  (output, o.image) :: o.snapshots.map fun s => (snapshotPath output s.name, s.image)

/-- Writes the output of a page, and gives its lines of the log. -/
def deliver (store : PageStore m) (p : LoadedPage) (o : PageOutput) : m JobLog := do
  let warnings := o.warnings.map (.warning p.input)
  match ← writeAll store (images p.output o) with
  | .ok () => return ⟨warnings ++ [.done p.input p.output o.despeckle.removed], true⟩
  | .error fault => return ⟨warnings ++ [.unwritable p.output fault], false⟩

/-- The pages that were read, and the lines on the others. -/
def sortLoaded (results : List (Except LogEntry LoadedPage)) : List LogEntry × List LoadedPage :=
  (results.filterMap fun
    | .error entry => some entry
    | .ok _ => none,
   results.filterMap fun
    | .error _ => none
    | .ok page => some page)

/-- The lines on the pages that failed; a place in the report counts the pages that were read. -/
def failureEntries (pages : List LoadedPage) (report : BatchReport) : List LogEntry :=
  report.failures.filterMap fun (place, fault) => pages[place]?.map fun p => .failed p.input p.output fault

/-- The outputs with the pages they belong to. -/
def deliveries (pages : List LoadedPage) (report : BatchReport) : List (LoadedPage × PageOutput) :=
  report.outputs.filterMap fun (place, o) => pages[place]?.map fun p => (p, o)

/-- Runs a job whose paths are taken from a directory, and gives the log. -/
def run (store : PageStore m) (j : Job) (directory : String) (cancelled : Bool) : m JobLog := do
  let (unreadable, pages) := sortLoaded (← j.pages.mapM (load store directory))
  let report := runBatch (pages.map (·.page)) j.settings cancelled
  let delivered ← (deliveries pages report).mapM fun (p, o) => deliver store p o
  return ⟨unreadable ++ failureEntries pages report ++ delivered.flatMap (·.entries),
    unreadable.isEmpty && report.isSuccess && delivered.all (·.succeeds)⟩

/-- Loads and runs the job of a file. -/
def runFile (store : PageStore m) (path : String) (cancelled : Bool) : m JobLog := do
  match (← store.readText path).bind ofYaml with
  | .error fault => return ⟨[.unloadable path fault], false⟩
  | .ok j => j.run store ((Path.parent? path).getD ".") cancelled

end Job

end ScannedPage
