import ScannedPage.Page.Storage

/-!
# Jobs

A job applies one settings record to a list of pages. It is kept as YAML: the settings may be missing, and
so may the resolution of a page, since picture files rarely carry a reliable one. A job without any page,
or with a page of no resolution, is refused.
-/

namespace ScannedPage

/-- Why a command could not do what a job asks for. -/
inductive JobError
  /-- A fault of the job itself. -/
  | job (reason : String)
  /-- A file that is no picture, or no picture of a known format. -/
  | picture (reason : String)
  /-- A picture that is no page. -/
  | raster (cause : ImageError)
  /-- A file that cannot be read or written. -/
  | file (reason : String)
deriving DecidableEq, Repr

/-- The line that reports the fault. -/
def JobError.message : JobError → String
  | job reason => "Job file error: " ++ reason
  | picture reason => "Image error: " ++ reason
  | raster cause => "Raster error: " ++ cause.message
  | file reason => "IO error: " ++ reason

/-- A page of a job: where it is read and written, and its dots per inch. -/
structure PageJob where
  input : String
  output : String
  dots : Nat
deriving DecidableEq, Repr

/-- Settings and the pages they apply to. -/
structure Job where
  settings : PageSettings
  pages : List PageJob

namespace PageJob

open Value

/-- The page of a record. -/
def ofValue? (v : Value) : Option PageJob := do
  match ← v.slots? Yaml.rules.positional ["input", "output", "dpi"] with
  | [input, output, dots] =>
    return ⟨← required? asText? input, ← required? asText? output,
      ← orDefault? asNat32? Resolution.standard.horizontal dots⟩
  | _ => none

end PageJob

namespace Job

open Value

/-- The pages of a list. -/
def pages? (v : Value) : Option (List PageJob) := do (← v.asList?).mapM PageJob.ofValue?

/-- The job of a record. -/
def ofValue? (v : Value) : Option Job := do
  match ← v.slots? Yaml.rules.positional ["settings", "pages"] with
  | [settings, pages] =>
    return ⟨← orDefault? (PageSettings.ofValue? Yaml.rules 1) {} settings, ← required? pages? pages⟩
  | _ => none

/-- Accepts jobs with pages that all have a resolution. -/
def check (j : Job) : Except JobError Job :=
  if j.pages.isEmpty then .error (.job "Job lists no pages")
  else
    match j.pages.find? (·.dots == 0) with
    | some page => .error (.job ("Page " ++ page.input ++ " has a zero resolution"))
    | none => .ok j

/-- The job of a YAML text. -/
def ofYaml (text : String) : Except JobError Job :=
  match (Yaml.read? text).bind ofValue? with
  | some j => j.check
  | none => .error (.job "Failed to parse job YAML")

end Job

end ScannedPage
