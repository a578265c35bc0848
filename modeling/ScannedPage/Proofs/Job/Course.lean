import Mathlib.Data.List.Perm.Basic
import ScannedPage.Job.Run
import ScannedPage.Proofs.Batch

/-!
# Pages of a job, one by one

What becomes of a page: it is read, and what could be read is processed and written by itself, whatever became of
the other pages (`Job.settle`). The log of pages taken one by one (`Job.logOf`) has one line on every page,
warnings apart, and tells of an error exactly if a page did not come to its output.
-/

namespace ScannedPage

/-- The text of a line begins as an error does exactly if the line tells of one. -/
theorem LogEntry.error_text_iff (e : LogEntry) : "ERROR: ".toList <+: e.text.toList ↔ e.level = .error := by
  rw [text, String.toList_append]
  cases e.level with
  | error => exact iff_of_true (List.prefix_append _ _) rfl
  | warning => simp [LogLevel.label]
  | success => simp [LogLevel.label]

/-- The stages of a page. -/
inductive PageStage
  | reading | processing | writing
deriving DecidableEq

/-- What became of a page. -/
inductive PageFate
  | unreadable (fault : JobError)
  | failed (fault : PageError)
  | unwritable (o : PageOutput) (fault : JobError)
  | done (o : PageOutput)

namespace PageFate

/-- The stage that the page reached. -/
def stage : PageFate → PageStage
  | unreadable _ => .reading
  | failed _ => .processing
  | unwritable .. | done _ => .writing

/-- The page came to its output. -/
def succeeds : PageFate → Bool
  | done _ => true
  | _ => false

/-- The warnings about the page. -/
def warnings : PageFate → List PageWarning
  | unwritable o _ | done o => o.warnings
  | unreadable _ | failed _ => []

/-- The line of the log that tells what became of the page. -/
def verdict (input output : String) : PageFate → LogEntry
  | unreadable fault => .unreadable input fault
  | failed fault => .failed input output fault
  | unwritable _ fault => .unwritable output fault
  | done o => .done input output o.despeckle.removed

/-- The fate is what comes of the attempt to make an output. -/
def Follows (fate : PageFate) : Except PageFate PageOutput → Prop
  | .error e => fate = e
  | .ok o => fate = .done o ∨ ∃ fault, fate = .unwritable o fault

end PageFate

/-- A page of a job, what was read of it, and what became of it. -/
structure PageCourse where
  page : PageJob
  read : Except JobError Raster
  fate : PageFate

namespace PageCourse

variable (directory : String) (c : PageCourse)

/-- The line that tells what became of the page. -/
def verdict : LogEntry :=
  c.fate.verdict (Path.resolve directory c.page.input) (Path.resolve directory c.page.output)

/-- The lines on the page: its warnings and then what became of it. -/
def lines : List LogEntry :=
  c.fate.warnings.map (.warning (Path.resolve directory c.page.input)) ++ [c.verdict directory]

/-- The lines on the page if it reached the stage. -/
def linesAt (stage : PageStage) : List LogEntry := if c.fate.stage = stage then c.lines directory else []

/-- A page that came to its output gets a line that says so, and every other page gets a line with an error. -/
theorem level_verdict : (c.verdict directory).level = if c.fate.succeeds then .success else .error := by
  rw [verdict]
  cases c.fate <;> rfl

/-- Apart from warnings there is one line on a page. -/
theorem filter_lines : (c.lines directory).filter (·.level ≠ .warning) = [c.verdict directory] := by
  have hverdict : (c.verdict directory).level ≠ .warning := by
    rw [level_verdict]
    split <;> simp
  have hwarnings : (c.fate.warnings.map (LogEntry.warning (Path.resolve directory c.page.input))).filter
      (·.level ≠ .warning) = [] := by
    simp [List.filter_map, LogEntry.level]
  rw [lines, List.filter_append, hwarnings, List.nil_append, List.filter_singleton, decide_eq_true hverdict]
  rfl

/-- No line on a page tells of an error exactly if the page came to its output. -/
theorem lines_level : (∀ e ∈ c.lines directory, e.level ≠ .error) ↔ c.fate.succeeds = true := by
  have hwarning : ∀ w, (LogEntry.warning (Path.resolve directory c.page.input) w).level ≠ .error := by
    intro w
    simp [LogEntry.level]
  simp only [lines, List.forall_mem_append, List.forall_mem_map, List.forall_mem_singleton, level_verdict]
  cases c.fate.succeeds <;> simp [hwarning]

end PageCourse

namespace Job

/-- The lines on pages, sorted by the stages they reached, and whether all came to their outputs. -/
def logOf (directory : String) (courses : List PageCourse) : JobLog where
  entries := [PageStage.reading, .processing, .writing].flatMap fun stage =>
    courses.flatMap (·.linesAt directory stage)
  succeeds := courses.all (·.fate.succeeds)

section Log

variable (directory : String) (courses : List PageCourse)

/-- The lines of the log are those on the pages. -/
theorem mem_logOf (e : LogEntry) :
    e ∈ (logOf directory courses).entries ↔ ∃ c ∈ courses, e ∈ c.lines directory := by
  have hstage : ∀ c : PageCourse, (∃ stage ∈ [PageStage.reading, .processing, .writing],
      e ∈ c.linesAt directory stage) ↔ e ∈ c.lines directory := by
    intro c
    simp only [PageCourse.linesAt, List.mem_cons, List.not_mem_nil, or_false, exists_eq_or_imp, exists_eq_left]
    cases c.fate.stage <;> simp
  simp only [logOf, List.mem_flatMap, ← hstage]
  tauto

/-- The log has one line on every page, warnings apart. -/
theorem verdicts_logOf : ((logOf directory courses).entries.filter (·.level ≠ .warning)).Perm
    (courses.map (·.verdict directory)) := by
  have hat : ∀ stage (c : PageCourse), (c.linesAt directory stage).filter (·.level ≠ .warning) =
      if c.fate.stage = stage then [c.verdict directory] else [] := by
    intro stage c
    rw [PageCourse.linesAt]
    split
    · exact c.filter_lines directory
    · rfl
  simp only [logOf, List.flatMap_cons, List.flatMap_nil, List.append_nil, List.filter_append, List.filter_flatMap,
    hat]
  apply ((List.flatMap_append_perm courses _ _).append_left _).trans
  apply (List.flatMap_append_perm courses _ _).trans
  rw [List.map_eq_flatMap]
  apply List.Perm.of_eq
  apply List.flatMap_congr
  intro c _
  cases c.fate.stage <;> rfl

/-- All pages came to their outputs exactly if no line tells of an error. -/
theorem succeeds_logOf : (logOf directory courses).succeeds = true ↔
    ∀ e ∈ (logOf directory courses).entries, e.level ≠ .error := by
  simp only [mem_logOf, forall_exists_index, and_imp]
  rw [logOf, List.all_eq_true]
  constructor
  · intro h e c hc he
    exact (c.lines_level directory).mpr (h c hc) e he
  · intro h c hc
    exact (c.lines_level directory).mp fun e he => h e c hc he

end Log

/-- Pages with what was read of them and what became of them. -/
def coursesOf (l : List (PageJob × Except JobError Raster)) (fates : List PageFate) : List PageCourse :=
  (l.zip fates).map fun x => ⟨x.1.1, x.1.2, x.2⟩

section Courses

variable {l : List (PageJob × Except JobError Raster)} {fates : List PageFate} (h : l.length = fates.length)
include h

/-- The pages and what was read of them. -/
theorem coursesOf_read : (coursesOf l fates).map (fun c => (c.page, c.read)) = l := by
  rw [coursesOf, List.map_map]
  exact List.map_fst_zip (Nat.le_of_eq h)

/-- What became of the pages. -/
theorem coursesOf_fate : (coursesOf l fates).map (·.fate) = fates := by
  rw [coursesOf, List.map_map]
  exact List.map_snd_zip (Nat.le_of_eq h.symm)

/-- The pages alone. -/
theorem coursesOf_page : (coursesOf l fates).map (·.page) = l.map Prod.fst := by
  rw [← coursesOf_read h, List.map_map, coursesOf_read h]
  rfl

/-- What was read of the pages. -/
theorem coursesOf_result : (coursesOf l fates).map (·.read) = l.map Prod.snd := by
  rw [← coursesOf_read h, List.map_map, coursesOf_read h]
  rfl

end Courses

/-- What is made of a page alone. -/
def attempt (settings : PageSettings) (cancelled : Bool) : Except JobError Raster → Except PageFate PageOutput
  | .error fault => .error (.unreadable fault)
  | .ok page => (settings.process page cancelled).mapError .failed

section Programs

variable {m : Type → Type} [Monad m] (store : PageStore m) (j : Job) (directory : String) (cancelled : Bool)

/-- Writes what was made of a page to the places of that page, if there is anything. -/
def settle (p : PageJob) (read : Except JobError Raster) : m PageFate :=
  match attempt j.settings cancelled read with
  | .error fate => return fate
  | .ok o => do
    match ← writeAll store (images (Path.resolve directory p.output) o) with
    | .ok () => return .done o
    | .error fault => return .unwritable o fault

end Programs

end Job

end ScannedPage
