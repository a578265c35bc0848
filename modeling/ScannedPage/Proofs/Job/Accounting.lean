import ScannedPage.Proofs.Job.Answers

/-!
# A job accounts for its pages

A run sorts the pages by the stage they reached, counts those that were read, and looks their paths up by that
count (`Job.run_eq`). So it makes the calls to the store that the pages make one after another, and its log is
theirs (`Job.run_courses`).
-/

namespace ScannedPage

section Monadic

variable {m : Type → Type} [Monad m] [LawfulMonad m] {α β γ δ : Type}

/-- A program over selected entries is the program over all entries that does nothing for the others. -/
theorem mapM_filterMap {f : α → m β} {k : α → Option γ} {g : γ → m δ} {piece : α → β → δ}
    (hskip : ∀ a, k a = none → ∃ b, f a = pure b) (hstep : ∀ a c, k a = some c → g c = piece a <$> f a)
    (l : List α) :
    (l.filterMap k).mapM g =
      (fun bs => (l.zip bs).filterMap fun (a, b) => (k a).map fun _ => piece a b) <$> l.mapM f := by
  induction l with
  | nil => simp
  | cons a l ih =>
    cases hk : k a with
    | none =>
      obtain ⟨b, hb⟩ := hskip a hk
      rw [List.filterMap_cons_none hk, ih, List.mapM_cons, hb]
      simp [hk]
    | some c =>
      rw [List.filterMap_cons_some hk, List.mapM_cons, List.mapM_cons, hstep a c hk, ih]
      simp [hk]

/-- A program that follows another entry by entry follows it over all entries. -/
theorem mapM_eq_map_zip {f : α → m β} {g : α → m δ} {piece : α → β → δ} (hstep : ∀ a, g a = piece a <$> f a)
    (l : List α) : l.mapM g = (fun bs => (l.zip bs).map fun (a, b) => piece a b) <$> l.mapM f := by
  have h : (l.filterMap some).mapM g =
      (fun bs => (l.zip bs).filterMap fun (a, b) => (some a).map fun _ => piece a b) <$> l.mapM f := by
    apply mapM_filterMap
    · simp
    · simpa using hstep
  simpa using h

end Monadic

namespace Job

section Sorting

variable (settings : PageSettings) (directory : String) (cancelled : Bool)

/-- The line on a page that could not be read. -/
def unreadableLine (x : PageJob × Except JobError Raster) : Option LogEntry :=
  (refusal? x.2).map (.unreadable (Path.resolve directory x.1.input))

/-- A page that could be read, with its paths. -/
def readable (x : PageJob × Except JobError Raster) : Option LoadedPage :=
  x.2.toOption.map fun page => ⟨Path.resolve directory x.1.input, Path.resolve directory x.1.output, page⟩

/-- The line on a page that could not be processed. -/
def failedLine (x : PageJob × Except JobError Raster) : Option LogEntry :=
  (readable directory x).bind fun p =>
    (refusal? (settings.process p.page cancelled)).map (.failed p.input p.output)

/-- The output of a page that could be processed, with the page. -/
def delivery (x : PageJob × Except JobError Raster) : Option (LoadedPage × PageOutput) :=
  (readable directory x).bind fun p => (settings.process p.page cancelled).toOption.map fun o => (p, o)

/-- Loaded pages are sorted into lines on those that could not be read, and the others. -/
theorem sortLoaded_eq (l : List (PageJob × Except JobError Raster)) :
    sortLoaded (l.map fun x => loaded directory x.1 x.2) =
      (l.filterMap (unreadableLine directory), l.filterMap (readable directory)) := by
  rw [sortLoaded, List.filterMap_map, List.filterMap_map]
  congr 1
  · congr 1
    funext ⟨p, r⟩
    cases r <;> rfl
  · congr 1
    funext ⟨p, r⟩
    cases r <;> rfl

/-- A batch gives each of its pages the result of that page alone. -/
theorem runBatch_eq (pages : List LoadedPage) : runBatch (pages.map (·.page)) settings cancelled =
    .ofResults (pages.map fun p => settings.process p.page cancelled) := by
  rw [runBatch, List.map_map]
  rfl

/-- A failure is reported under the paths of its page. -/
theorem failureEntries_eq (l : List (PageJob × Except JobError Raster)) :
    failureEntries (l.filterMap (readable directory))
        (runBatch ((l.filterMap (readable directory)).map (·.page)) settings cancelled) =
      l.filterMap (failedLine settings directory cancelled) := by
  rw [failureEntries, runBatch_eq, BatchReport.failures_at, List.filterMap_filterMap]
  rfl

/-- An output goes to the paths of its page. -/
theorem deliveries_eq (l : List (PageJob × Except JobError Raster)) :
    deliveries (l.filterMap (readable directory))
        (runBatch ((l.filterMap (readable directory)).map (·.page)) settings cancelled) =
      l.filterMap (delivery settings directory cancelled) := by
  rw [deliveries, runBatch_eq, BatchReport.outputs_at, List.filterMap_filterMap]
  rfl

/-- A batch succeeds if there is no line on a page that could not be processed. -/
theorem isSuccess_eq (l : List (PageJob × Except JobError Raster)) :
    (runBatch ((l.filterMap (readable directory)).map (·.page)) settings cancelled).isSuccess =
      (l.filterMap (failedLine settings directory cancelled)).isEmpty := by
  rw [← failureEntries_eq, failureEntries, Bool.eq_iff_iff, runBatch_eq, BatchReport.isSuccess_iff,
    BatchReport.failures_at, List.isEmpty_iff, List.filterMap_eq_nil_iff]
  simp

/-- What the log says of a page that was written. -/
def deliveredLog (x : (PageJob × Except JobError Raster) × PageFate) : Option JobLog :=
  (delivery settings directory cancelled x.1).map fun _ =>
    ⟨(PageCourse.mk x.1.1 x.1.2 x.2).lines directory, x.2.succeeds⟩

/-- The log as a run puts it together. -/
def sortedLog (l : List (PageJob × Except JobError Raster)) (fates : List PageFate) : JobLog :=
  let delivered := (l.zip fates).filterMap (deliveredLog settings directory cancelled)
  ⟨l.filterMap (unreadableLine directory) ++ l.filterMap (failedLine settings directory cancelled) ++
      delivered.flatMap (·.entries),
    (l.filterMap (unreadableLine directory)).isEmpty &&
      (l.filterMap (failedLine settings directory cancelled)).isEmpty && delivered.all (·.succeeds)⟩

/-- A page without an output was settled when it was read or processed. -/
theorem attempt_of_delivery_none {x : PageJob × Except JobError Raster}
    (h : delivery settings directory cancelled x = none) :
    ∃ fate, attempt settings cancelled x.2 = .error fate := by
  obtain ⟨p, r⟩ := x
  cases r with
  | error fault => exact ⟨.unreadable fault, rfl⟩
  | ok page =>
    cases hprocess : settings.process page cancelled with
    | error fault => exact ⟨.failed fault, by rw [attempt, hprocess, Except.mapError]⟩
    | ok o => simp [delivery, readable, hprocess, Except.toOption] at h

/-- An output is what processing made of the page, and goes with the paths of the page. -/
theorem attempt_of_delivery {x : PageJob × Except JobError Raster} {p : LoadedPage} {o : PageOutput}
    (h : delivery settings directory cancelled x = some (p, o)) : attempt settings cancelled x.2 = .ok o ∧
      p.input = Path.resolve directory x.1.input ∧ p.output = Path.resolve directory x.1.output := by
  obtain ⟨job, r⟩ := x
  cases r with
  | error fault => simp [delivery, readable, Except.toOption] at h
  | ok page =>
    cases hprocess : settings.process page cancelled with
    | error fault => simp [delivery, readable, hprocess, Except.toOption] at h
    | ok output =>
      simp only [delivery, readable, Except.toOption, Option.map_some, Option.bind_some, hprocess,
        Option.some.injEq, Prod.mk.injEq] at h
      obtain ⟨rfl, rfl⟩ := h
      simp [attempt, hprocess, Except.mapError]

/-- A run says of a page what the page says of itself, at the stage that the page reached. -/
theorem parts_of_follows {c : PageCourse} (h : c.fate.Follows (attempt settings cancelled c.read)) :
    let unreadable := unreadableLine directory (c.page, c.read)
    let failed := failedLine settings directory cancelled (c.page, c.read)
    let delivered := deliveredLog settings directory cancelled ((c.page, c.read), c.fate)
    (∃ fault, c.fate = .unreadable fault ∧ unreadable = some (c.verdict directory) ∧ failed = none ∧
        delivered = none) ∨
      (∃ fault, c.fate = .failed fault ∧ unreadable = none ∧ failed = some (c.verdict directory) ∧
        delivered = none) ∨
      (c.fate.stage = .writing ∧ unreadable = none ∧ failed = none ∧
        delivered = some ⟨c.lines directory, c.fate.succeeds⟩) := by
  obtain ⟨p, r, fate⟩ := c
  cases r with
  | error fault =>
    obtain rfl : fate = .unreadable fault := h
    exact .inl ⟨fault, rfl, rfl, rfl, rfl⟩
  | ok page =>
    cases hprocess : settings.process page cancelled with
    | error fault =>
      simp only [attempt, hprocess, Except.mapError, PageFate.Follows] at h
      subst h
      refine .inr (.inl ⟨fault, rfl, ?_⟩)
      simp [unreadableLine, failedLine, deliveredLog, delivery, readable, refusal?, hprocess, Except.toOption,
        PageCourse.verdict, PageFate.verdict]
    | ok o =>
      have hstage : fate.stage = .writing := by
        simp only [attempt, hprocess, Except.mapError, PageFate.Follows] at h
        obtain rfl | ⟨fault, rfl⟩ := h <;> rfl
      refine .inr (.inr ⟨hstage, ?_⟩)
      simp [unreadableLine, failedLine, deliveredLog, delivery, readable, refusal?, hprocess, Except.toOption]

/-- The lines of each stage are those on the pages that reached it. -/
theorem linesAt_of_follows {c : PageCourse} (h : c.fate.Follows (attempt settings cancelled c.read)) :
    (unreadableLine directory (c.page, c.read)).toList = c.linesAt directory .reading ∧
      (failedLine settings directory cancelled (c.page, c.read)).toList = c.linesAt directory .processing ∧
      (deliveredLog settings directory cancelled ((c.page, c.read), c.fate)).toList.flatMap (·.entries) =
        c.linesAt directory .writing := by
  obtain ⟨fault, hfate, hu, hf, hd⟩ | ⟨fault, hfate, hu, hf, hd⟩ | ⟨hstage, hu, hf, hd⟩ :=
    parts_of_follows settings directory cancelled h
  · rw [hu, hf, hd]
    simp [PageCourse.linesAt, PageCourse.lines, hfate, PageFate.stage, PageFate.warnings]
  · rw [hu, hf, hd]
    simp [PageCourse.linesAt, PageCourse.lines, hfate, PageFate.stage, PageFate.warnings]
  · rw [hu, hf, hd]
    simp [PageCourse.linesAt, hstage]

/-- The run finds fault with a page exactly if that did not come to its output. -/
theorem succeeds_iff_of_follows {c : PageCourse} (h : c.fate.Follows (attempt settings cancelled c.read)) :
    c.fate.succeeds = true ↔ unreadableLine directory (c.page, c.read) = none ∧
      failedLine settings directory cancelled (c.page, c.read) = none ∧
      ∀ log, deliveredLog settings directory cancelled ((c.page, c.read), c.fate) = some log →
        log.succeeds = true := by
  obtain ⟨fault, hfate, hu, hf, hd⟩ | ⟨fault, hfate, hu, hf, hd⟩ | ⟨_, hu, hf, hd⟩ :=
    parts_of_follows settings directory cancelled h
  · simp [hu, hfate, PageFate.succeeds]
  · simp [hf, hfate, PageFate.succeeds]
  · simp [hu, hf, hd]

section Followed

variable {courses : List PageCourse} (h : ∀ c ∈ courses, c.fate.Follows (attempt settings cancelled c.read))
include h

/-- The log that a run puts together has the lines of the pages taken one by one. -/
theorem entries_sortedLog :
    (sortedLog settings directory cancelled (courses.map fun c => (c.page, c.read))
      (courses.map (·.fate))).entries =
      (logOf directory courses).entries := by
  have hlines := fun c hc => linesAt_of_follows settings directory cancelled (h c hc)
  simp only [sortedLog, logOf, List.zip_map', List.filterMap_eq_flatMap_toList, List.flatMap_map,
    List.flatMap_assoc, List.flatMap_cons, List.flatMap_nil, List.append_nil, List.append_assoc]
  rw [List.flatMap_congr fun c hc => (hlines c hc).1, List.flatMap_congr fun c hc => (hlines c hc).2.1,
    List.flatMap_congr fun c hc => (hlines c hc).2.2]

/-- The log that a run puts together says that everything came to its output if every page did. -/
theorem succeeds_sortedLog :
    (sortedLog settings directory cancelled (courses.map fun c => (c.page, c.read))
      (courses.map (·.fate))).succeeds =
      (logOf directory courses).succeeds := by
  have hsucceeds := fun c hc => succeeds_iff_of_follows settings directory cancelled (h c hc)
  rw [Bool.eq_iff_iff]
  simp only [sortedLog, logOf, List.zip_map', Bool.and_eq_true, List.isEmpty_iff, List.filterMap_eq_nil_iff,
    List.forall_mem_map, List.all_eq_true, List.mem_filterMap]
  constructor
  · rintro ⟨⟨hread, hprocessed⟩, hdelivered⟩ c hc
    apply (hsucceeds c hc).mpr
    exact ⟨hread c hc, hprocessed c hc, fun log hlog => hdelivered log ⟨_, List.mem_map_of_mem hc, hlog⟩⟩
  · intro hall
    have hparts := fun c hc => (hsucceeds c hc).mp (hall c hc)
    refine ⟨⟨fun c hc => (hparts c hc).1, fun c hc => (hparts c hc).2.1⟩, ?_⟩
    rintro log ⟨x, hx, hlog⟩
    obtain ⟨c, hc, rfl⟩ := List.mem_map.mp hx
    exact (hparts c hc).2.2 log hlog

/-- The log that a run puts together is the log of the pages taken one by one. -/
theorem sortedLog_eq :
    sortedLog settings directory cancelled (courses.map fun c => (c.page, c.read)) (courses.map (·.fate)) =
      logOf directory courses :=
  congrArg₂ JobLog.mk (entries_sortedLog settings directory cancelled h)
    (succeeds_sortedLog settings directory cancelled h)

end Followed

end Sorting

section Run

variable {m : Type → Type} [Monad m] (store : PageStore m) (j : Job) (directory : String) (cancelled : Bool)

/-- Nothing is written for a page without an output. -/
theorem settle_of_delivery_none (x : PageJob × Except JobError Raster)
    (h : delivery j.settings directory cancelled x = none) :
    ∃ fate, j.settle store directory cancelled x.1 x.2 = pure fate := by
  obtain ⟨fate, hfate⟩ := attempt_of_delivery_none _ _ _ h
  exact ⟨fate, by rw [settle, hfate]⟩

variable [LawfulMonad m]

/-- The output of a page is written alone, and the log on it says what became of it. -/
theorem deliver_eq (x : PageJob × Except JobError Raster) (y : LoadedPage × PageOutput)
    (h : delivery j.settings directory cancelled x = some y) : deliver store y.1 y.2 =
      (fun fate => ⟨(PageCourse.mk x.1 x.2 fate).lines directory, fate.succeeds⟩) <$>
        j.settle store directory cancelled x.1 x.2 := by
  obtain ⟨hattempt, hinput, houtput⟩ := attempt_of_delivery _ _ _ h
  simp only [deliver, settle, hattempt, hinput, houtput, map_bind]
  congr 1
  funext written
  cases written <;> simp [PageCourse.lines, PageCourse.verdict, PageFate.verdict, PageFate.warnings,
    PageFate.succeeds]

/-- Reading the pages of a job. -/
theorem mapM_load : j.pages.mapM (load store directory) =
    (fun read => (j.pages.zip read).map fun x => loaded directory x.1 x.2) <$>
      j.pages.mapM fun p => readPage store (Path.resolve directory p.input) p.dots := by
  apply mapM_eq_map_zip
  intro p
  simp [load]

/-- A run reads the pages, takes each of them on by itself, and puts the log together. -/
theorem run_eq : j.run store directory cancelled = do
    let read ← j.pages.mapM fun p => readPage store (Path.resolve directory p.input) p.dots
    let fates ← (j.pages.zip read).mapM fun x => j.settle store directory cancelled x.1 x.2
    return sortedLog j.settings directory cancelled (j.pages.zip read) fates := by
  simp only [run, mapM_load, bind_map_left, sortLoaded_eq, deliveries_eq, failureEntries_eq, isSuccess_eq]
  congr 1
  funext read
  rw [mapM_filterMap (settle_of_delivery_none store j directory cancelled)
    (deliver_eq store j directory cancelled)]
  simp only [bind_map_left]
  rfl

end Run

section State

variable {σ : Type} (store : PageStore (StateM σ)) (j : Job) (directory : String) (cancelled : Bool)

/-- A run reads all pages and settles one after another, and its log is that of these pages. -/
theorem run_courses (files : σ) : ∃ courses between after,
    (j.run store directory cancelled).run files = (logOf directory courses, after) ∧
      courses.map (·.page) = j.pages ∧ store.Reads directory j.pages files (courses.map (·.read)) between ∧
      store.SettlesAll j.settings directory cancelled courses between after := by
  let read := (j.pages.mapM fun p => readPage store (Path.resolve directory p.input) p.dots).run files
  let l := j.pages.zip read.1
  let fates := (l.mapM fun x => j.settle store directory cancelled x.1 x.2).run read.2
  have hreads : store.Reads directory j.pages files read.1 read.2 := reads_readPage store directory j.pages files
  obtain ⟨hlength, hsettles⟩ : l.length = fates.1.length ∧
      store.SettlesAll j.settings directory cancelled (coursesOf l fates.1) read.2 fates.2 :=
    settlesAll_settle store j directory cancelled l read.2
  have hfollows : ∀ c ∈ coursesOf l fates.1, c.fate.Follows (attempt j.settings cancelled c.read) := fun c hc => by
    obtain ⟨_, _, hpage⟩ := hsettles.exists_settles hc
    exact hpage.follows
  have hlog : sortedLog j.settings directory cancelled l fates.1 = logOf directory (coursesOf l fates.1) := by
    rw [← sortedLog_eq _ _ _ hfollows, coursesOf_read hlength, coursesOf_fate hlength]
  have hrun : (j.run store directory cancelled).run files =
      (sortedLog j.settings directory cancelled l fates.1, fates.2) := by
    rw [run_eq]
    rfl
  refine ⟨coursesOf l fates.1, read.2, fates.2, hlog ▸ hrun, ?_, ?_, hsettles⟩
  · rw [coursesOf_page hlength]
    exact List.map_fst_zip (Nat.le_of_eq hreads.length_eq.symm)
  · rw [coursesOf_result hlength, List.map_snd_zip (Nat.le_of_eq hreads.length_eq)]
    exact hreads

/-- A run accounts for each page of a job. All pages are read in order. Each page that was read and processed has
its images given to the store in order, whatever became of the others, and is done exactly if the store takes all
of them. The log has one line on each page, warnings apart, and tells of an error exactly if a page did not come to
its output. -/
theorem run_accounts (files : σ) : ∃ courses log between after,
    (j.run store directory cancelled).run files = (log, after) ∧
      courses.map (·.page) = j.pages ∧ store.Reads directory j.pages files (courses.map (·.read)) between ∧
      store.SettlesAll j.settings directory cancelled courses between after ∧
      log = logOf directory courses ∧
      (log.entries.filter (·.level ≠ .warning)).Perm (courses.map (·.verdict directory)) ∧
      (log.succeeds = true ↔ ∀ e ∈ log.entries, ¬ "ERROR: ".toList <+: e.text.toList) := by
  obtain ⟨courses, between, after, hrun, hpages, hreads, hsettles⟩ := j.run_courses store directory cancelled files
  refine ⟨courses, logOf directory courses, between, after, hrun, hpages, hreads, hsettles, rfl, ?_, ?_⟩
  · exact verdicts_logOf directory courses
  · simp only [LogEntry.error_text_iff]
    exact succeeds_logOf directory courses

/-- Of four pages one cannot be read, one cannot be brought to the resolution asked for, one is refused by the
store, and the last is done. -/
theorem run_accounts_with_faults :
    let store : PageStore (StateM (List String)) := {
      readText := fun _ => return .error (.file "no text")
      readPicture := fun path =>
        return if path = "/lost" then .error (.file "lost") else .ok ⟨.gray, false, 1, 1, #[7]⟩
      writePicture := fun path _ => do
        if path = "/locked" then return .error (.file "locked")
        modify (· ++ [path])
        return .ok () }
    let j : Job := {
      settings := { outputMode := .colorOrGrayscale, targetResolution := some (.uniform 300) }
      pages := [⟨"/lost", "/a", 300⟩, ⟨"/scan", "/locked", 300⟩, ⟨"/flat", "/b", 0⟩, ⟨"/scan", "/c", 300⟩] }
    ∃ courses log between, (j.run store "/" false).run [] = (log, ["/c"]) ∧ courses.map (·.page) = j.pages ∧
      store.Reads "/" j.pages [] (courses.map (·.read)) between ∧
      store.SettlesAll j.settings "/" false courses between ["/c"] ∧
      log.entries.map (·.text) = ["ERROR: Failed to read /lost: IO error: lost",
        "ERROR: /flat -> /b: core error: invalid parameter: resolution must be non-zero: source " ++
          "Dpi \x7b horizontal: 0, vertical: 0 \x7d, target Dpi \x7b horizontal: 300, vertical: 300 \x7d",
        "ERROR: Failed to write /locked: IO error: locked", "OK: /scan -> /c (0 specks removed)"] ∧
      (log.entries.filter (·.level ≠ .warning)).Perm (courses.map (·.verdict "/")) ∧ log.succeeds = false := by
  intro store j
  obtain ⟨courses, log, between, after, hrun, hpages, hreads, hsettles, _, hlines, _⟩ :=
    run_accounts store j "/" false []
  have hlog : ((j.run store "/" false).run []).1 = log := congrArg Prod.fst hrun
  have hafter : ((j.run store "/" false).run []).2 = after := congrArg Prod.snd hrun
  obtain rfl : ["/c"] = after := hafter ▸ by decide +kernel
  refine ⟨courses, log, between, hrun, hpages, hreads, hsettles, ?_, hlines, ?_⟩
  · rw [← hlog]
    decide +kernel
  · rw [← hlog]
    decide +kernel

end State

end Job

end ScannedPage
