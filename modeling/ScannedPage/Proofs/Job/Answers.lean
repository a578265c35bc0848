import ScannedPage.Proofs.Job.Course

/-!
# What a store answers

Between a job and its files there are calls and answers. All pages are read first, one after another
(`PageStore.Reads`). Then the images of every page that could be read and processed are given to the store: each
with its path, to the files as the image before left them, up to the first that the store refuses
(`PageStore.Writes`). The page is done if the store takes all of them, and else the first refusal is its fault
(`PageStore.Settles`). The answers to a job leave no choice in what becomes of its pages
(`PageStore.Writes.unique`), and the programs of a job make exactly these calls (`Job.writes_writeAll`,
`Job.settles_settle`).
-/

namespace ScannedPage

/-- The page that a picture shows at a resolution, or the reason why there is none. -/
def Job.pageOf (picture : Except JobError Bitmap) (dots : Nat) : Except JobError Raster :=
  (picture.bind fun b => b.toRaster.mapError .raster).map fun r => r.withResolution (.uniform dots)

namespace PageStore

variable {σ : Type} (store : PageStore (StateM σ))

/-- A store reads the pictures of pages one after another. -/
inductive Reads (directory : String) : List PageJob → σ → List (Except JobError Raster) → σ → Prop
  | nil (files : σ) : Reads directory [] files [] files
  | cons {p : PageJob} {rest : List PageJob} {files between after : σ} {picture : Except JobError Bitmap}
      {read : List (Except JobError Raster)}
      (hpicture : (store.readPicture (Path.resolve directory p.input)).run files = (picture, between))
      (hrest : Reads directory rest between read after) :
      Reads directory (p :: rest) files (Job.pageOf picture p.dots :: read) after

/-- A store is given images in order, each with its path, up to the first that it refuses. -/
inductive Writes : List (String × Raster) → σ → Except JobError Unit → σ → Prop
  | nil (files : σ) : Writes [] files (.ok ()) files
  | taken {path : String} {image : Raster} {rest : List (String × Raster)} {files between after : σ}
      {result : Except JobError Unit}
      (htaken : (store.writePicture path (.ofRaster image)).run files = (.ok (), between))
      (hrest : Writes rest between result after) : Writes ((path, image) :: rest) files result after
  | refused {path : String} {image : Raster} {rest : List (String × Raster)} {files after : σ} {fault : JobError}
      (hrefused : (store.writePicture path (.ofRaster image)).run files = (.error fault, after)) :
      Writes ((path, image) :: rest) files (.error fault) after

/-- What becomes of a page after what was read of it, and of the files. The images of a page that was read and
processed are given to the store: it is done if all are taken, and cannot be written if one is refused. -/
inductive Settles (settings : PageSettings) (cancelled : Bool) (output : String) (read : Except JobError Raster)
    (files : σ) : PageFate → σ → Prop
  | unreadable {fault : JobError} (hread : read = .error fault) :
      Settles settings cancelled output read files (.unreadable fault) files
  | failed {page : Raster} {fault : PageError} (hread : read = .ok page)
      (hprocess : settings.process page cancelled = .error fault) :
      Settles settings cancelled output read files (.failed fault) files
  | done {page : Raster} {o : PageOutput} {after : σ} (hread : read = .ok page)
      (hprocess : settings.process page cancelled = .ok o)
      (hwrites : store.Writes (Job.images output o) files (.ok ()) after) :
      Settles settings cancelled output read files (.done o) after
  | unwritable {page : Raster} {o : PageOutput} {fault : JobError} {after : σ} (hread : read = .ok page)
      (hprocess : settings.process page cancelled = .ok o)
      (hwrites : store.Writes (Job.images output o) files (.error fault) after) :
      Settles settings cancelled output read files (.unwritable o fault) after

/-- Pages are settled one after another, whatever became of those before. -/
inductive SettlesAll (settings : PageSettings) (directory : String) (cancelled : Bool) :
    List PageCourse → σ → σ → Prop
  | nil (files : σ) : SettlesAll settings directory cancelled [] files files
  | cons {c : PageCourse} {rest : List PageCourse} {files between after : σ}
      (hpage : store.Settles settings cancelled (Path.resolve directory c.page.output) c.read files c.fate between)
      (hrest : SettlesAll settings directory cancelled rest between after) :
      SettlesAll settings directory cancelled (c :: rest) files after

variable {store} {settings : PageSettings} {directory output : String} {cancelled : Bool}

/-- A store gives one answer on every page that is read. -/
theorem Reads.length_eq {pages : List PageJob} {files after : σ} {read : List (Except JobError Raster)}
    (h : store.Reads directory pages files read after) : read.length = pages.length := by
  induction h with
  | nil => rfl
  | cons _ _ ih => exact congrArg (· + 1) ih

/-- The result of writing images is determined by the store. -/
theorem Writes.unique {images : List (String × Raster)} {files after after' : σ}
    {result result' : Except JobError Unit}
    (h : store.Writes images files result after) (h' : store.Writes images files result' after') :
    result = result' ∧ after = after' := by
  induction h with
  | nil => cases h'; exact ⟨rfl, rfl⟩
  | taken htaken _ ih =>
    cases h' with
    | taken htaken' hrest' =>
      obtain ⟨-, rfl⟩ := Prod.mk.inj (htaken.symm.trans htaken')
      exact ih hrest'
    | refused hrefused' => exact absurd (congrArg Prod.fst (htaken.symm.trans hrefused')) nofun
  | refused hrefused =>
    cases h' with
    | taken htaken' _ => exact absurd (congrArg Prod.fst (hrefused.symm.trans htaken')) nofun
    | refused hrefused' =>
      obtain ⟨hfault, rfl⟩ := Prod.mk.inj (hrefused.symm.trans hrefused')
      exact ⟨hfault, rfl⟩

/-- What becomes of a page is what comes of the attempt to make an output. -/
theorem Settles.follows {read : Except JobError Raster} {files after : σ} {fate : PageFate}
    (h : store.Settles settings cancelled output read files fate after) :
    fate.Follows (Job.attempt settings cancelled read) := by
  cases h with
  | unreadable hread =>
    rw [hread]
    rfl
  | failed hread hprocess =>
    rw [hread, Job.attempt, hprocess]
    rfl
  | done hread hprocess _ =>
    rw [hread, Job.attempt, hprocess]
    exact .inl rfl
  | unwritable hread hprocess _ =>
    rw [hread, Job.attempt, hprocess]
    exact .inr ⟨_, rfl⟩

/-- Every page of those settled is settled by itself. -/
theorem SettlesAll.exists_settles {courses : List PageCourse} {files after : σ}
    (h : store.SettlesAll settings directory cancelled courses files after) {c : PageCourse} (hc : c ∈ courses) :
    ∃ before between, store.Settles settings cancelled (Path.resolve directory c.page.output) c.read before c.fate
      between := by
  induction h with
  | nil => exact absurd hc List.not_mem_nil
  | cons hpage _ ih =>
    rcases List.mem_cons.mp hc with rfl | hmem
    · exact ⟨_, _, hpage⟩
    · exact ih hmem

end PageStore

namespace Job

variable {σ : Type} (store : PageStore (StateM σ)) (j : Job) (directory : String) (cancelled : Bool)

/-- Images are written by giving them to the store in order, up to the first that it refuses. -/
theorem writes_writeAll (images : List (String × Raster)) (files : σ) :
    store.Writes images files ((writeAll store images).run files).1 ((writeAll store images).run files).2 := by
  induction images generalizing files with
  | nil => exact .nil files
  | cons entry rest ih =>
    obtain ⟨path, image⟩ := entry
    rw [writeAll, StateT.run_bind]
    cases hanswer : (store.writePicture path (.ofRaster image)).run files with
    | mk answer between =>
      cases answer with
      | ok _ => exact .taken hanswer (ih between)
      | error fault => exact .refused hanswer

/-- A page is settled by itself. -/
theorem settles_settle (x : PageJob × Except JobError Raster) (files : σ) :
    store.Settles j.settings cancelled (Path.resolve directory x.1.output) x.2 files
      ((j.settle store directory cancelled x.1 x.2).run files).1
      ((j.settle store directory cancelled x.1 x.2).run files).2 := by
  obtain ⟨p, read⟩ := x
  cases read with
  | error fault => exact .unreadable rfl
  | ok page =>
    cases hprocess : j.settings.process page cancelled with
    | error fault =>
      simp only [settle, attempt, hprocess, Except.mapError]
      exact .failed rfl hprocess
    | ok o =>
      have hwrites := writes_writeAll store (images (Path.resolve directory p.output) o) files
      simp only [settle, attempt, hprocess, Except.mapError, StateT.run_bind]
      generalize (writeAll store (images (Path.resolve directory p.output) o)).run files = written at hwrites
      obtain ⟨result, after⟩ := written
      cases result with
      | ok _ => exact .done rfl hprocess hwrites
      | error fault => exact .unwritable rfl hprocess hwrites

/-- The pages of a job are read one after another. -/
theorem reads_readPage (pages : List PageJob) (files : σ) :
    let read := (pages.mapM fun p => readPage store (Path.resolve directory p.input) p.dots).run files
    store.Reads directory pages files read.1 read.2 := by
  induction pages generalizing files with
  | nil => exact .nil files
  | cons p rest ih =>
    simp only [List.mapM_cons]
    exact .cons rfl (ih _)

/-- Pages are settled one after another. -/
theorem settlesAll_settle (l : List (PageJob × Except JobError Raster)) (files : σ) :
    let fates := (l.mapM fun x => j.settle store directory cancelled x.1 x.2).run files
    l.length = fates.1.length ∧
      store.SettlesAll j.settings directory cancelled (coursesOf l fates.1) files fates.2 := by
  induction l generalizing files with
  | nil => exact ⟨rfl, .nil files⟩
  | cons x rest ih =>
    have hpage := settles_settle store j directory cancelled x files
    obtain ⟨hlength, hrest⟩ := ih ((j.settle store directory cancelled x.1 x.2).run files).2
    simp only [List.mapM_cons]
    exact ⟨congrArg (· + 1) hlength, .cons hpage hrest⟩

end Job

end ScannedPage
