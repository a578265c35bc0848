import ScannedPage.Bitmap.File
import ScannedPage.Job.Run

/-!
# Files in memory

A store of pages without any outside: files are byte arrays under the names of their paths. Directories
are the beginnings of names, so that a file cannot lie below another file, nor take the name of a directory.
-/

namespace ScannedPage

/-- Files by the names of their paths. -/
abbrev MemoryFiles := List (List (List Char) × ByteArray)

namespace MemoryFiles

/-- The names that lead to a file; the name of the parent directory takes one back. -/
def names (path : String) : List (List Char) :=
  ((Path.splitNames path.toList).foldl (fun done name =>
    if name.isEmpty || name == ['.'] then done
    else if name == ['.', '.'] then done.tail
    else name :: done) []).reverse

/-- The content of a file. -/
def content? (files : MemoryFiles) (path : String) : Option ByteArray := files.lookup (names path)

/-- A text or the reason why there is none. -/
def text (files : MemoryFiles) (path : String) : Except JobError String :=
  match (files.content? path).bind String.fromUTF8? with
  | some s => .ok s
  | none => .error (.file "no such text file")

/-- A picture or the reason why there is none. -/
def picture (files : MemoryFiles) (path : String) : Except JobError Bitmap :=
  match (files.content? path).bind (PictureFormat.pictureAt? path) with
  | some b => .ok b
  | none => .error (.picture "no such picture")

/-- The files with a picture under a path, or the reason why it cannot be put there. -/
def put (files : MemoryFiles) (path : String) (b : Bitmap) : Except JobError MemoryFiles :=
  let own := names path
  if files.any fun (n, _) => n != own && n.isPrefixOf own then .error (.file "a file is no directory")
  else if files.any fun (n, _) => n != own && own.isPrefixOf n then .error (.picture "a directory is no file")
  else
    match PictureFormat.contentAt? path b with
    | none => .error (.picture "no such format")
    | some data => .ok ((own, data) :: files.filter (·.1 != own))

/-- Access to the files as a store of pages. -/
def store : PageStore (StateM MemoryFiles) where
  readText path := return (← get).text path
  readPicture path := return (← get).picture path
  writePicture path b := do
    match MemoryFiles.put (← get) path b with
    | .ok files =>
      set files
      return .ok ()
    | .error fault => return .error fault

end MemoryFiles

end ScannedPage
