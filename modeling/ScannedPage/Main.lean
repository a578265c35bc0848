import ScannedPage.Bitmap.File
import ScannedPage.CommandLine

/-!
# The command

The command line on the files of the machine: its lines go to the standard error, and its exit code tells
whether it succeeded.
-/

namespace ScannedPage

/-- What an action gives, or the fault that its failure amounts to. -/
def attempt {α : Type} (fault : String → JobError) (action : IO α) : IO (Except JobError α) := do
  try return .ok (← action)
  catch reason => return .error (fault (toString reason))

/-- The files of the machine. -/
def machineStore : PageStore IO where
  readText path := attempt .file (IO.FS.readFile path)
  readPicture path := do
    let content ← attempt .picture (IO.FS.readBinFile path)
    return content.bind fun data =>
      ((PictureFormat.pictureAt? path data).map .ok).getD (.error (.picture "no picture of its format"))
  writePicture path b := do
    let directory := (Path.parent? path).getD ""
    let made ← attempt .file (unless directory.isEmpty do IO.FS.createDirAll directory)
    match made, PictureFormat.contentAt? path b with
    | .error fault, _ => return .error fault
    | .ok _, none => return .error (.picture "no such format")
    | .ok _, some data => attempt .picture (IO.FS.writeBinFile path data)

end ScannedPage

/-- Runs the command on its arguments. -/
def main (arguments : List String) : IO UInt32 := do
  let outcome ← ScannedPage.CommandLine.run ScannedPage.machineStore arguments
  outcome.lines.forM fun line => IO.eprintln line
  return if outcome.succeeds then 0 else 1
