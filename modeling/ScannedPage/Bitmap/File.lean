import ScannedPage.Bitmap.Png
import ScannedPage.Bitmap.Pnm
import ScannedPage.Path

/-!
# Picture files

The extension of a file tells how a picture is kept in it; a file of an unknown kind is neither read nor
written.
-/

namespace ScannedPage

/-- How a picture is kept. -/
inductive PictureFormat
  | png
  | pnm
deriving DecidableEq, Repr

namespace PictureFormat

/-- The format of a file, by its extension. -/
def ofPath? (path : String) : Option PictureFormat := do
  match ← Path.extension? path with
  | "png" | "apng" => some png
  | "pbm" | "pgm" | "ppm" | "pnm" | "pam" => some pnm
  | _ => none

/-- A picture as the content of a file. -/
def encode : PictureFormat → Bitmap → ByteArray
  | png => Png.encode
  | pnm => Pnm.encode

/-- The picture that the content of a file holds. -/
def decode? : PictureFormat → ByteArray → Option Bitmap
  | png => Png.decode?
  | pnm => Pnm.decode?

/-- A picture as the content of a file with a path. -/
def contentAt? (path : String) (b : Bitmap) : Option ByteArray := (ofPath? path).map fun f => f.encode b

/-- The picture that the content of a file with a path holds. -/
def pictureAt? (path : String) (content : ByteArray) : Option Bitmap := do (← ofPath? path).decode? content

end PictureFormat

end ScannedPage
