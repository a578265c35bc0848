/-!
# Paths

A path is a text of names between slashes. Empty names and single points say nothing, except for a
point at the very start; a slash at the start makes the path absolute. Taking a path apart leaves the
text of the part that remains as it was written.
-/

namespace ScannedPage.Path

/-- The text up to each slash in turn. -/
def splitNames : List Char → List (List Char)
  | [] => [[]]
  | c :: cs =>
    if c = '/' then [] :: splitNames cs
    else match splitNames cs with
      | name :: rest => (c :: name) :: rest
      | [] => [[c]]

/-- Names with slashes between them. -/
def joinNames : List (List Char) → List Char
  | [] => []
  | [name] => name
  | name :: rest => name ++ '/' :: joinNames rest

/-- The path does not depend on another. -/
def isAbsolute (path : String) : Bool := path.toList.head? == some '/'

/-- The leading slash or the leading point that stands for itself, and the names after it. -/
def parts (path : String) : List Char × List (List Char) :=
  match path.toList with
  | '/' :: body => (['/'], splitNames body)
  | ['.'] => (['.'], [[]])
  | '.' :: '/' :: body => (['.'], splitNames ('/' :: body))
  | body => ([], splitNames body)

/-- Names without those at the end that say nothing. -/
def trim (names : List (List Char)) : List (List Char) :=
  (names.reverse.dropWhile fun name => name.isEmpty || name == ['.']).reverse

/-- The path without its last name. -/
def parent? (path : String) : Option String :=
  let (head, names) := parts path
  match trim names with
  | [] => if head == ['.'] then some "" else none
  | names => some (String.ofList (head ++ joinNames (trim names.dropLast)))

/-- The last name, unless it is the one of the parent directory. -/
def fileName? (path : String) : Option String :=
  ((trim (parts path).2).getLast?.filter (· != ['.', '.'])).map String.ofList

/-- A file name up to its last point and after it; a name without a point, or with only one in front, has
no second part. -/
def splitPoint (name : String) : String × Option String :=
  let after := name.toList.reverse.takeWhile (· != '.')
  match name.toList.reverse.drop after.length with
  | [] => (name, none)
  | [_] => (name, none)
  | _ :: before => (String.ofList before.reverse, some (String.ofList after.reverse))

/-- The file name without its extension. -/
def stem? (path : String) : Option String := (fileName? path).map fun name => (splitPoint name).1

/-- The extension of the file name, in small letters. -/
def extension? (path : String) : Option String :=
  (fileName? path).bind fun name => (splitPoint name).2.map fun e => e.map Char.toLower

/-- A path taken from a directory, unless it is absolute. -/
def resolve (directory path : String) : String :=
  if isAbsolute path then path
  else
    match directory.toList.getLast? with
    | none => path
    | some '/' => directory ++ path
    | some _ => directory ++ "/" ++ path

/-- The path with another last name. -/
def withFileName (path name : String) : String :=
  match fileName? path with
  | some _ => resolve ((parent? path).getD "") name
  | none => resolve path name

end ScannedPage.Path
