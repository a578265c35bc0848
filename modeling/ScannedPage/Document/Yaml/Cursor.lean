/-!
# Positions in a text with lines

A cursor is the rest of a text with the place of its front: the number of characters before it, its
line and its column. It moves over one character, over a line break, or over a gap of blanks and line
breaks, which folds to the text that stands for it: a single break is a blank, more breaks are one less.
-/

namespace ScannedPage.Yaml

/-- The rest of a text and where it begins. -/
structure Cursor where
  rest : List Char
  index : Nat
  line : Nat
  column : Nat

/-- A space or a tab. -/
def isBlank (c : Char) : Bool := c == ' ' || c == '\t'

/-- A character that ends a line. -/
def isBreak (c : Char) : Bool :=
  c == '\n' || c == '\r' || c == '\u0085' || c == '\u2028' || c == '\u2029'

/-- A letter, digit, underscore or hyphen. -/
def isWordChar (c : Char) : Bool := c.isAlphanum || c == '_' || c == '-'

namespace Cursor

/-- The start of a text. -/
def start (cs : List Char) : Cursor := ⟨cs, 0, 0, 0⟩

/-- The next character. -/
@[inline]
def peek (c : Cursor) : Option Char := c.rest.head?

/-- The next character is the given one. -/
@[inline]
def startsWith (c : Cursor) (expected : Char) : Bool := c.rest.head? == some expected

/-- The next character has a property. -/
@[inline]
def next (c : Cursor) (p : Char → Bool) : Bool := c.rest.head?.any p

/-- The text ends here. -/
@[inline]
def atEnd (c : Cursor) : Bool := c.rest.isEmpty

/-- A blank, a line break or the end of the text follows a number of characters. -/
@[inline]
def spaceAfter (c : Cursor) (n : Nat) : Bool :=
  match (c.rest.drop n).head? with
  | none => true
  | some d => isBlank d || isBreak d

/-- The line ends here. -/
@[inline]
def atLineEnd (c : Cursor) : Bool := c.atEnd || c.next isBreak

/-- After a number of characters of the same line. -/
@[inline]
def advance (c : Cursor) (n : Nat) : Cursor := ⟨c.rest.drop n, c.index + n, c.line, c.column + n⟩

/-- After the longest run of characters with a property, all on one line. -/
def skipWhile (p : Char → Bool) (c : Cursor) : Cursor := c.advance (c.rest.takeWhile p).length

/-- After a line break, and the text that the break stands for; without a break nothing changes. -/
def takeBreak (c : Cursor) : List Char × Cursor :=
  match c.rest with
  | '\r' :: '\n' :: rest => (['\n'], ⟨rest, c.index + 2, c.line + 1, 0⟩)
  | d :: rest =>
    if d == '\u2028' || d == '\u2029' then ([d], ⟨rest, c.index + 1, c.line + 1, 0⟩)
    else if isBreak d then (['\n'], ⟨rest, c.index + 1, c.line + 1, 0⟩)
    else ([], c)
  | [] => ([], c)

/-- After a comment, if one begins here. -/
def skipComment (c : Cursor) : Cursor := if c.startsWith '#' then c.skipWhile (!isBreak ·) else c

/-- Three times a character at the start of a line, and nothing right after. -/
def marker (c : Cursor) (mark : Char) : Bool :=
  c.column == 0 && c.rest.take 3 == [mark, mark, mark] && c.spaceAfter 3

/-- A line that begins or ends a document. -/
def documentMarker (c : Cursor) : Bool := c.marker '-' || c.marker '.'

/-- After the blanks, the comment and the line break at the end of a line, where nothing else may stand. -/
def endLine? (c : Cursor) : Option Cursor :=
  let c := (c.skipWhile isBlank).skipComment
  if c.atLineEnd then some c.takeBreak.2 else none

end Cursor

/-- Blanks and line breaks between two parts of a text. -/
structure Gap where
  /-- The blanks before the first line break. -/
  blanks : List Char
  /-- There was a line break. -/
  crossed : Bool
  /-- The first line break, unless it was escaped. -/
  first : List Char
  /-- The line breaks after it. -/
  more : List Char

namespace Gap

/-- Nothing yet. -/
def empty : Gap := ⟨[], false, [], []⟩

/-- An escaped line break. -/
def escaped : Gap := ⟨[], true, [], []⟩

/-- The text that stands for the gap. -/
def text (g : Gap) : List Char :=
  if !g.crossed then g.blanks
  else if g.first == ['\n'] then (if g.more.isEmpty then [' '] else g.more)
  else g.first ++ g.more

/-- A line break more. -/
def cross (g : Gap) (lineBreak : List Char) : Gap :=
  if g.crossed then { g with more := g.more ++ lineBreak } else ⟨[], true, lineBreak, []⟩

/-- The gap from here on, with the fuel for its characters. After a line break a tab left of a column is
refused. -/
def scan? (column : Nat) : Nat → Gap → Cursor → Option (Gap × Cursor)
  | 0, g, c => some (g, c)
  | fuel + 1, g, c =>
    match c.peek with
    | none => some (g, c)
    | some d =>
      if isBlank d then
        if g.crossed then
          if d == '\t' && decide (c.column < column) then none else scan? column fuel g (c.advance 1)
        else scan? column fuel { g with blanks := g.blanks ++ [d] } (c.advance 1)
      else if isBreak d then
        let (lineBreak, c) := c.takeBreak
        scan? column fuel (g.cross lineBreak) c
      else some (g, c)

end Gap

end ScannedPage.Yaml
