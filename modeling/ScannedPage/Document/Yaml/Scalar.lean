import ScannedPage.Document.Plain
import ScannedPage.Document.Yaml.Cursor

/-!
# Scalars of YAML

A scalar stands between quotes, without quotes, or as a block of indented lines. Each reader starts at
the front of its scalar and gives the text and the cursor after it. Texts are gathered in reverse, so
that a character is added in one step.
-/

namespace ScannedPage.Yaml

/-- The character of a single-letter escape. -/
def escape? : Char → Option Char
  | '0' => some '\x00'
  | 'a' => some '\x07'
  | 'b' => some '\x08'
  | 't' => some '\t'
  | '\t' => some '\t'
  | 'n' => some '\n'
  | 'v' => some '\x0b'
  | 'f' => some '\x0c'
  | 'r' => some '\r'
  | 'e' => some '\x1b'
  | ' ' => some ' '
  | '"' => some '"'
  | '/' => some '/'
  | '\\' => some '\\'
  | 'N' => some '\u0085'
  | '_' => some '\u00a0'
  | 'L' => some '\u2028'
  | 'P' => some '\u2029'
  | _ => none

/-- The number of hexadecimal digits after an escape letter. -/
def escapeLength? : Char → Option Nat
  | 'x' => some 2
  | 'u' => some 4
  | 'U' => some 8
  | _ => none

/-- The character of a code point, except for halves of surrogate pairs. -/
def ofCodePoint? (n : Nat) : Option Char :=
  if n < 0xD800 ∨ (0xE000 ≤ n ∧ n < 0x110000) then some (Char.ofNat n) else none

/-- The character that an escape stands for, after its backslash, and the cursor after it. -/
def escaped? (c : Cursor) : Option (Char × Cursor) := do
  let letter ← c.peek
  match escapeLength? letter with
  | some n =>
    let digits := (c.advance 1).rest.take n
    if digits.length < n then none
    else return (← ofCodePoint? (← Plain.digits? 16 digits), c.advance (n + 1))
  | none => return (← escape? letter, c.advance 1)

/-- A text in double quotes after the opening quote, or in single quotes, where a quote is doubled. -/
def quoted? (double : Bool) : Nat → List Char → Cursor → Option (String × Cursor)
  | 0, _, _ => none
  | fuel + 1, done, c =>
    if c.documentMarker then none
    else
      match c.rest with
      | [] => none
      | d :: rest =>
        if d == '\'' && !double then
          if rest.head? == some '\'' then quoted? double fuel ('\'' :: done) (c.advance 2)
          else some (String.ofList done.reverse, c.advance 1)
        else if d == '"' && double then some (String.ofList done.reverse, c.advance 1)
        else if d == '\\' && double then
          if rest.head?.any isBreak then do
            let (gap, c) ← Gap.scan? 0 c.rest.length .escaped (c.advance 1).takeBreak.2
            quoted? double fuel (gap.text.reverse ++ done) c
          else do
            let (e, c) ← escaped? (c.advance 1)
            quoted? double fuel (e :: done) c
        else if isBlank d || isBreak d then do
          let (gap, c) ← Gap.scan? 0 c.rest.length .empty c
          quoted? double fuel (gap.text.reverse ++ done) c
        else quoted? double fuel (d :: done) (c.advance 1)

/-- A character that separates the parts of a flow collection. -/
def isFlowMark (c : Char) : Bool := c == ',' || c == '[' || c == ']' || c == '\x7b' || c == '\x7d'

/-- What ends a run of characters without blanks in a plain scalar. -/
inductive PlainStop
  /-- The scalar ends here. -/
  | ended
  /-- Something that must not stand here. -/
  | refused
  /-- A blank, a line break or the end of the text. -/
  | space
deriving DecidableEq

/-- The run of characters without blanks at the front of a plain scalar, and what ends it. -/
def plainRun (flow : Bool) : List Char → List Char × PlainStop
  | [] => ([], .space)
  | d :: rest =>
    if isBlank d || isBreak d then ([], .space)
    else if d == ':' && flow && rest.head?.any (fun e => isFlowMark e || e == '?') then ([], .refused)
    else if d == ':' && rest.head?.all (fun e => isBlank e || isBreak e) then ([], .ended)
    else if flow && isFlowMark d then ([], .ended)
    else
      let (run, stop) := plainRun flow rest
      (d :: run, stop)

/-- A plain scalar, and the cursor at the next token or line after it. -/
structure PlainText where
  text : List Char
  cursor : Cursor
  /-- A line break came after the last character. -/
  crossed : Bool

/-- A scalar without quotes, from some point on: the text so far is in reverse, and the gap before this
point belongs to the text only if more of it follows. Outside flow collections the lines that follow are
indented up to a column at least. -/
def plain? (flow : Bool) (column : Nat) : Nat → List Char → Gap → Cursor → Option PlainText
  | 0, _, _, _ => none
  | fuel + 1, done, gap, c =>
    let finished : PlainText := ⟨done.reverse, c, gap.crossed⟩
    if c.documentMarker || c.startsWith '#' then some finished
    else
      match plainRun flow c.rest with
      | (_, .refused) => none
      | ([], .ended) => some finished
      | (run, .ended) =>
        some ⟨(run.reverse ++ gap.text.reverse ++ done).reverse, c.advance run.length, false⟩
      | (run, .space) => do
        let done := if run.isEmpty then done else run.reverse ++ gap.text.reverse ++ done
        let c := c.advance run.length
        if c.atEnd then return ⟨done.reverse, c, run.isEmpty && gap.crossed⟩
        let (gap, c) ← Gap.scan? column c.rest.length .empty c
        if !flow && decide (c.column < column) then return ⟨done.reverse, c, gap.crossed⟩
        plain? flow column fuel done gap c

/-- Which of the line breaks after the last line of a block belong to it. -/
inductive Chomping
  | strip
  | clip
  | keep
deriving DecidableEq

/-- The chomping mark and the indentation digit after the letter of a block, in either order. -/
def blockHeader? (c : Cursor) : Option (Chomping × Option Nat × Cursor) :=
  let chomping (c : Cursor) : Chomping × Cursor :=
    if c.startsWith '+' then (.keep, c.advance 1)
    else if c.startsWith '-' then (.strip, c.advance 1)
    else (.clip, c)
  let digit? (c : Cursor) : Option (Option Nat × Cursor) :=
    match c.peek with
    | some d =>
      if d == '0' then none
      else if d.isDigit then some (some (d.toNat - '0'.toNat), c.advance 1)
      else some (none, c)
    | none => some (none, c)
  if c.next Char.isDigit then do
    let (increment, c) ← digit? c
    let (mark, c) := chomping c
    return (mark, increment, c)
  else do
    let (mark, c) := chomping c
    if mark = .clip then return (mark, none, c)
    let (increment, c) ← digit? c
    return (mark, increment, c)

/-- The line breaks before the next line of a block, the greatest column before one of them, and the
cursor at the line's first character; with no indentation given, at its first that is not a space. -/
def blockBreaks? (indent : Option Nat) : Nat → List Char → Nat → Cursor → Option (List Char × Nat × Cursor)
  | 0, breaks, deepest, c => some (breaks, deepest, c)
  | fuel + 1, breaks, deepest, c =>
    let spaces := (c.rest.takeWhile (· == ' ')).length
    let c := c.advance (match indent with
      | some n => min spaces (n - c.column)
      | none => spaces)
    let deepest := max deepest c.column
    if c.startsWith '\t' && indent.all (fun n => decide (c.column < n)) then none
    else if c.next isBreak then
      let (lineBreak, c) := c.takeBreak
      blockBreaks? indent fuel (breaks ++ lineBreak) deepest c
    else some (breaks, deepest, c)

/-- A block between two of its lines. -/
structure BlockState where
  /-- The text so far, in reverse. -/
  done : List Char
  /-- The line break after the last line. -/
  lineBreak : List Char
  /-- The breaks of the empty lines since. -/
  emptyLines : List Char
  /-- The last line began with a blank. -/
  indented : Bool

/-- The lines of a block at an indentation, from the cursor on. In a folded block a single break between
two lines that do not begin with a blank is a space. -/
def blockLines? (folded : Bool) (indent : Nat) : Nat → BlockState → Cursor → Option (BlockState × Cursor)
  | 0, s, c => some (s, c)
  | fuel + 1, s, c =>
    if c.column ≠ indent ∨ c.atEnd then some (s, c)
    else do
      let blank := c.next isBlank
      let joint :=
        if folded && s.lineBreak == ['\n'] && !s.indented && !blank then
          (if s.emptyLines.isEmpty then [' '] else s.emptyLines)
        else s.lineBreak ++ s.emptyLines
      let line := c.rest.takeWhile (!isBreak ·)
      let (lineBreak, c) := (c.advance line.length).takeBreak
      let (emptyLines, _, c) ← blockBreaks? (some indent) c.rest.length [] 0 c
      blockLines? folded indent fuel ⟨line.reverse ++ joint.reverse ++ s.done, lineBreak, emptyLines, blank⟩ c

/-- The text of a block after its letter, inside an indentation (negative at the top). -/
def block? (folded : Bool) (outer : Int) (c : Cursor) : Option (String × Cursor) := do
  let (chomping, increment, c) ← blockHeader? c
  let c ← c.endLine?
  let given := increment.map fun n => n + outer.toNat
  let (emptyLines, deepest, c) ← blockBreaks? given c.rest.length [] 0 c
  let indent := given.getD (max deepest (max (outer + 1).toNat 1))
  let (s, c) ← blockLines? folded indent (c.rest.length + 1) ⟨[], [], emptyLines, false⟩ c
  let tail := match chomping with
    | .strip => []
    | .clip => s.lineBreak
    | .keep => s.lineBreak ++ s.emptyLines
  return (String.ofList (s.done.reverse ++ tail), c)

end ScannedPage.Yaml
