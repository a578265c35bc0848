import ScannedPage.Document.Yaml.Scalar

/-!
# Tokens of YAML

The tokens tell apart the marks of flow collections, which are written, and the starts and ends of block
collections, which follow from the columns. A key of one line is known as such only at the colon after
it, so that its mark is put in afterwards, in front of the tokens that came since.
-/

namespace ScannedPage.Yaml

/-- A unit of the text. -/
inductive Token
  | streamEnd
  /-- A version line with its two numbers. -/
  | version (major minor : Nat)
  /-- A line that lets a handle stand for the front part of tags. -/
  | tagHandle (handle front : String)
  | documentStart
  | documentEnd
  | blockSequenceStart
  | blockMappingStart
  | blockEnd
  | flowSequenceStart
  | flowSequenceEnd
  | flowMappingStart
  | flowMappingEnd
  | blockEntry
  | flowEntry
  | key
  | value
  | alias (name : String)
  | anchor (name : String)
  | tag (handle rest : String)
  | scalar (isPlain : Bool) (text : String)
deriving DecidableEq, Repr

/-- A place where a key of one line may have begun. -/
structure KeyPlace where
  /-- The number of tokens before it. -/
  tokens : Nat
  /-- Only a key can stand there. -/
  required : Bool
  index : Nat
  line : Nat
  column : Nat

/-- The cursor is past the end of a key of this place, which ends on its line and has at most 1024
characters. -/
def KeyPlace.isBehind (k : KeyPlace) (c : Cursor) : Bool :=
  decide (k.line < c.line) || decide (k.index + 1024 < c.index)

/-- The state between two tokens. -/
structure Lexer where
  cursor : Cursor
  tokens : Array Token
  /-- The column of the innermost block collection; negative at the top. -/
  indent : Int
  /-- The columns around it, innermost first. -/
  outerIndents : List Int
  /-- The place of a possible key in the innermost collection. -/
  keyPlace : Option KeyPlace
  /-- The places of possible keys in the collections around it, innermost first; there is one for each open flow
  collection. -/
  outerKeys : List (Option KeyPlace)
  /-- A key may begin here. -/
  keyAllowed : Bool

namespace Lexer

/-- The start of a text. -/
def start (cs : List Char) : Lexer := ⟨.start cs, #[], -1, [], none, [], true⟩

/-- The cursor is inside a flow collection. -/
def inFlow (l : Lexer) : Bool := !l.outerKeys.isEmpty

/-- One token more. -/
def push (l : Lexer) (t : Token) : Lexer := { l with tokens := l.tokens.push t }

/-- The same state further on. -/
def moveTo (l : Lexer) (c : Cursor) : Lexer := { l with cursor := c }

/-- After a mark of some characters, which is a token. -/
def mark (l : Lexer) (length : Nat) (t : Token) : Lexer := (l.push t).moveTo (l.cursor.advance length)

/-- The state with keys allowed or not. -/
def allowKey (l : Lexer) (allowed : Bool) : Lexer := { l with keyAllowed := allowed }

/-- After the blanks, comments and line breaks before a token. Outside flow collections a tab is no blank
where a key may begin, and a new line lets a key begin. -/
def skipSpace (l : Lexer) : Nat → Lexer
  | 0 => l
  | fuel + 1 =>
    let c := if l.cursor.column == 0 && l.cursor.startsWith '\ufeff' then l.cursor.advance 1 else l.cursor
    let tabs := l.inFlow || !l.keyAllowed
    let c := (c.skipWhile fun d => d == ' ' || (tabs && d == '\t')).skipComment
    if c.next isBreak then
      ({ l with cursor := c.takeBreak.2, keyAllowed := l.keyAllowed || !l.inFlow }).skipSpace fuel
    else l.moveTo c

/-- The place unless it lies behind; refused when it does and only a key could stand there. -/
def freshKey? (c : Cursor) : Option KeyPlace → Option (Option KeyPlace)
  | none => some none
  | some k => if k.isBehind c then (if k.required then none else some none) else some (some k)

/-- Gives up all places for keys that lie behind. -/
def dropStale? (l : Lexer) : Option Lexer := do
  return { l with
    keyPlace := ← freshKey? l.cursor l.keyPlace
    outerKeys := ← l.outerKeys.mapM (freshKey? l.cursor) }

/-- Gives up the place for a key; refused when only a key could stand there. -/
def dropKey? (l : Lexer) : Option Lexer :=
  if l.keyPlace.any (·.required) then none else some { l with keyPlace := none }

/-- Remembers this place for a key, if one may begin here. -/
def noteKey? (l : Lexer) : Option Lexer :=
  if l.keyAllowed then do
    let l ← l.dropKey?
    let required := !l.inFlow && decide (l.indent = l.cursor.column)
    let c := l.cursor
    return { l with keyPlace := some ⟨l.tokens.size, required, c.index, c.line, c.column⟩ }
  else some l

/-- Begins a block collection at a column, unless one is open there; its token goes in at a place. -/
def openBlock (l : Lexer) (column place : Nat) (t : Token) : Lexer :=
  if !l.inFlow && decide (l.indent < column) then
    { l with
      tokens := l.tokens.insertIdxIfInBounds place t
      indent := column
      outerIndents := l.indent :: l.outerIndents }
  else l

/-- Ends the block collections that are open right of a column. -/
def closeBlocks (l : Lexer) (column : Int) : Lexer :=
  if l.inFlow then l
  else
    let inner := (l.indent :: l.outerIndents).takeWhile (column < ·)
    match (l.indent :: l.outerIndents).drop inner.length with
    | indent :: outer =>
      let tokens := l.tokens ++ Array.replicate inner.length .blockEnd
      { l with tokens, indent, outerIndents := outer }
    | [] => l

/-- The state at the end of the text. -/
def finish? (l : Lexer) : Option Lexer := do
  let l ← (l.closeBlocks (-1)).dropKey?
  return (l.allowKey false).push .streamEnd

/-- A line that begins or ends a document. -/
def documentMark? (l : Lexer) (t : Token) : Option Lexer := do
  let l ← (l.closeBlocks (-1)).dropKey?
  return (l.allowKey false).mark 3 t

/-- The start of a flow collection. -/
def openFlow? (l : Lexer) (t : Token) : Option Lexer := do
  let l ← l.noteKey?
  return ({ l with keyPlace := none, outerKeys := l.keyPlace :: l.outerKeys, keyAllowed := true }).mark 1 t

/-- The end of a flow collection. -/
def closeFlow? (l : Lexer) (t : Token) : Option Lexer := do
  let l ← l.dropKey?
  let l := match l.outerKeys with
    | k :: outer => { l with keyPlace := k, outerKeys := outer }
    | [] => l
  return (l.allowKey false).mark 1 t

/-- A comma. -/
def flowEntry? (l : Lexer) : Option Lexer := do return ((← l.dropKey?).allowKey true).mark 1 .flowEntry

/-- A hyphen in front of an item. -/
def blockEntry? (l : Lexer) : Option Lexer := do
  if !l.inFlow && !l.keyAllowed then none
  let l := l.openBlock l.cursor.column l.tokens.size .blockSequenceStart
  return ((← l.dropKey?).allowKey true).mark 1 .blockEntry

/-- A question mark in front of a key. -/
def key? (l : Lexer) : Option Lexer := do
  if !l.inFlow && !l.keyAllowed then none
  let l := l.openBlock l.cursor.column l.tokens.size .blockMappingStart
  return ((← l.dropKey?).allowKey (!l.inFlow)).mark 1 .key

/-- A colon after a key: of one line, if one may have begun before, or of its own lines. -/
def value? (l : Lexer) : Option Lexer :=
  match l.keyPlace with
  | some k =>
    let l := { l with tokens := l.tokens.insertIdxIfInBounds k.tokens .key }
    let l := l.openBlock k.column k.tokens .blockMappingStart
    some (({ l with keyPlace := none, keyAllowed := false }).mark 1 .value)
  | none =>
    if !l.inFlow && !l.keyAllowed then none
    else
      let l := l.openBlock l.cursor.column l.tokens.size .blockMappingStart
      some ((l.allowKey (!l.inFlow)).mark 1 .value)

/-- The name after the mark of an anchor or an alias; some mark or blank has to follow. -/
def name? (l : Lexer) (token : String → Token) : Option Lexer := do
  let l ← l.noteKey?
  let name := (l.cursor.advance 1).rest.takeWhile isWordChar
  let c := l.cursor.advance (name.length + 1)
  let ends := c.spaceAfter 0 || c.next fun d => "?:,]\x7d%@`".toList.contains d
  if name.isEmpty || !ends then none
  else return ((l.allowKey false).push (token (String.ofList name))).moveTo c

/-- A character of a tag that stands for itself; three more of them may stand in angle brackets. -/
def isTagChar (bracketed : Bool) (c : Char) : Bool :=
  isWordChar c || ";/?:@&=+$.!~*'()".toList.contains c || (bracketed && ",[]".toList.contains c)

/-- The bytes that are written as a percent sign and two digits, a number of them. -/
def escapedBytes? : Nat → Cursor → Option (List Nat × Cursor)
  | 0, c => some ([], c)
  | n + 1, c =>
    match c.rest with
    | '%' :: a :: b :: _ => do
      let byte := (← Plain.digit? a) * 16 + (← Plain.digit? b)
      let (bytes, c) ← escapedBytes? n (c.advance 3)
      return (byte :: bytes, c)
    | _ => none

/-- A character that is written by its bytes: the first one tells their number. -/
def escapedChar? (c : Cursor) : Option (Char × Cursor) := do
  let (bytes, _) ← escapedBytes? 1 c
  let head := bytes.headD 0
  let (count, top) ←
    if head < 0x80 then some (1, head)
    else if 0xC0 ≤ head ∧ head < 0xE0 then some (2, head - 0xC0)
    else if 0xE0 ≤ head ∧ head < 0xF0 then some (3, head - 0xE0)
    else if 0xF0 ≤ head ∧ head < 0xF8 then some (4, head - 0xF0)
    else none
  let (bytes, c) ← escapedBytes? count c
  let code ← bytes.tail.foldlM (fun n byte =>
    if 0x80 ≤ byte ∧ byte < 0xC0 then some (n * 64 + (byte - 0x80)) else none) top
  return (Char.ofNat code, c)

/-- The characters of a tag from here on. -/
def tagChars? (bracketed : Bool) : Nat → List Char → Cursor → Option (List Char × Cursor)
  | 0, done, c => some (done.reverse, c)
  | fuel + 1, done, c =>
    match c.peek with
    | none => some (done.reverse, c)
    | some d =>
      if d == '%' then do
        let (e, c) ← escapedChar? c
        tagChars? bracketed fuel (e :: done) c
      else if isTagChar bracketed d then tagChars? bracketed fuel (d :: done) (c.advance 1)
      else some (done.reverse, c)

/-- The handle and the rest of a tag, and the cursor after it. A tag in angle brackets has no handle; one
with a second exclamation mark has the part up to there, and any other a single mark. -/
def tagParts? (c : Cursor) : Option (String × String × Cursor) := do
  if (c.advance 1).startsWith '<' then
    let c := c.advance 2
    let (rest, c) ← tagChars? true (c.rest.length + 1) [] c
    if rest.isEmpty || !c.startsWith '>' then none
    return ("", String.ofList rest, c.advance 1)
  let word := (c.advance 1).rest.takeWhile isWordChar
  let c' := c.advance (word.length + 1)
  if c'.startsWith '!' then
    let c' := c'.advance 1
    let (rest, c') ← tagChars? false (c'.rest.length + 1) [] c'
    if rest.isEmpty then none
    return (String.ofList ('!' :: word ++ ['!']), String.ofList rest, c')
  let (rest, c') ← tagChars? false (c'.rest.length + 1) word.reverse c'
  if rest.isEmpty then return ("", "!", c') else return ("!", String.ofList rest, c')

/-- A tag in front of a value. -/
def tag? (l : Lexer) : Option Lexer := do
  let l ← l.noteKey?
  let (handle, rest, c) ← tagParts? l.cursor
  if c.spaceAfter 0 || (l.inFlow && c.startsWith ',') then
    return ((l.allowKey false).push (.tag handle rest)).moveTo c
  else none

/-- A number of at most nine digits. -/
def versionNumber? (c : Cursor) : Option (Nat × Cursor) := do
  let digits := c.rest.takeWhile Char.isDigit
  if 9 < digits.length then none
  return (← Plain.digits? 10 digits, c.advance digits.length)

/-- What follows the word of a version line. -/
def versionLine? (c : Cursor) : Option (Token × Cursor) := do
  let (major, c) ← versionNumber? (c.skipWhile isBlank)
  if !c.startsWith '.' then none
  let (minor, c) ← versionNumber? (c.advance 1)
  return (.version major minor, c)

/-- What follows the word of a line that names a handle. -/
def handleLine? (c : Cursor) : Option (Token × Cursor) := do
  let c := c.skipWhile isBlank
  if !c.startsWith '!' then none
  let word := (c.advance 1).rest.takeWhile isWordChar
  let c := c.advance (word.length + 1)
  let (handle, c) ←
    if c.startsWith '!' then some ('!' :: word ++ ['!'], c.advance 1)
    else if word.isEmpty then some (['!'], c)
    else none
  if !c.next isBlank then none
  let c := c.skipWhile isBlank
  let (front, c) ← tagChars? true (c.rest.length + 1) [] c
  if front.isEmpty || !c.spaceAfter 0 then none
  return (.tagHandle (String.ofList handle) (String.ofList front), c)

/-- A line in front of a document that begins with a percent sign. -/
def directive? (l : Lexer) : Option Lexer := do
  let l ← (l.closeBlocks (-1)).dropKey?
  let word := (l.cursor.advance 1).rest.takeWhile isWordChar
  let c := l.cursor.advance (word.length + 1)
  if !c.spaceAfter 0 then none
  let (token, c) ← match String.ofList word with
    | "YAML" => versionLine? c
    | "TAG" => handleLine? c
    | _ => none
  return ((l.allowKey false).push token).moveTo (← c.endLine?)

/-- A scalar in quotes. -/
def quoted? (l : Lexer) (double : Bool) : Option Lexer := do
  let l ← l.noteKey?
  let (text, c) ← Yaml.quoted? double (l.cursor.rest.length + 1) [] (l.cursor.advance 1)
  return ((l.allowKey false).push (.scalar false text)).moveTo c

/-- A scalar of indented lines. -/
def block? (l : Lexer) (folded : Bool) : Option Lexer := do
  let l ← l.dropKey?
  let (text, c) ← Yaml.block? folded l.indent (l.cursor.advance 1)
  return ((l.allowKey true).push (.scalar false text)).moveTo c

/-- A scalar without quotes. -/
def plain? (l : Lexer) : Option Lexer := do
  let l ← l.noteKey?
  let found ← Yaml.plain? l.inFlow (l.indent + 1).toNat (l.cursor.rest.length + 1) [] .empty l.cursor
  return ((l.allowKey found.crossed).push (.scalar true (String.ofList found.text))).moveTo found.cursor

/-- A scalar without quotes begins here. -/
def plainStarts (l : Lexer) : Bool :=
  match l.cursor.rest with
  | [] => false
  | d :: rest =>
    let alone := l.cursor.spaceAfter 1
    if d == '-' then !rest.head?.any isBlank
    else if d == '?' || d == ':' then !l.inFlow && !alone
    else !isBlank d && !isBreak d && !("-?:,[]\x7b\x7d#&*!|>'\"%@`".toList.contains d)

/-- The state after the next token, whose first character is at the cursor. -/
def token? (l : Lexer) (d : Char) : Option Lexer :=
  let c := l.cursor
  let alone := c.spaceAfter 1
  if c.column == 0 && d == '%' then l.directive?
  else if c.marker '-' then l.documentMark? .documentStart
  else if c.marker '.' then l.documentMark? .documentEnd
  else if d == '[' then l.openFlow? .flowSequenceStart
  else if d == '\x7b' then l.openFlow? .flowMappingStart
  else if d == ']' then l.closeFlow? .flowSequenceEnd
  else if d == '\x7d' then l.closeFlow? .flowMappingEnd
  else if d == ',' then l.flowEntry?
  else if d == '-' && alone then l.blockEntry?
  else if d == '?' && (l.inFlow || alone) then l.key?
  else if d == ':' && (l.inFlow || alone) then l.value?
  else if d == '*' then l.name? .alias
  else if d == '&' then l.name? .anchor
  else if d == '!' then l.tag?
  else if d == '|' && !l.inFlow then l.block? false
  else if d == '>' && !l.inFlow then l.block? true
  else if d == '\'' then l.quoted? false
  else if d == '"' then l.quoted? true
  else if l.plainStarts then l.plain?
  else none

/-- The tokens from here on, with the fuel for one more. -/
def run? : Nat → Lexer → Option (Array Token)
  | 0, _ => none
  | fuel + 1, l => do
    let l ← (l.skipSpace (l.cursor.rest.length + 1)).dropStale?
    let l := l.closeBlocks l.cursor.column
    match l.cursor.peek with
    | none => return (← l.finish?).tokens
    | some d => run? fuel (← l.token? d)

end Lexer

/-- A character that a text may hold: tabs, line breaks, and everything that is printed. -/
def isAllowed (c : Char) : Bool :=
  c == '\t' || c == '\n' || c == '\r' || c == '\u0085' || (decide (' ' ≤ c) && decide (c ≤ '~')) ||
    (decide ('\u00a0' ≤ c) && c != '\ufffe' && c != '\uffff')

/-- The tokens of a text. -/
def tokens? (s : String) : Option (List Token) :=
  let cs := s.toList
  if cs.all isAllowed then ((Lexer.start cs).run? (cs.length + 1)).map (·.toList) else none

end ScannedPage.Yaml
