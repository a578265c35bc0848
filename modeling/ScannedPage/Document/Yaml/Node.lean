import ScannedPage.Document.Value
import ScannedPage.Document.Yaml.Token

/-!
# The document of a YAML text

The tokens of a text are the nodes of at most one document. A node may be named by an anchor and stand
again wherever an alias names it; inside itself it has no value yet. Tags are spelled out by the handles
that the document declares. A text without any node is an empty plain scalar.
-/

namespace ScannedPage.Yaml

/-- What is known between two nodes. -/
structure Reading where
  tokens : List Token
  /-- The handles of tags and what they stand for; the first of a name counts. -/
  handles : List (String × String)
  /-- The nodes named so far, the last one first. -/
  anchors : List (String × Value)

/-- A step that reads tokens, or refuses them. -/
abbrev Reader := StateT Reading Option

namespace Reader

/-- The next token, which stays. -/
def peek : Reader Token := do return (← get).tokens.headD .streamEnd

/-- Drops the next token. -/
def drop : Reader Unit := modify fun r => { r with tokens := r.tokens.tail }

/-- Drops the next token if it is the expected one, and tells whether it was. -/
def drop? (expected : Token) : Reader Bool := do
  if (← peek) = expected then
    drop
    return true
  else return false

/-- Drops the next token, which has to be the expected one. -/
def expect (expected : Token) : Reader Unit := do
  if !(← drop? expected) then failure

/-- The full tag of a handle and its rest. -/
def spellTag (handle rest : String) : Reader String := do
  if handle.isEmpty then return rest
  else
    match (← get).handles.lookup handle with
    | some front => return front ++ rest
    | none => failure

/-- What may stand in front of a node: an anchor and a tag, in either order. -/
structure Properties where
  anchor : Option String
  tag : Option String

/-- The anchor at the front, if there is one. -/
def anchor? : Reader (Option String) := do
  match ← peek with
  | .anchor name =>
    drop
    return some name
  | _ => return none

/-- The tag at the front, if there is one. -/
def tag? : Reader (Option String) := do
  match ← peek with
  | .tag handle rest =>
    drop
    return some (← spellTag handle rest)
  | _ => return none

/-- The anchor and the tag at the front. -/
def properties : Reader Properties := do
  match ← anchor? with
  | some name => return ⟨some name, ← tag?⟩
  | none =>
    match ← tag? with
    | some tag => return ⟨← anchor?, some tag⟩
    | none => return ⟨none, none⟩

/-- Names a node. -/
def name (anchor : Option String) (v : Value) : Reader Unit :=
  match anchor with
  | some name => modify fun r => { r with anchors := (name, v) :: r.anchors }
  | none => pure ()

/-- The node with its tag. -/
def withTag (tag : Option String) (v : Value) : Value :=
  match tag with
  | some tag => .tagged tag v
  | none => v

/-- A scalar with its tag; the tag that is a mere mark says nothing. -/
def scalar (p : Properties) (isPlain : Bool) (text : String) : Value :=
  withTag (p.tag.filter (· != "!")) (if isPlain then .plain text else .text text)

/-- A token that ends an entry of a block collection. -/
def endsEntry : Token → Bool
  | .blockEnd | .key | .value => true
  | _ => false

/-- A node of nothing but its anchor and tag. -/
def bare (p : Properties) : Reader Value := do
  if p.anchor.isNone && p.tag.isNone then failure
  let v := withTag p.tag (.plain "")
  name p.anchor v
  return v

/-- A collection; its anchor names nothing readable while it is read. -/
def collection (p : Properties) (read : Reader Value) : Reader Value := do
  name p.anchor .unreadable
  let v := withTag p.tag (← read)
  name p.anchor v
  return v

mutual

/-- A node. Collections of indented lines are admitted in blocks only; after a key, items may stand at the
column of the key, and then have no token of their own at their start and end. -/
def node (block sameColumn : Bool) : Nat → Reader Value
  | 0 => failure
  | fuel + 1 => do
    match ← peek with
    | .alias name =>
      drop
      match (← get).anchors.lookup name with
      | some v => return v
      | none => failure
    | _ =>
      let p ← properties
      match ← peek with
      | .scalar isPlain text =>
        drop
        let v := scalar p isPlain text
        name p.anchor v
        return v
      | .blockEntry => if sameColumn then collection p (.list <$> alignedItems fuel) else bare p
      | .flowSequenceStart =>
        drop
        collection p (.list <$> flowItems true fuel)
      | .flowMappingStart =>
        drop
        collection p (.record <$> flowFields true fuel)
      | .blockSequenceStart =>
        if block then
          drop
          collection p (.list <$> blockItems fuel)
        else bare p
      | .blockMappingStart =>
        if block then
          drop
          collection p (.record <$> blockFields fuel)
        else bare p
      | _ => bare p
/-- A node, or an empty one where the next token ends the entry. -/
def nodeUnless (ends : Token → Bool) (block sameColumn : Bool) : Nat → Reader Value
  | 0 => failure
  | fuel + 1 => do
    if ends (← peek) then return .plain "" else node block sameColumn fuel

/-- The items of a block up to its end. -/
def blockItems : Nat → Reader (List Value)
  | 0 => failure
  | fuel + 1 => do
    if ← drop? .blockEntry then
      let v ← nodeUnless (fun t => t = .blockEntry ∨ t = .blockEnd) true false fuel
      return v :: (← blockItems fuel)
    else
      expect .blockEnd
      return []

/-- The items at the column of their key. -/
def alignedItems : Nat → Reader (List Value)
  | 0 => failure
  | fuel + 1 => do
    if ← drop? .blockEntry then
      let v ← nodeUnless (fun t => t = .blockEntry ∨ endsEntry t) true false fuel
      return v :: (← alignedItems fuel)
    else return []

/-- The fields of a block up to its end. -/
def blockFields : Nat → Reader (List (Value × Value))
  | 0 => failure
  | fuel + 1 => do
    if ← drop? .key then
      let key ← nodeUnless (fun t => endsEntry t) true true fuel
      let v ← if ← drop? .value then nodeUnless (fun t => endsEntry t) true true fuel else pure (.plain "")
      return (key, v) :: (← blockFields fuel)
    else
      expect .blockEnd
      return []

/-- The items of a flow sequence up to its end; commas stand between them, and one may stand at the end. -/
def flowItems (first : Bool) : Nat → Reader (List Value)
  | 0 => failure
  | fuel + 1 => do
    if ← drop? .flowSequenceEnd then return []
    if !first then expect .flowEntry
    if ← drop? .flowSequenceEnd then return []
    let v ← if ← drop? .key then flowPair fuel else node false false fuel
    return v :: (← flowItems false fuel)

/-- A record of one field as an item of a flow sequence, after the mark of its key. -/
def flowPair : Nat → Reader Value
  | 0 => failure
  | fuel + 1 => do
    let ends (t : Token) : Bool := t = .flowEntry ∨ t = .flowSequenceEnd
    let t ← peek
    let key ← if t = .value ∨ ends t then
        drop
        pure (.plain "")
      else node false false fuel
    let v ← if ← drop? .value then nodeUnless ends false false fuel else pure (.plain "")
    return .record [(key, v)]

/-- The fields of a flow mapping up to its end; a field without a mark has no value. -/
def flowFields (first : Bool) : Nat → Reader (List (Value × Value))
  | 0 => failure
  | fuel + 1 => do
    if ← drop? .flowMappingEnd then return []
    if !first then expect .flowEntry
    if ← drop? .flowMappingEnd then return []
    let ends (t : Token) : Bool := t = .flowEntry ∨ t = .flowMappingEnd
    let field ← if ← drop? .key then
        let key ← nodeUnless (fun t => t = .value ∨ ends t) false false fuel
        let v ← if ← drop? .value then nodeUnless ends false false fuel else pure (.plain "")
        pure (key, v)
      else pure (← node false false fuel, .plain "")
    return field :: (← flowFields false fuel)

end

/-- The handles that every document has. -/
def standardHandles : List (String × String) := [("!", "!"), ("!!", "tag:yaml.org,2002:")]

/-- The lines in front of a document: at most one version, of 1.1 or 1.2, and each handle once. -/
def directives (versionSeen : Bool) (handles : List (String × String)) :
    List Token → Option (List (String × String) × List Token)
  | .version major minor :: rest =>
    if versionSeen || major != 1 || (minor != 1 && minor != 2) then none else directives true handles rest
  | .tagHandle handle front :: rest =>
    if (handles.lookup handle).isSome then none else directives versionSeen (handles ++ [(handle, front)]) rest
  | tokens => some (handles, tokens)

end Reader

/-- The document of a list of tokens and the tokens after it. A document without its mark has no lines in
front of it. -/
def document? (tokens : List Token) : Option (Value × List Token) := do
  let (handles, rest) ← Reader.directives false [] tokens
  let state (tokens : List Token) : Reading := ⟨tokens, handles ++ Reader.standardHandles, []⟩
  let read (tokens : List Token) : Option (Value × List Token) :=
    ((Reader.node true false (4 * tokens.length + 4)).run (state tokens)).map fun (v, r) => (v, r.tokens)
  match rest with
  | .documentStart :: more =>
    match more.headD .streamEnd with
    | .version _ _ | .tagHandle _ _ | .documentStart | .documentEnd | .streamEnd => some (.plain "", more)
    | _ => read more
  | _ => if rest.length = tokens.length then read tokens else none

/-- The value of a text that has at most one document. -/
def read? (s : String) : Option Value := do
  let tokens ← tokens? s
  if tokens = [.streamEnd] then return .plain ""
  let (v, rest) ← document? tokens
  if rest.dropWhile (· = .documentEnd) = [.streamEnd] then return v else none

end ScannedPage.Yaml
