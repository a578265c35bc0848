import ScannedPage.Document.Plain

/-!
# Documents

A document is a tree of named and listed values. A format that does not tell words from numbers by
quotes gives a plain scalar, which keeps its spelling, so that a reader who asks for a text gets what
was written and one who asks for a number gets the number. A part that is well formed but has no
value, such as a number out of all ranges, is kept as unreadable: it does harm only to a reader who
looks at it.

There are two ways to look. The direct readers (`asBool?` and the like) know what they want and take
it from the spelling of a plain scalar, whatever its tag. `settle?` reads a whole part without knowing
what is wanted: plain scalars become what they mean, and a tag of its own is refused.
-/

namespace ScannedPage

/-- A document or a part of one. -/
inductive Value
  | null
  | bool (b : Bool)
  | int (i : Int)
  | float (x : Float)
  | text (s : String)
  | list (items : List Value)
  /-- Named values in order; names are values too, and a name may occur twice. -/
  | record (fields : List (Value × Value))
  /-- A scalar without quotes, by its spelling. -/
  | plain (spelling : String)
  /-- A value with a tag; tags of one's own begin with an exclamation mark. -/
  | tagged (tag : String) (value : Value)
  /-- Well formed, but without a value. -/
  | unreadable

/-- What a document format admits. -/
structure DocumentRules where
  /-- A list may stand for a record, with the values in the order of the names. -/
  positional : Bool
  /-- The greatest number of lists and records around a part that is read as a whole. -/
  deepest : Nat

namespace Value

/-- A record with texts as names. -/
def ofFields (fields : List (String × Value)) : Value := .record (fields.map fun (name, v) => (.text name, v))

/-- A floating-point number; there is no value for one that is not finite. -/
def ofFloat (x : Float) : Value := if x.isFinite then .float x else .null

/-- A whole number that 64 bits hold; one that only 128 bits hold has no value. -/
def ofInt? (i : Int) : Option Value :=
  if -Int.pow 2 63 ≤ i ∧ i < Int.pow 2 64 then some (.int i)
  else if -Int.pow 2 127 ≤ i ∧ i < Int.pow 2 128 then some .unreadable
  else none

/-- What a scalar without quotes means. -/
def ofPlain (s : String) : Value :=
  if Plain.isNull s then .null
  else match Plain.bool? s with
    | some b => .bool b
    | none =>
      match (Plain.int? s).bind ofInt? with
      | some v => v
      | none =>
        if Plain.paddedDigits s.toList then .text s
        else match Plain.float? s with
          | some x => .float x
          | none => .text s

/-- The tag of a type that every document knows. -/
def coreTag (name : String) : String := "tag:yaml.org,2002:" ++ name

/-- What a scalar with a tag means. A known type holds only what reads as it, and any other tag leaves a
text. -/
def ofTagged? (tag spelling : String) : Option Value :=
  if tag.startsWith "!" then none
  else if tag == coreTag "bool" then (Plain.bool? spelling).map .bool
  else if tag == coreTag "int" then (Plain.int? spelling).bind ofInt?
  else if tag == coreTag "float" then (Plain.float? spelling).map .float
  else if tag == coreTag "null" then if Plain.isNullWord spelling then some .null else none
  else some (.text spelling)

/-- The value unless it is unreadable. -/
def readable? : Value → Option Value
  | unreadable => none
  | v => some v

mutual

/-- The value as it is after all reading is done. -/
def settle? : Value → Option Value
  | null => some null
  | bool b => some (bool b)
  | int i => some (int i)
  | float x => some (float x)
  | text s => some (text s)
  | list items => (settleItems? items).map list
  | record fields => (settleFields? fields).map record
  | plain s => (ofPlain s).readable?
  | tagged tag (plain s) => (ofTagged? tag s).bind readable?
  | tagged tag (text s) => (ofTagged? tag s).bind readable?
  | tagged tag v => if tag.startsWith "!" then none else v.settle?
  | unreadable => none

/-- The settled values of a list. -/
def settleItems? : List Value → Option (List Value)
  | [] => some []
  | v :: rest => do return (← v.settle?) :: (← settleItems? rest)

/-- The settled names and values of a record. -/
def settleFields? : List (Value × Value) → Option (List (Value × Value))
  | [] => some []
  | (name, v) :: rest => do return (← name.settle?, ← v.settle?) :: (← settleFields? rest)

end

mutual

/-- The number of lists and records around the innermost part. -/
def depth : Value → Nat
  | list items => depthItems items + 1
  | record fields => depthFields fields + 1
  | tagged _ v => v.depth
  | null | bool _ | int _ | float _ | text _ | plain _ | unreadable => 0

/-- The greatest depth in a list. -/
def depthItems : List Value → Nat
  | [] => 0
  | v :: rest => max v.depth (depthItems rest)

/-- The greatest depth in a record. -/
def depthFields : List (Value × Value) → Nat
  | [] => 0
  | (name, v) :: rest => max (max name.depth v.depth) (depthFields rest)

end

/-- The value without its tag. -/
def untagged : Value → Value
  | tagged _ v => v
  | v => v

/-- A truth value. -/
def asBool? (v : Value) : Option Bool :=
  match v.untagged with
  | bool b => some b
  | plain s => Plain.bool? s
  | _ => none

/-- A whole number within bounds. -/
def asInt? (low high : Int) (v : Value) : Option Int :=
  let i? := match v.untagged with
    | int i => some i
    | plain s => Plain.int? s
    | _ => none
  i?.filter fun i => decide (low ≤ i ∧ i ≤ high)

/-- A natural number up to a bound; a spelling with a minus sign is none, not even that of zero. -/
def asNat? (high : Nat) (v : Value) : Option Nat :=
  let n? := match v.untagged with
    | int i => if 0 ≤ i then some i.toNat else none
    | plain s => Plain.nat? s
    | _ => none
  n?.filter fun n => decide (n ≤ high)

/-- A number; a whole number counts. -/
def asFloat? : Value → Option Float
  | float x => some x
  | int i => some (if i < 0 then -(-i).toNat.toUInt64.toFloat else i.toNat.toUInt64.toFloat)
  | _ => none

/-- A text; a plain scalar is its spelling. -/
def asText? (v : Value) : Option String :=
  match v.untagged with
  | text s => some s
  | plain s => some s
  | _ => none

/-- One of several words: a text, or the name or own tag of nothing. -/
def asWord? : Value → Option String
  | record [(text name, null)] => some name
  | tagged tag v =>
    if tag.startsWith "!" then
      match v with
      | plain s => if Plain.isNull s then some (String.ofList (tag.toList.drop 1)) else none
      | _ => none
    else v.asText?
  | v => v.asText?

/-- The items of a list; a plain scalar without any spelling is an empty list. -/
def asList? (v : Value) : Option (List Value) :=
  match v.untagged with
  | list items => some items
  | plain "" => some []
  | _ => none

/-- Which of the given names a name is, or some other; a natural number names by position. -/
def fieldName? (names : List String) (name : Value) : Option String :=
  match name with
  | int i => if 0 ≤ i then some (names.getD i.toNat "") else none
  | v => v.asText?

/-- The fields of a record by the texts of their names. -/
def namedFields? (names : List String) (fields : List (Value × Value)) : Option (List (String × Value)) :=
  fields.mapM fun (name, v) => (fieldName? names name).map fun name => (name, v)

/-- The value under a name, nothing if the name does not occur; a second occurrence is refused. -/
def lookup? (fields : List (String × Value)) (name : String) : Option (Option Value) :=
  match fields.filter (·.1 == name) with
  | [] => some none
  | [(_, v)] => some (some v)
  | _ => none

/-- The values of a record under the given names, in their order. Where records are also written by
position, a list gives the first of them; a plain scalar without any spelling gives none. -/
def slots? (positional : Bool) (names : List String) (v : Value) : Option (List (Option Value)) :=
  match v.untagged with
  | record fields => do names.mapM (lookup? (← namedFields? names fields))
  | list items =>
    if positional && decide (items.length ≤ names.length) then
      some (items.map some ++ List.replicate (names.length - items.length) none)
    else none
  | plain "" => some (names.map fun _ => none)
  | _ => none

/-- A value within 32 bits with a sign. -/
def asInt32? : Value → Option Int := asInt? (-2147483648) 2147483647

/-- A value within 32 bits without a sign. -/
def asNat32? : Value → Option Nat := asNat? 4294967295

/-- A value within 8 bits without a sign. -/
def asNat8? : Value → Option Nat := asNat? 255

/-- A value that may be missing, with what it then counts as. -/
def orDefault? {α : Type} (decode : Value → Option α) (default : α) : Option Value → Option α
  | none => some default
  | some v => decode v

/-- A value that must not be missing. -/
def required? {α : Type} (decode : Value → Option α) : Option Value → Option α
  | none => none
  | some v => decode v

/-- A value that may be null. The tag of nothing admits a spelling of nothing only. -/
def nullable? {α : Type} (decode : Value → Option α) : Value → Option (Option α)
  | null => some none
  | plain s => if Plain.isNull s then some none else (decode (.plain s)).map some
  | tagged tag (plain s) =>
    if tag == coreTag "null" then if Plain.isNullWord s then some none else none
    else if Plain.isNull s then some none
    else (decode (.tagged tag (.plain s))).map some
  | v => (decode v).map some

/-- A tagged choice: the word under a name and the settled remainder of the record, or the first item of a
list and its settled remainder. The word has to occur once. -/
def choice? (name : String) (v : Value) : Option (String × Value) :=
  match v with
  | tagged tag (record fields) => if tag.startsWith "!" then none else choiceOfFields fields
  | tagged tag (list items) => if tag.startsWith "!" then none else choiceOfItems items
  | record fields => choiceOfFields fields
  | list items => choiceOfItems items
  | _ => none
where
  /-- The word among the fields and the others. -/
  choiceOfFields (fields : List (Value × Value)) : Option (String × Value) := do
    let names ← fields.mapM fun (key, v) => return (← key.settle?, v)
    let isWord (key : Value) : Bool := match key with
      | text s => s == name
      | _ => false
    match names.partition fun (key, _) => isWord key with
    | ([(_, word)], rest) => return (← word.asText?, .record (← settleFields? rest))
    | _ => none
  /-- The word in front and the others. -/
  choiceOfItems : List Value → Option (String × Value)
    | word :: rest => do return (← word.asText?, .list (← settleItems? rest))
    | [] => none

end Value

end ScannedPage
