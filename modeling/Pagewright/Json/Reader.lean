/-
Readers of JSON documents.

A document is read straight into the value it stands for, and the first thing that does not fit is
reported at its place.

* `text`, `flag`, `natural32`, `optional` — values without parts;
* `list`, `map`, `record` — values with parts.  A record may be written as an object with its keys
  in any order, or as the list of its values;
* `document` — one value and nothing after it.

Brackets may be nested only so deep: a reader of a value with parts is given what reads its inside,
or nothing if no bracket may be opened any more.
-/
import Pagewright.Json.Skip
import Pagewright.OrderedMap

namespace Pagewright.Json

/-- Reads a value from the front of an input. -/
abbrev Reader (α : Type) := Input → Except Fault (α × Input)

/-- How deep brackets may be nested. -/
def depthLimit : Nat := 127

/-- What may stand inside a bracket, given how many brackets may be open. -/
def within (f : Nat → α) : Nat → Option α
  | 0 => none
  | depth + 1 => some (f depth)

/-- What is wrong with a value where something else was expected.  A value without parts is read
before it is reported. -/
def mismatch (expected : String) (input : Input) : Fault :=
  let word letters rest found := match readLetters letters rest with
    | .ok rest => Fault.here (.invalidType found expected) rest
    | .error fault => fault
  let number negative input := match readNumber negative input with
    | .ok (number, rest) => Fault.looked (.invalidType number.found expected) rest
    | .error fault => fault
  match input with
  | [] => .next .endInValue []
  | .char 'n' :: rest => word ['u', 'l', 'l'] rest .null
  | .char 't' :: rest => word ['r', 'u', 'e'] rest (.boolean true)
  | .char 'f' :: rest => word ['a', 'l', 's', 'e'] rest (.boolean false)
  | .char '-' :: rest => number true rest
  | .char '"' :: rest =>
    match readText rest with
    | .ok (text, rest) => .here (.invalidType (.string text) expected) rest
    | .error fault => fault
  | .char '[' :: _ => .looked (.invalidType .sequence expected) input
  | .char '{' :: _ => .looked (.invalidType .map expected) input
  | symbol :: _ =>
    if (digit? symbol).isSome then number false input else .next .expectedValue input

/-- Reads a string; `expected` is what a fault calls it. -/
def text (expected : String) : Reader String := fun input =>
  match dropBlanks input with
  | .char '"' :: rest => readText rest
  | input => .error (mismatch expected input)

/-- Reads a truth value. -/
def flag : Reader Bool := fun input =>
  match dropBlanks input with
  | .char 't' :: rest => (true, ·) <$> readLetters ['r', 'u', 'e'] rest
  | .char 'f' :: rest => (false, ·) <$> readLetters ['a', 'l', 's', 'e'] rest
  | input => .error (mismatch "a boolean" input)

/-- What a number gives where a natural number below `2 ^ 32` is expected. -/
def toNatural32 (number : Number) : Except Cause Nat :=
  match number with
  | .integer value =>
    if 0 ≤ value && value.toNat < UInt32.size then .ok value.toNat
    else .error (.invalidValue (.integer value) "u32")
  | .double _ => .error (.invalidType number.found "u32")

/-- Reads a natural number below `2 ^ 32`. -/
def natural32 : Reader Nat := fun input =>
  let number negative input := do
    let (number, rest) ← readNumber negative input
    match toNatural32 number with
    | .ok value => .ok (value, rest)
    | .error cause => .error (.looked cause rest)
  match dropBlanks input with
  | .char '-' :: rest => number true rest
  | symbol :: rest =>
    if (digit? symbol).isSome then number false (symbol :: rest)
    else .error (mismatch "u32" (symbol :: rest))
  | [] => .error (mismatch "u32" [])

/-- Reads a value or `null`. -/
def optional (item : Reader α) : Reader (Option α) := fun input =>
  match dropBlanks input with
  | .char 'n' :: rest => (none, ·) <$> readLetters ['u', 'l', 'l'] rest
  | input => do
    let (value, rest) ← item input
    return (some value, rest)

/-- What follows in a bracket: its end, or one more part. -/
inductive Following
  | finished (rest : Input)
  | more (rest : Input)

/-- Goes to the next element of a list. -/
def nextElement (first : Bool) (input : Input) : Except Fault Following :=
  match dropBlanks input with
  | [] => .error (.next .endInList [])
  | .char ']' :: rest => .ok (.finished rest)
  | symbol :: rest =>
    if first then .ok (.more (symbol :: rest))
    else if symbol = .char ',' then
      match dropBlanks rest with
      | [] => .error (.next .endInValue [])
      | .char ']' :: rest => .error (.next .trailingComma (.char ']' :: rest))
      | rest => .ok (.more rest)
    else .error (.next .expectedListCommaOrEnd (symbol :: rest))

/-- Goes to the next key of an object, and past the quote that opens it. -/
def nextKey (first : Bool) (input : Input) : Except Fault Following :=
  let key (input : Input) : Except Fault Following :=
    match input with
    | .char '"' :: rest => .ok (.more rest)
    | input => .error (.next .keyMustBeString input)
  match dropBlanks input with
  | [] => .error (.next .endInObject [])
  | .char '}' :: rest => .ok (.finished rest)
  | symbol :: rest =>
    if first then key (symbol :: rest)
    else if symbol = .char ',' then
      match dropBlanks rest with
      | [] => .error (.next .endInValue [])
      | .char '}' :: rest => .error (.next .trailingComma (.char '}' :: rest))
      | rest => key rest
    else .error (.next .expectedObjectCommaOrEnd (symbol :: rest))

/-- Reads the elements of a list up to its end.  Every element takes at least one symbol. -/
def readElements (item : Reader α) : (turns : Nat) → (first : Bool) → Reader (List α)
  | 0, _, input => .error (.next .endInList input)
  | turns + 1, first, input => do
    match ← nextElement first input with
    | .finished rest => return ([], rest)
    | .more input =>
      let (value, input) ← item input
      let (values, rest) ← readElements item turns false input
      return (value :: values, rest)

/-- Reads a list. -/
def list (item : Option (Reader α)) : Reader (List α) := fun input =>
  match dropBlanks input with
  | .char '[' :: rest =>
    match item with
    | some item => readElements item (rest.length + 1) true rest
    | none => .error (.next .recursionLimit (.char '[' :: rest))
  | input => .error (mismatch "a sequence" input)

/-- Reads the entries of a map up to its end. -/
def readEntries (item : Reader α) : (turns : Nat) → (first : Bool) → OrderedMap α →
    Reader (OrderedMap α)
  | 0, _, _, input => .error (.next .endInObject input)
  | turns + 1, first, entries, input => do
    match ← nextKey first input with
    | .finished rest => return (entries, rest)
    | .more input =>
      let (key, input) ← readText input
      let input ← readColon input
      let (value, input) ← item input
      readEntries item turns false (entries.insert key value) input

/-- Reads a map; a key that comes again takes its new value. -/
def map (item : Option (Reader α)) : Reader (OrderedMap α) := fun input =>
  match dropBlanks input with
  | .char '{' :: rest =>
    match item with
    | some item => readEntries item (rest.length + 1) true ∅ rest
    | none => .error (.next .recursionLimit (.char '{' :: rest))
  | input => .error (mismatch "a map" input)

/-- One field of a record: its key, and how a value that was read is put in place. -/
structure Slot (α : Type) where
  key : String
  required : Bool
  read : Reader (α → α)

/-- A field that has to be there. -/
def required (key : String) (item : Reader β) (set : β → α → α) : Slot α :=
  ⟨key, true, fun input => do
    let (value, rest) ← item input
    return (set value, rest)⟩

/-- A field that may be left out. -/
def optionalField (key : String) (item : Reader β) (set : β → α → α) : Slot α :=
  { required key item set with required := false }

/-- What is wrong after a key that came before: a brace that follows is still read. -/
def duplicateFault (key : String) (input : Input) : Fault :=
  match dropBlanks input with
  | .char '}' :: rest => .here (.duplicateField key) rest
  | input => .looked (.duplicateField key) input

/-- Reads the fields of a record from an object, up to its end. -/
def readFields (slots : List (Slot α)) : (turns : Nat) → (first : Bool) → (seen : List String) →
    α → Reader α
  | 0, _, _, _, input => .error (.next .endInObject input)
  | turns + 1, first, seen, value, input => do
    match ← nextKey first input with
    | .finished rest =>
      match slots.find? fun slot => slot.required && !seen.contains slot.key with
      | some slot => .error (.here (.missingField slot.key) rest)
      | none => return (value, rest)
    | .more input =>
      let (key, input) ← readText input
      match slots.find? (·.key = key) with
      | none =>
        let input ← readColon input
        let input ← skipValue input
        readFields slots turns false seen value input
      | some slot =>
        if seen.contains key then .error (duplicateFault key input)
        else
          let input ← readColon input
          let (set, input) ← slot.read input
          readFields slots turns false (key :: seen) (set value) input

/-- Reads the end of a list that has all its elements. -/
def readListEnd (input : Input) : Except Fault Input :=
  match dropBlanks input with
  | [] => .error (.next .endInList [])
  | .char ']' :: rest => .ok rest
  | .char ',' :: rest =>
    match dropBlanks rest with
    | .char ']' :: rest => .error (.next .trailingComma (.char ']' :: rest))
    | rest => .error (.next .trailingCharacters rest)
  | input => .error (.next .trailingCharacters input)

/-- The number of fields before the first one that has to be there. -/
def beforeRequired (slots : List (Slot α)) : Option Nat :=
  slots.findIdx? (·.required)

/-- Reads the fields of a record from a list, up to its end; `read` of them have been read. -/
def readValues (expected : String) : (slots : List (Slot α)) → (read : Nat) → α → Reader α
  | [], _, value, input => do
    let rest ← readListEnd input
    return (value, rest)
  | slot :: slots, read, value, input => do
    match ← nextElement (read == 0) input with
    | .finished rest =>
      match beforeRequired (slot :: slots) with
      | some further => .error (.here (.invalidLength (read + further) expected) rest)
      | none => return (value, rest)
    | .more input =>
      let (set, input) ← slot.read input
      readValues expected slots (read + 1) (set value) input

/-- How a record with some fields is named where it has too few of them. -/
def sizedName (name : String) (size : Nat) : String :=
  "struct " ++ name ++ " with " ++ toString size ++ (if size = 1 then " element" else " elements")

/-- Reads a record, starting from the value of all its fields that are left out. -/
def record (name : String) (empty : α) (slots : Option (List (Slot α))) : Reader α := fun input =>
  match dropBlanks input with
  | .char '{' :: rest =>
    match slots with
    | some slots => readFields slots (rest.length + 1) true [] empty rest
    | none => .error (.next .recursionLimit (.char '{' :: rest))
  | .char '[' :: rest =>
    match slots with
    | some slots => readValues (sizedName name slots.length) slots 0 empty rest
    | none => .error (.next .recursionLimit (.char '[' :: rest))
  | input => .error (mismatch ("struct " ++ name) input)

/-- Reads a document that holds one value. -/
def document (item : Reader α) (input : Input) : Except Fault α := do
  let (value, rest) ← item input
  match dropBlanks rest with
  | [] => return value
  | rest => .error (.next .trailingCharacters rest)

/-- Reads a document, and says where it is wrong. -/
def readDocument (item : Reader α) (medium : Medium) (input : Input) : Except Diagnostic α :=
  (document item input).mapError (Fault.locate medium input)

end Pagewright.Json
