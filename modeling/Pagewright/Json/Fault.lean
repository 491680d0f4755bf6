/-
What can be wrong with a JSON document.

* `Cause.message` — the wording of every cause;
* `Fault.locate` — the place that a fault reports, counted from the bytes read so far.  Reading
  from a file draws its bytes one by one, so a byte that was only looked at counts as well there,
  and does not count in a text that is held in memory.
-/
import Pagewright.Json.Symbol
import Pagewright.Text.Quoted

namespace Pagewright.Json

/-- What stands in a document in place of something else. -/
inductive Found
  | null
  | boolean (value : Bool)
  | integer (value : Int)
  | double (written : String)
  | string (value : String)
  | sequence
  | map
  deriving DecidableEq, Repr

/-- How what was found is named. -/
def Found.name : Found → String
  | .null => "null"
  | .boolean value => "boolean `" ++ (if value then "true" else "false") ++ "`"
  | .integer value => "integer `" ++ toString value ++ "`"
  | .double written => "floating point `" ++ written ++ "`"
  | .string value => "string " ++ Text.quoted value
  | .sequence => "sequence"
  | .map => "map"

/-- Why a document cannot be read. -/
inductive Cause
  | endInValue
  | endInString
  | endInList
  | endInObject
  | expectedValue
  | expectedIdent
  | expectedColon
  | expectedListCommaOrEnd
  | expectedObjectCommaOrEnd
  | invalidNumber
  | numberOutOfRange
  | invalidEscape
  | controlCharacter
  | loneSurrogate
  | endOfHexEscape
  | invalidCodePoint
  | keyMustBeString
  | trailingComma
  | trailingCharacters
  | recursionLimit
  | invalidType (found : Found) (expected : String)
  | invalidValue (found : Found) (expected : String)
  | missingField (key : String)
  | duplicateField (key : String)
  | invalidLength (length : Nat) (expected : String)
  deriving DecidableEq, Repr

/-- The wording of a cause. -/
def Cause.message : Cause → String
  | .endInValue => "EOF while parsing a value"
  | .endInString => "EOF while parsing a string"
  | .endInList => "EOF while parsing a list"
  | .endInObject => "EOF while parsing an object"
  | .expectedValue => "expected value"
  | .expectedIdent => "expected ident"
  | .expectedColon => "expected `:`"
  | .expectedListCommaOrEnd => "expected `,` or `]`"
  | .expectedObjectCommaOrEnd => "expected `,` or `\x7d`"
  | .invalidNumber => "invalid number"
  | .numberOutOfRange => "number out of range"
  | .invalidEscape => "invalid escape"
  | .controlCharacter => "control character (\\u0000-\\u001F) found while parsing a string"
  | .loneSurrogate => "lone leading surrogate in hex escape"
  | .endOfHexEscape => "unexpected end of hex escape"
  | .invalidCodePoint => "invalid unicode code point"
  | .keyMustBeString => "key must be a string"
  | .trailingComma => "trailing comma"
  | .trailingCharacters => "trailing characters"
  | .recursionLimit => "recursion limit exceeded"
  | .invalidType found expected => "invalid type: " ++ found.name ++ ", expected " ++ expected
  | .invalidValue found expected => "invalid value: " ++ found.name ++ ", expected " ++ expected
  | .missingField key => "missing field `" ++ key ++ "`"
  | .duplicateField key => "duplicate field `" ++ key ++ "`"
  | .invalidLength length expected =>
    "invalid length " ++ toString length ++ ", expected " ++ expected

/-- Where a fault lies, seen from the end of the symbols read. -/
inductive Reach
  /-- Some bytes further on, as far as there are any. -/
  | bytes (count : Nat)
  /-- Some bytes before it. -/
  | behind (count : Nat)
  /-- The next byte, which was looked at and left. -/
  | looked
  deriving DecidableEq, Repr

/-- A cause, and what was left to read when it arose. -/
structure Fault where
  cause : Cause
  rest : Input
  reach : Reach
  deriving DecidableEq, Repr

namespace Fault

/-- A fault right after what was read. -/
def here (cause : Cause) (rest : Input) : Fault := ⟨cause, rest, .bytes 0⟩

/-- A fault that counts the byte about to be read. -/
def next (cause : Cause) (rest : Input) : Fault := ⟨cause, rest, .bytes 1⟩

/-- A fault after what was read, the next byte having been looked at. -/
def looked (cause : Cause) (rest : Input) : Fault := ⟨cause, rest, .looked⟩

end Fault

/-- Where a document is held. -/
inductive Medium
  | memory
  | file
  deriving DecidableEq, Repr

/-- The number of bytes up to a fault, from the number of bytes read. -/
def Reach.place (medium : Medium) (read : Nat) : Reach → Nat
  | .bytes count => read + count
  | .behind count => read - count
  | .looked => match medium with
    | .memory => read
    | .file => read + 1

/-- A cause and its place in the document. -/
structure Diagnostic where
  cause : Cause
  position : Position
  deriving DecidableEq, Repr

/-- The wording of a diagnostic. -/
def Diagnostic.message (diagnostic : Diagnostic) : String :=
  diagnostic.cause.message ++ " at line " ++ toString diagnostic.position.line
    ++ " column " ++ toString diagnostic.position.column

/-- The diagnostic of a fault in a document. -/
def Fault.locate (medium : Medium) (document : Input) (fault : Fault) : Diagnostic :=
  let bytes := document.bytes
  let read := bytes.length - fault.rest.bytes.length
  ⟨fault.cause, Position.after (bytes.take (fault.reach.place medium read))⟩

end Pagewright.Json
