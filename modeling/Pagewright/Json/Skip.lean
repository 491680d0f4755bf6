/-
Values that nobody asks for.

* `skipValue` — checks the form of a value and yields what follows it.

Brackets are kept in a list of those still open, so that no depth is too great.
-/
import Pagewright.Json.Number
import Pagewright.Json.Text

namespace Pagewright.Json

/-- White space between the parts of a document. -/
def isBlankSymbol (symbol : Symbol) : Bool :=
  symbol == .char ' ' || symbol == .char '\n' || symbol == .char '\t' || symbol == .char '\r'

/-- The input after the white space that it begins with. -/
def dropBlanks (input : Input) : Input :=
  input.dropWhile isBlankSymbol

/-- Reads the letters that a word goes on with. -/
def readLetters : List Char → Input → Except Fault Input
  | [], input => .ok input
  | _ :: _, [] => .error (.here .endInValue [])
  | letter :: letters, symbol :: rest =>
    if symbol = .char letter then readLetters letters rest
    else .error (.next .expectedIdent (symbol :: rest))

/-- Skips the colon after a key. -/
def readColon (input : Input) : Except Fault Input :=
  match dropBlanks input with
  | .char ':' :: rest => .ok rest
  | [] => .error (.next .endInObject [])
  | input => .error (.next .expectedColon input)

/-- A bracket that has been opened. -/
inductive Bracket
  | list
  | object
  deriving DecidableEq, Repr

namespace Bracket

/-- The character that closes a bracket. -/
def closing : Bracket → Char
  | .list => ']'
  | .object => '}'

/-- What is wrong where a document ends inside a bracket. -/
def endCause : Bracket → Cause
  | .list => .endInList
  | .object => .endInObject

/-- What is wrong where neither a comma nor the closing character follows a value. -/
def commaCause : Bracket → Cause
  | .list => .expectedListCommaOrEnd
  | .object => .expectedObjectCommaOrEnd

end Bracket

/-- Skips the key and the colon in front of a value of an object. -/
def skipKey : Bracket → Input → Except Fault Input
  | .list, input => .ok input
  | .object, input =>
    match dropBlanks input with
    | .char '"' :: rest => skipText rest >>= readColon
    | [] => .error (.next .endInObject [])
    | input => .error (.next .keyMustBeString input)

/-- What has been skipped of a value: a bracket was opened, or a whole value was passed. -/
inductive Skipped
  | opened (bracket : Bracket) (rest : Input)
  | passed (rest : Input)

/-- Skips a value without parts, or an opening bracket. -/
def skipStart (input : Input) : Except Fault Skipped :=
  match dropBlanks input with
  | [] => .error (.next .endInValue [])
  | .char 'n' :: rest => .passed <$> readLetters ['u', 'l', 'l'] rest
  | .char 't' :: rest => .passed <$> readLetters ['r', 'u', 'e'] rest
  | .char 'f' :: rest => .passed <$> readLetters ['a', 'l', 's', 'e'] rest
  | .char '-' :: rest => .passed <$> skipNumber rest
  | .char '"' :: rest => .passed <$> skipText rest
  | .char '[' :: rest => .ok (.opened .list rest)
  | .char '{' :: rest => .ok (.opened .object rest)
  | symbol :: rest =>
    if (digit? symbol).isSome then .passed <$> skipNumber (symbol :: rest)
    else .error (.next .expectedValue (symbol :: rest))

/-- Closes brackets, the innermost first, until a comma or a first value follows.  Yields the
brackets that stay open and what follows; none stays open when the whole value is over. -/
def closeBrackets (afterValue : Bool) : List Bracket → Input →
    Except Fault (List Bracket × Input)
  | [], input => .ok ([], input)
  | bracket :: outer, input =>
    match dropBlanks input with
    | [] => .error (.next bracket.endCause [])
    | symbol :: rest =>
      if symbol = .char ',' && afterValue then .ok (bracket :: outer, rest)
      else if symbol = .char bracket.closing then closeBrackets true outer rest
      else if afterValue then .error (.next bracket.commaCause (symbol :: rest))
      else .ok (bracket :: outer, symbol :: rest)

/-- Skips a value inside some open brackets and everything up to their end.  Every turn takes at
least one symbol, so as many turns as there are symbols are enough. -/
def skipWithin : (turns : Nat) → List Bracket → Input → Except Fault Input
  | 0, _, input => .error (.next .endInValue input)
  | turns + 1, brackets, input => do
    let (afterValue, brackets, input) ← match ← skipStart input with
      | .passed rest => pure (true, brackets, rest)
      | .opened bracket rest => pure (false, bracket :: brackets, rest)
    match ← closeBrackets afterValue brackets input with
    | ([], rest) => .ok rest
    | (bracket :: outer, rest) => skipKey bracket rest >>= skipWithin turns (bracket :: outer)

/-- Skips a value. -/
def skipValue (input : Input) : Except Fault Input :=
  skipWithin (input.length + 1) [] input

end Pagewright.Json
