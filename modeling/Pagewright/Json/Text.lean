/-
Strings of a JSON document.

* `readText` — reads the text between two quotes, the first of which has been read;
* `skipText` — checks the form of a text that nobody asks for; there, an escape may name half of a
  surrogate pair.

An escape `\u` takes four bytes, whatever they are, before it looks at them (`quadFault`).

Whether a text is made of characters is asked at its closing quote (`finishText`).  The fault lies
as many bytes before the end of the quote as the text has from the first stray byte on, with its
escapes replaced; so it is that byte's own place unless an escape follows it.
-/
import Pagewright.Json.Fault

namespace Pagewright.Json

/-- The value of a hexadecimal digit. -/
def hexDigit? : Symbol → Option Nat
  | .char c =>
    if c.isDigit then some (c.toNat - '0'.toNat)
    else if 'a' ≤ c && c ≤ 'f' then some (c.toNat - 'a'.toNat + 10)
    else if 'A' ≤ c && c ≤ 'F' then some (c.toNat - 'A'.toNat + 10)
    else none
  | .stray _ => none

/-- What is wrong where four hexadecimal digits should begin. -/
def quadFault (start : Input) : Fault :=
  if (Input.bytes (start.take 4)).length < 4 then .here .endInString []
  else ⟨.invalidEscape, start, .bytes 4⟩

/-- The character of a one-letter escape. -/
def escaped? : Char → Option Char
  | '"' => some '"'
  | '\\' => some '\\'
  | '/' => some '/'
  | 'b' => some '\x08'
  | 'f' => some '\x0c'
  | 'n' => some '\n'
  | 'r' => some '\r'
  | 't' => some '\t'
  | _ => none

/-- Where the reading of a text stands. -/
inductive TextState
  /-- Between characters. -/
  | plain
  /-- After a backslash. -/
  | escape
  /-- Inside the four digits that begin at `start`; `lead` is the first half of a pair. -/
  | quad (start : Input) (digits : List Nat) (lead : Option Nat)
  /-- After the first half of a pair. -/
  | lead (unit : Nat)
  /-- After the first half of a pair and a backslash. -/
  | leadEscape (unit : Nat)

/-- The number that hexadecimal digits write, the last digit first. -/
def hexValue : List Nat → Nat
  | [] => 0
  | digit :: digits => digit + 16 * hexValue digits

/-- What four hexadecimal digits stand for: a character, or the first half of a pair. -/
inductive Unit16
  | char (c : Char)
  | lead (unit : Nat)
  | lone

/-- Joins a code unit to the first half of a pair, if there is one. -/
def joinUnits (lead : Option Nat) (unit : Nat) : Unit16 :=
  match lead with
  | some lead =>
    if 0xDC00 ≤ unit && unit < 0xE000 then
      .char (Char.ofNat (0x10000 + 0x400 * (lead - 0xD800) + (unit - 0xDC00)))
    else .lone
  | none =>
    if 0xD800 ≤ unit && unit < 0xDC00 then .lead unit
    else if 0xDC00 ≤ unit && unit < 0xE000 then .lone
    else .char (Char.ofNat unit)

/-- The bytes of a text from its first stray byte on, counted over one more character. -/
def countStray (stray : Nat) (c : Char) : Nat :=
  if stray = 0 then 0 else stray + c.utf8Size

/-- What a text is at its closing quote, from its characters in reverse. -/
def finishText (read : List Char) (stray : Nat) (rest : Input) : Except Fault (String × Input) :=
  if stray = 0 then .ok (String.ofList read.reverse, rest)
  else .error ⟨.invalidCodePoint, rest, .behind stray⟩

/-- Reads on in a text.  `read` holds its characters so far, in reverse, and `stray` the number of
its bytes from the first stray one on. -/
def readTextFrom (state : TextState) (read : List Char) (stray : Nat) :
    Input → Except Fault (String × Input)
  | [] =>
    match state with
    | .quad start _ _ => .error (quadFault start)
    | _ => .error (.here .endInString [])
  | symbol :: rest =>
    match state with
    | .plain =>
      match symbol with
      | .stray _ => readTextFrom .plain read (stray + 1) rest
      | .char c =>
        if c = '"' then finishText read stray rest
        else if c = '\\' then readTextFrom .escape read stray rest
        else if c.toNat < 0x20 then .error (.here .controlCharacter rest)
        else readTextFrom .plain (c :: read) (countStray stray c) rest
    | .escape =>
      match symbol with
      | .stray _ => .error (.next .invalidEscape (symbol :: rest))
      | .char c =>
        if c = 'u' then readTextFrom (.quad rest [] none) read stray rest
        else match escaped? c with
          | some c => readTextFrom .plain (c :: read) (countStray stray c) rest
          | none => .error (.next .invalidEscape (symbol :: rest))
    | .quad start digits lead =>
      match hexDigit? symbol with
      | none => .error (quadFault start)
      | some digit =>
        if digits.length < 3 then readTextFrom (.quad start (digit :: digits) lead) read stray rest
        else match joinUnits lead (hexValue (digit :: digits)) with
          | .char c => readTextFrom .plain (c :: read) (countStray stray c) rest
          | .lead unit => readTextFrom (.lead unit) read stray rest
          | .lone => .error (.here .loneSurrogate rest)
    | .lead unit =>
      if symbol = .char '\\' then readTextFrom (.leadEscape unit) read stray rest
      else .error (.next .endOfHexEscape (symbol :: rest))
    | .leadEscape unit =>
      if symbol = .char 'u' then readTextFrom (.quad rest [] (some unit)) read stray rest
      else .error (.next .endOfHexEscape (symbol :: rest))

/-- Reads a text after its opening quote. -/
def readText (input : Input) : Except Fault (String × Input) :=
  readTextFrom .plain [] 0 input

/-- Skips on in a text.  A control character is looked at, not taken. -/
def skipTextFrom (state : TextState) : Input → Except Fault Input
  | [] =>
    match state with
    | .quad start _ _ => .error (quadFault start)
    | _ => .error (.here .endInString [])
  | symbol :: rest =>
    match state with
    | .quad start digits lead =>
      match hexDigit? symbol with
      | none => .error (quadFault start)
      | some digit =>
        if digits.length < 3 then skipTextFrom (.quad start (digit :: digits) lead) rest
        else skipTextFrom .plain rest
    | .escape =>
      match symbol with
      | .stray _ => .error (.next .invalidEscape (symbol :: rest))
      | .char c =>
        if c = 'u' then skipTextFrom (.quad rest [] none) rest
        else if (escaped? c).isSome then skipTextFrom .plain rest
        else .error (.next .invalidEscape (symbol :: rest))
    | _ =>
      match symbol with
      | .stray _ => skipTextFrom .plain rest
      | .char c =>
        if c = '"' then .ok rest
        else if c = '\\' then skipTextFrom .escape rest
        else if c.toNat < 0x20 then .error (.looked .controlCharacter (symbol :: rest))
        else skipTextFrom .plain rest

/-- Skips a text after its opening quote. -/
def skipText (input : Input) : Except Fault Input :=
  skipTextFrom .plain input

end Pagewright.Json
