/-
Numbers of a JSON document.

A number without a point or an exponent is an integer if 64 bits hold it; every other one is a
double.  The digits of a double beyond 64 bits are counted, not read.

* `readNumber` — reads a number after its sign;
* `skipNumber` — checks the form of a number that nobody asks for.
-/
import Pagewright.Json.Double
import Pagewright.Json.Fault

namespace Pagewright.Json

/-- A number as it was written. -/
inductive Number
  | integer (value : Int)
  | double (value : Float)

/-- What a number is where something else was expected. -/
def Number.found : Number → Found
  | .integer value => .integer value
  | .double value => .double (Double.text value)

/-- The value of a decimal digit. -/
def digit? : Symbol → Option Nat
  | .char c => if c.isDigit then some (c.toNat - '0'.toNat) else none
  | .stray _ => none

/-- The digits that an input begins with. -/
def leadingDigits (input : Input) : List Nat :=
  (input.takeWhile fun symbol => (digit? symbol).isSome).filterMap digit?

/-- The input after the digits that it begins with. -/
def dropDigits (input : Input) : Input :=
  input.dropWhile fun symbol => (digit? symbol).isSome

/-- Adds digits to a significand while it fits 64 bits; yields the digits left over. -/
def appendDigits (significand : Nat) : List Nat → Nat × List Nat
  | [] => (significand, [])
  | digit :: digits =>
    let longer := 10 * significand + digit
    if longer < UInt64.size then appendDigits longer digits else (significand, digit :: digits)

/-- The double of a significand and an exponent, at the place of `rest`. -/
def readDouble (negative : Bool) (significand : Nat) (exponent : Int) (rest : Input) :
    Except Fault (Number × Input) :=
  match Double.ofDecimal? negative significand exponent with
  | some value => .ok (.double value, rest)
  | none => .error (.looked .numberOutOfRange rest)

/-- The value of the digits of an exponent, or the number of digits after which it is beyond 32
bits. -/
def exponentValue (value read : Nat) : List Nat → Except Nat Nat
  | [] => .ok value
  | digit :: digits =>
    let longer := 10 * value + digit
    if longer < 0x80000000 then exponentValue longer (read + 1) digits else .error (read + 1)

/-- Reads an exponent after its letter, and the number that it ends. -/
def readExponent (negative : Bool) (significand : Nat) (scale : Int) (input : Input) :
    Except Fault (Number × Input) :=
  let (down, input) := match input with
    | .char '+' :: rest => (false, rest)
    | .char '-' :: rest => (true, rest)
    | input => (false, input)
  match input with
  | [] => .error (.here .endInValue [])
  | symbol :: _ =>
    if (digit? symbol).isNone then .error (.next .invalidNumber input)
    else match exponentValue 0 0 (leadingDigits input) with
      | .ok value =>
        readDouble negative significand (if down then scale - value else scale + value)
          (dropDigits input)
      | .error read =>
        if significand ≠ 0 && !down then .error (.here .numberOutOfRange (input.drop read))
        else .ok (.double (if negative then -0.0 else 0.0), dropDigits input)

/-- Reads the places after a point, and the number that they are part of. -/
def readPlaces (negative : Bool) (significand : Nat) (scale : Nat) (input : Input) :
    Except Fault (Number × Input) :=
  let places := leadingDigits input
  let rest := dropDigits input
  if places.isEmpty then
    .error (.next (if input.isEmpty then .endInValue else .invalidNumber) input)
  else
    let (significand, left) := appendDigits significand places
    let scale : Int := scale - (places.length - left.length : Nat)
    match rest with
    | .char 'e' :: rest => readExponent negative significand scale rest
    | .char 'E' :: rest => readExponent negative significand scale rest
    | rest => readDouble negative significand scale rest

/-- Reads what follows the digits before the point, `left` of which do not fit 64 bits. -/
def readAfterWhole (negative : Bool) (significand left : Nat) (input : Input) :
    Except Fault (Number × Input) :=
  match input with
  | .char '.' :: rest => readPlaces negative significand left rest
  | .char 'e' :: rest => readExponent negative significand left rest
  | .char 'E' :: rest => readExponent negative significand left rest
  | rest =>
    if left ≠ 0 then readDouble negative significand left rest
    else if !negative then .ok (.integer significand, rest)
    else if significand ≠ 0 && significand ≤ 0x8000000000000000 then .ok (.integer (-significand), rest)
    else readDouble true significand 0 rest

/-- Reads a number after its sign. -/
def readNumber (negative : Bool) (input : Input) : Except Fault (Number × Input) :=
  match input with
  | [] => .error (.here .endInValue [])
  | symbol :: rest =>
    match digit? symbol with
    | none => .error (.next .invalidNumber input)
    | some 0 =>
      if (leadingDigits rest).isEmpty then readAfterWhole negative 0 0 rest
      else .error (.next .invalidNumber rest)
    | some _ =>
      let (significand, left) := appendDigits 0 (leadingDigits input)
      readAfterWhole negative significand left.length (dropDigits input)

/-- Skips an exponent after its letter. -/
def skipExponent (input : Input) : Except Fault Input :=
  let input := match input with
    | .char '+' :: rest => rest
    | .char '-' :: rest => rest
    | input => input
  if (leadingDigits input).isEmpty then .error (.next .invalidNumber input)
  else .ok (dropDigits input)

/-- Skips the places after a point and an exponent. -/
def skipPlaces (input : Input) : Except Fault Input :=
  if (leadingDigits input).isEmpty then .error (.next .invalidNumber input)
  else match dropDigits input with
    | .char 'e' :: rest => skipExponent rest
    | .char 'E' :: rest => skipExponent rest
    | rest => .ok rest

/-- Skips what follows the digits before the point. -/
def skipAfterWhole (input : Input) : Except Fault Input :=
  match input with
  | .char '.' :: rest => skipPlaces rest
  | .char 'e' :: rest => skipExponent rest
  | .char 'E' :: rest => skipExponent rest
  | rest => .ok rest

/-- Skips a number after its sign. -/
def skipNumber (input : Input) : Except Fault Input :=
  match input with
  | [] => .error (.next .invalidNumber [])
  | symbol :: rest =>
    match digit? symbol with
    | none => .error (.next .invalidNumber input)
    | some 0 =>
      if (leadingDigits rest).isEmpty then skipAfterWhole rest
      else .error (.next .invalidNumber rest)
    | some _ => skipAfterWhole (dropDigits input)

end Pagewright.Json
