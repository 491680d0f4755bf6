/-
Double-precision numbers: from decimal digits, and back to the shortest digits.

* `Double.ofDecimal?` — a significand scaled by a power of ten in floating-point steps: one
  multiplication or division by an exact or nearest power of ten, and one division by `10 ^ 308`
  for every 308 places below that.  It has no result where the number is too large;
* `Double.shortest` — of the decimals that read back as the number, one with the coarsest last
  digit and, among those, the nearest one, or the one with an even digit if two are equally near;
* `Double.text` — positional from `10 ^ -5` up to below `10 ^ 16`, with an exponent elsewhere.
-/
namespace Pagewright.Json.Double

/-- The power of ten nearest to which a double lies. -/
def powerOfTen (exponent : Nat) : Float :=
  Float.ofScientific 1 false exponent

/-- Division by a power of ten. -/
def divideByPower (value : Float) (exponent : Nat) : Float :=
  if exponent ≤ 308 then value / powerOfTen exponent
  else if value == 0 then value
  else divideByPower (value / powerOfTen 308) (exponent - 308)
termination_by exponent

/-- Multiplication by a power of ten, where the result is finite. -/
def multiplyByPower? (value : Float) (exponent : Nat) : Option Float :=
  if exponent ≤ 308 then
    let product := value * powerOfTen exponent
    if product.isInf then none else some product
  else if value == 0 then some value
  else none

/-- The number `significand * 10 ^ exponent`, where it is not too large. -/
def ofDecimal? (negative : Bool) (significand : Nat) (exponent : Int) : Option Float :=
  let value := (UInt64.ofNat significand).toFloat
  let magnitude := if exponent < 0 then some (divideByPower value exponent.natAbs)
    else multiplyByPower? value exponent.natAbs
  magnitude.map fun value => if negative then -value else value

/-- The bits of a double are a sign, an exponent below `2 ^ 11` and a fraction below this. -/
def fractionSize : Nat := 0x10000000000000

/-- The decimals that read back as a positive number, in units of `2 ^ scale`. -/
structure Interval where
  low : Nat
  middle : Nat
  high : Nat
  scale : Int
  /-- Whether the ends read back as well. -/
  closed : Bool

/-- The interval of a positive number, from its fraction and exponent bits. -/
def interval (fraction exponent : Nat) : Interval :=
  let significand := if exponent = 0 then fraction else fraction + fractionSize
  ⟨4 * significand - (if fraction = 0 && exponent > 1 then 1 else 2), 4 * significand,
    4 * significand + 2, (Nat.max exponent 1 : Int) - 1077, significand % 2 = 0⟩

namespace Interval

/-- Whether `count * unit` lies in the interval, all in units of one over `part`. -/
def holds (interval : Interval) (part unit count : Nat) : Bool :=
  let value := count * unit
  if interval.closed then interval.low * part ≤ value && value ≤ interval.high * part
  else interval.low * part < value && value < interval.high * part

/-- The multiple of `10 ^ place` in the interval that is nearest to the middle. -/
def multiple? (interval : Interval) (place : Int) : Option Nat :=
  let unit := Nat.pow 10 place.toNat * Nat.pow 2 (-interval.scale).toNat
  let part := Nat.pow 10 (-place).toNat * Nat.pow 2 interval.scale.toNat
  let below := interval.middle * part / unit
  let above := below + 1
  match interval.holds part unit below, interval.holds part unit above with
  | true, true =>
    let down := interval.middle * part - below * unit
    let up := above * unit - interval.middle * part
    if down < up || (down = up && below % 2 = 0) then some below else some above
  | true, false => some below
  | false, true => some above
  | false, false => none

/-- The digits and the place of the last digit, from some place downwards. -/
def digits (interval : Interval) : (places : Nat) → Int → Nat × Int
  | 0, place => (0, place)
  | places + 1, place =>
    match interval.multiple? place with
    | some digits => (digits, place)
    | none => interval.digits places (place - 1)

end Interval

/-- The shortest digits of a positive number, and the place of the last one. -/
def shortest (bits : Nat) : Nat × Int :=
  (interval (bits % fractionSize) (bits / fractionSize)).digits 640 309

/-- Digits written with a point after `whole` of them. -/
def positional (digits : List Char) (whole : Int) : List Char :=
  if whole ≤ 0 then ['0', '.'] ++ List.replicate whole.natAbs '0' ++ digits
  else
    let padded := digits ++ List.replicate (whole.toNat - digits.length) '0'
    let places := padded.drop whole.toNat
    padded.take whole.toNat ++ ['.'] ++ (if places.isEmpty then ['0'] else places)

/-- Digits written with a point after the first one and an exponent. -/
def scientific (digits : List Char) (exponent : Int) : List Char :=
  digits.take 1 ++ (if digits.length > 1 then '.' :: digits.drop 1 else [])
    ++ ['e', if exponent < 0 then '-' else '+'] ++ Nat.toDigits 10 exponent.natAbs

/-- How a finite number is written. -/
def text (value : Float) : String :=
  let bits := value.toBits.toNat
  let size := 0x800 * fractionSize
  let sign := if bits < size then "" else "-"
  let bits := bits % size
  if bits = 0 then sign ++ "0.0"
  else
    let (significand, place) := shortest bits
    let digits := Nat.toDigits 10 significand
    let exponent := place + digits.length - 1
    let written := if -5 ≤ exponent && exponent ≤ 15 then positional digits (exponent + 1)
      else scientific digits exponent
    sign ++ String.ofList written

end Pagewright.Json.Double
