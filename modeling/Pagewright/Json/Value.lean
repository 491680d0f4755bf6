/-
JSON values and how they are written.

* `Value.compact` — without any space;
* `Value.pretty` — one entry to a line, two columns further in at every level; empty lists and
  objects stay on one line.

In a string, quotes, backslashes and control characters are escaped, and nothing else.
-/
namespace Pagewright.Json

/-- A JSON value; the keys of an object have an order. -/
inductive Value
  | null
  | boolean (value : Bool)
  | natural (value : Nat)
  | string (value : String)
  | list (values : List Value)
  | object (entries : List (String × Value))
  deriving Inhabited

/-- How a character is written in a string. -/
def escapeChar (c : Char) : List Char :=
  if c = '"' then ['\\', '"']
  else if c = '\\' then ['\\', '\\']
  else if c = '\x08' then ['\\', 'b']
  else if c = '\x0c' then ['\\', 'f']
  else if c = '\n' then ['\\', 'n']
  else if c = '\r' then ['\\', 'r']
  else if c = '\t' then ['\\', 't']
  else if c.toNat < 0x20 then
    ['\\', 'u', '0', '0', Nat.digitChar (c.toNat / 16), Nat.digitChar (c.toNat % 16)]
  else [c]

/-- How a string is written. -/
def quote (text : String) : String :=
  String.ofList ('"' :: text.toList.flatMap escapeChar ++ ['"'])

namespace Value

mutual

/-- A value without any space. -/
def compact : Value → String
  | .null => "null"
  | .boolean value => if value then "true" else "false"
  | .natural value => toString value
  | .string value => quote value
  | .list [] => "[]"
  | .list (value :: values) => "[" ++ value.compact ++ compactElements values
  | .object [] => "\x7b\x7d"
  | .object ((key, value) :: entries) =>
    "\x7b" ++ quote key ++ ":" ++ value.compact ++ compactEntries entries

/-- The elements after the first one, and the end of the list. -/
def compactElements : List Value → String
  | [] => "]"
  | value :: values => "," ++ value.compact ++ compactElements values

/-- The entries after the first one, and the end of the object. -/
def compactEntries : List (String × Value) → String
  | [] => "\x7d"
  | (key, value) :: entries =>
    "," ++ quote key ++ ":" ++ value.compact ++ compactEntries entries

end

/-- A new line at a level. -/
def newLine (level : Nat) : String :=
  String.ofList ('\n' :: List.replicate (2 * level) ' ')

mutual

/-- A value that stands at a level, one entry to a line. -/
def prettyAt (level : Nat) : Value → String
  | .null => "null"
  | .boolean value => if value then "true" else "false"
  | .natural value => toString value
  | .string value => quote value
  | .list [] => "[]"
  | .list (value :: values) =>
    "[" ++ newLine (level + 1) ++ value.prettyAt (level + 1) ++ prettyElements level values
  | .object [] => "\x7b\x7d"
  | .object ((key, value) :: entries) =>
    "\x7b" ++ newLine (level + 1) ++ quote key ++ ": " ++ value.prettyAt (level + 1)
      ++ prettyEntries level entries

/-- The elements after the first one, and the end of a list that stands at a level. -/
def prettyElements (level : Nat) : List Value → String
  | [] => newLine level ++ "]"
  | value :: values =>
    "," ++ newLine (level + 1) ++ value.prettyAt (level + 1) ++ prettyElements level values

/-- The entries after the first one, and the end of an object that stands at a level. -/
def prettyEntries (level : Nat) : List (String × Value) → String
  | [] => newLine level ++ "\x7d"
  | (key, value) :: entries =>
    "," ++ newLine (level + 1) ++ quote key ++ ": " ++ value.prettyAt (level + 1)
      ++ prettyEntries level entries

end

/-- A value with one entry to a line. -/
def pretty (value : Value) : String :=
  value.prettyAt 0

end Value

end Pagewright.Json
