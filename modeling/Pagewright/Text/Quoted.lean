/-
The quoted form of a text, on one line and with every invisible character spelled out.

* `quoted` — double quotes around the text; quotes, backslashes, tabs, line feeds, carriage
  returns and NUL have an escape of their own, other unprintable characters show their code point.
-/
import Pagewright.Text.Unprintable

namespace Pagewright.Text

/-- How a character is written between quotes. -/
def escapeQuoted (c : Char) : List Char :=
  if c = '"' then ['\\', '"']
  else if c = '\\' then ['\\', '\\']
  else if c = '\t' then ['\\', 't']
  else if c = '\n' then ['\\', 'n']
  else if c = '\r' then ['\\', 'r']
  else if c = '\x00' then ['\\', '0']
  else if isUnprintable c then ['\\', 'u', '{'] ++ Nat.toDigits 16 c.toNat ++ ['}']
  else [c]

/-- The quoted form of a text. -/
def quoted (text : String) : String :=
  String.ofList ('"' :: text.toList.flatMap escapeQuoted ++ ['"'])

end Pagewright.Text
