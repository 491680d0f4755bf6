/-
Kotlin types and literals of fields.

* `typeName?` — the type of a field, if its kind has one;
* `initializer` — the text of a first value.  A string that has no quotes around it gets them, and
  whatever would end it or stand for something else is escaped.
-/
import Pagewright.Page.Basic

namespace Pagewright.Kotlin

/-- The type of a kind of field. -/
def typeName? : FieldKind → Option String
  | .number => some "Int"
  | .string => some "String"
  | .boolean => some "Boolean"
  | .unsupported _ => none

/-- Whether a text has quotes around it. -/
def isQuoted (text : List Char) : Bool :=
  2 ≤ text.length && text.head? == some '"' && text.getLast? == some '"'

/-- How a character is written in a string literal. -/
def escapeChar (c : Char) : List Char :=
  if c = '"' then ['\\', '"']
  else if c = '\\' then ['\\', '\\']
  else if c = '$' then ['\\', '$']
  else if c = '\n' then ['\\', 'n']
  else if c = '\r' then ['\\', 'r']
  else if c = '\t' then ['\\', 't']
  else [c]

/-- The string literal of a text. -/
def stringLiteral (text : List Char) : List Char :=
  '"' :: text.flatMap escapeChar ++ ['"']

/-- The first value of a field in source text. -/
def initializer (kind : FieldKind) (initial : String) : String :=
  if kind = .string && !isQuoted initial.toList then
    String.ofList (stringLiteral initial.toList)
  else initial

end Pagewright.Kotlin
