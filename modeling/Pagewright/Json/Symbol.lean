/-
What a JSON document is read from.

A document is a list of symbols: characters, and bytes that are part of no character, which a file
may hold.  Positions count bytes.

* `Input.ofText`, `Input.ofBytes` — the symbols of a text and of the content of a file;
* `Position.after` — line and column after some bytes.
-/
namespace Pagewright.Json

/-- One symbol of a document. -/
inductive Symbol
  | char (c : Char)
  | stray (byte : UInt8)
  deriving DecidableEq, Repr, Inhabited

/-- The bytes of a symbol in UTF-8. -/
def Symbol.bytes : Symbol → List UInt8
  | .char c => String.utf8EncodeChar c
  | .stray byte => [byte]

/-- What is left to read of a document. -/
abbrev Input := List Symbol

namespace Input

/-- The symbols of a text. -/
def ofText (text : String) : Input :=
  text.toList.map .char

/-- The bytes of some symbols. -/
def bytes (input : Input) : List UInt8 :=
  input.flatMap Symbol.bytes

/-- The character that some bytes begin with, and its width. -/
def leadingChar? (bytes : List UInt8) : Option Char :=
  (ByteArray.mk (bytes.take 4).toArray).utf8DecodeChar? 0

/-- Cuts bytes into symbols; the first `skip` of them belong to a character already found. -/
def symbols : (skip : Nat) → List UInt8 → Input
  | _, [] => []
  | skip + 1, _ :: bytes => symbols skip bytes
  | 0, byte :: bytes =>
    match leadingChar? (byte :: bytes) with
    | some c => .char c :: symbols (c.utf8Size - 1) bytes
    | none => .stray byte :: symbols 0 bytes

/-- The symbols of the content of a file. -/
def ofBytes (content : ByteArray) : Input :=
  match String.fromUTF8? content with
  | some text => ofText text
  | none => symbols 0 content.toList

end Input

/-- A place in a document. -/
structure Position where
  line : Nat
  column : Nat
  deriving DecidableEq, Repr, Inhabited

namespace Position

/-- The place after one more byte; a line feed begins the next line. -/
def advance (position : Position) (byte : UInt8) : Position :=
  if byte = 10 then ⟨position.line + 1, 0⟩ else { position with column := position.column + 1 }

/-- The place after some bytes from the start of a document. -/
def after (bytes : List UInt8) : Position :=
  bytes.foldl advance ⟨1, 0⟩

end Position

end Pagewright.Json
