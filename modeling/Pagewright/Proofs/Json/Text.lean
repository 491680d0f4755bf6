/-
Strings of a document are read as they were written.

* `readTextFrom_escapeChar` — one character, whether it is escaped or not;
* `readText_written` — a whole string, up to its closing quote.
-/
import Pagewright.Json.Text
import Pagewright.Json.Value

namespace Pagewright.Json

/-- The symbols of a string between its quotes. -/
def written (text : String) : Input :=
  (text.toList.flatMap escapeChar).map .char

theorem ofText_append (text text' : String) :
    Input.ofText (text ++ text') = Input.ofText text ++ Input.ofText text' := by
  rw [Input.ofText, String.toList_append, List.map_append]
  rfl

theorem ofText_quote (text : String) :
    Input.ofText (quote text) = .char '"' :: (written text ++ [.char '"']) := by
  rw [quote, Input.ofText, String.toList_ofList, List.map_append, List.map_cons]
  rfl

/-! ### One character -/

/-- A character is written with a letter that stands for it, with the four
digits of its number, or as it is. -/
theorem escapeChar_cases (c : Char) :
    (∃ letter, escapeChar c = ['\\', letter] ∧ letter ≠ 'u' ∧ escaped? letter = some c) ∨
    (c.toNat < 0x20 ∧ escapeChar c
      = ['\\', 'u', '0', '0', Nat.digitChar (c.toNat / 16), Nat.digitChar (c.toNat % 16)]) ∨
    (escapeChar c = [c] ∧ c ≠ '"' ∧ c ≠ '\\' ∧ ¬c.toNat < 0x20) := by
  rw [escapeChar]
  by_cases hquote : c = '"'
  · exact .inl ⟨'"', if_pos hquote, by decide, congrArg some hquote.symm⟩
  by_cases hslash : c = '\\'
  · rw [if_neg hquote]
    exact .inl ⟨'\\', if_pos hslash, by decide, congrArg some hslash.symm⟩
  rw [if_neg hquote, if_neg hslash]
  by_cases hb : c = '\x08'
  · exact .inl ⟨'b', if_pos hb, by decide, congrArg some hb.symm⟩
  by_cases hf : c = '\x0c'
  · rw [if_neg hb]
    exact .inl ⟨'f', if_pos hf, by decide, congrArg some hf.symm⟩
  rw [if_neg hb, if_neg hf]
  by_cases hn : c = '\n'
  · exact .inl ⟨'n', if_pos hn, by decide, congrArg some hn.symm⟩
  by_cases hr : c = '\r'
  · rw [if_neg hn]
    exact .inl ⟨'r', if_pos hr, by decide, congrArg some hr.symm⟩
  rw [if_neg hn, if_neg hr]
  by_cases ht : c = '\t'
  · exact .inl ⟨'t', if_pos ht, by decide, congrArg some ht.symm⟩
  rw [if_neg ht]
  by_cases hcontrol : c.toNat < 0x20
  · exact .inr (.inl ⟨hcontrol, if_pos hcontrol⟩)
  · exact .inr (.inr ⟨if_neg hcontrol, hquote, hslash, hcontrol⟩)

theorem hexDigit?_digitChar : ∀ n < 16, hexDigit? (.char (Nat.digitChar n)) = some n := by
  decide

section Steps

variable (read : List Char) (rest : Input)

theorem readTextFrom_plain {c : Char} (hquote : c ≠ '"') (hslash : c ≠ '\\')
    (hcontrol : ¬c.toNat < 0x20) :
    readTextFrom .plain read 0 (.char c :: rest) = readTextFrom .plain (c :: read) 0 rest := by
  rw [readTextFrom, if_neg hquote, if_neg hslash, if_neg hcontrol, countStray, if_pos rfl]

theorem readTextFrom_letter {letter c : Char} (hu : letter ≠ 'u') (h : escaped? letter = some c) :
    readTextFrom .escape read 0 (.char letter :: rest) = readTextFrom .plain (c :: read) 0 rest := by
  rw [readTextFrom, if_neg hu, h]
  dsimp only
  rw [countStray, if_pos rfl]

theorem readTextFrom_digit {symbol : Symbol} {digit : Nat} (start : Input) {digits : List Nat}
    (h : hexDigit? symbol = some digit) (hlength : digits.length < 3) :
    readTextFrom (.quad start digits none) read 0 (symbol :: rest)
      = readTextFrom (.quad start (digit :: digits) none) read 0 rest := by
  rw [readTextFrom, h]
  dsimp only
  rw [if_pos hlength]

theorem readTextFrom_lastDigit {symbol : Symbol} {digit : Nat} (start : Input) {digits : List Nat}
    {c : Char} (h : hexDigit? symbol = some digit) (hlength : ¬digits.length < 3)
    (hjoin : joinUnits none (hexValue (digit :: digits)) = .char c) :
    readTextFrom (.quad start digits none) read 0 (symbol :: rest)
      = readTextFrom .plain (c :: read) 0 rest := by
  rw [readTextFrom, h]
  dsimp only
  rw [if_neg hlength, hjoin]
  dsimp only
  rw [countStray, if_pos rfl]

/-- The four digits of a control character are read as its number. -/
theorem readTextFrom_digits {c : Char} (hc : c.toNat < 0x20) :
    readTextFrom .escape read 0
        (.char 'u' :: .char '0' :: .char '0' :: .char (Nat.digitChar (c.toNat / 16))
          :: .char (Nat.digitChar (c.toNat % 16)) :: rest)
      = readTextFrom .plain (c :: read) 0 rest := by
  have hzero : hexDigit? (.char '0') = some 0 := by decide
  have hhigh := hexDigit?_digitChar (c.toNat / 16) (by omega)
  have hlow := hexDigit?_digitChar (c.toNat % 16) (by omega)
  have hvalue : hexValue [c.toNat % 16, c.toNat / 16, 0, 0] = c.toNat := by
    simp only [hexValue]
    omega
  have hjoin : joinUnits none (hexValue [c.toNat % 16, c.toNat / 16, 0, 0]) = .char c := by
    rw [hvalue, joinUnits, if_neg (by simp; omega), if_neg (by simp; omega), Char.ofNat_toNat]
  have hlast : ¬[c.toNat / 16, 0, 0].length < 3 := Nat.lt_irrefl 3
  have hu (start : Input) : readTextFrom .escape read 0 (.char 'u' :: start)
      = readTextFrom (.quad start [] none) read 0 start := rfl
  rw [hu, readTextFrom_digit read _ _ hzero (by decide), readTextFrom_digit read _ _ hzero
    (by decide), readTextFrom_digit read _ _ hhigh (by decide),
    readTextFrom_lastDigit read _ _ hlow hlast hjoin]

/-- A character is read as it was written. -/
theorem readTextFrom_escapeChar (c : Char) :
    readTextFrom .plain read 0 ((escapeChar c).map .char ++ rest)
      = readTextFrom .plain (c :: read) 0 rest := by
  rcases escapeChar_cases c with ⟨letter, hform, hu, hletter⟩ | ⟨hcontrol, hform⟩ |
    ⟨hform, hquote, hslash, hcontrol⟩
  · rw [hform]
    exact readTextFrom_letter read rest hu hletter
  · rw [hform]
    exact readTextFrom_digits read rest hcontrol
  · rw [hform]
    exact readTextFrom_plain read rest hquote hslash hcontrol

end Steps

/-! ### Whole strings -/

theorem readTextFrom_written (rest : Input) : ∀ (text read : List Char),
    readTextFrom .plain read 0 ((text.flatMap escapeChar).map .char ++ .char '"' :: rest)
      = .ok (String.ofList (read.reverse ++ text), rest)
  | [], read => by
    rw [List.append_nil]
    rfl
  | c :: text, read => by
    rw [List.flatMap_cons, List.map_append, List.append_assoc, readTextFrom_escapeChar,
      readTextFrom_written rest text, List.reverse_cons, List.append_assoc, List.singleton_append]

/-- **A string is read as it was written.** -/
theorem readText_written (text : String) (rest : Input) :
    readText (written text ++ .char '"' :: rest) = .ok (text, rest) := by
  rw [readText, written, readTextFrom_written, List.reverse_nil, List.nil_append,
    String.ofList_toList]

end Pagewright.Json
