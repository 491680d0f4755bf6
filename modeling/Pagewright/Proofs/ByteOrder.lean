/-
Texts in the order of their bytes.

Texts are compared character by character, and their bytes in UTF-8 come in the
same order.  A character is its code point in digits to the base 64, the highest
in front; the first byte also tells how many there are, and grows with that
number.

* `digits_before` — numbers with the same number of digits;
* `encodeChar_before` — any two characters;
* `lt_iff_bytes_lt` — any two texts.
-/
import Mathlib.Tactic.SplitIfs

namespace Pagewright.Utf8

/-- The bytes of a text. -/
def bytes (text : String) : List UInt8 :=
  text.toUTF8.data.toList

theorem bytes_eq_flatMap (text : String) :
    bytes text = text.toList.flatMap String.utf8EncodeChar := by
  rw [bytes, String.toUTF8_eq_toByteArray, ← String.utf8Encode_toList, List.utf8Encode,
    List.data_toByteArray]

/-- Bytes come before others, whatever follows them. -/
def Before (front front' : List UInt8) : Prop :=
  ∀ rest rest', front ++ rest < front' ++ rest'

theorem before_cons {m n : Nat} (hlt : m < n) (hn : n < 256) (front front' : List UInt8) :
    Before (UInt8.ofNat m :: front) (UInt8.ofNat n :: front') := by
  intro rest rest'
  rw [List.cons_append, List.cons_append, List.cons_lt_cons_iff]
  left
  rw [UInt8.lt_iff_toNat_lt, UInt8.toNat_ofNat_of_lt' (Nat.lt_trans hlt hn),
    UInt8.toNat_ofNat_of_lt' hn]
  exact hlt

/-! ### Numbers -/

/-- What is left of a number in front of some digits to the base 64. -/
def leading : (places : Nat) → Nat → Nat
  | 0, n => n
  | places + 1, n => leading places (n / 64)

/-- A number as a first byte, which is marked, and some digits to the base 64. -/
def digits (mark : Nat) : (places : Nat) → Nat → List UInt8
  | 0, n => [UInt8.ofNat (n + mark)]
  | places + 1, n => digits mark places (n / 64) ++ [UInt8.ofNat (n % 64 + 0x80)]

theorem digits_eq_cons (mark : Nat) : ∀ places n : Nat,
    ∃ rest, digits mark places n = UInt8.ofNat (leading places n + mark) :: rest
  | 0, n => ⟨[], rfl⟩
  | places + 1, n => by
    obtain ⟨rest, hrest⟩ := digits_eq_cons mark places (n / 64)
    refine ⟨rest ++ [UInt8.ofNat (n % 64 + 0x80)], ?_⟩
    rw [digits, hrest, leading, List.cons_append]

/-- Numbers with the same number of digits have their bytes in their own order. -/
theorem digits_before {mark : Nat} : ∀ {places m n : Nat}, leading places n + mark < 256 →
    m < n → Before (digits mark places m) (digits mark places n)
  | 0, m, n, hn, hlt => by
    have hfirst : n + mark < 256 := hn
    exact before_cons (by omega) hfirst [] []
  | places + 1, m, n, hn, hlt => by
    intro rest rest'
    rw [digits, digits, List.append_assoc, List.append_assoc]
    -- The higher digits decide, or they are the same and the last one does.
    rcases Nat.lt_or_ge (m / 64) (n / 64) with hhigh | hhigh
    · have hplaces : leading places (n / 64) + mark < 256 := hn
      exact digits_before hplaces hhigh _ _
    · have hsame : m / 64 = n / 64 := by omega
      rw [hsame]
      exact List.append_left_lt (before_cons (by omega) (by omega) [] [] rest rest')

/-! ### Characters -/

/-- The mark of the first byte of a code point, and the number of bytes behind it. -/
def format (n : Nat) : Nat × Nat :=
  if n ≤ 0x7f then (0, 0)
  else if n ≤ 0x7ff then (0xc0, 1)
  else if n ≤ 0xffff then (0xe0, 2)
  else (0xf0, 3)

theorem codePoint_lt (c : Char) : c.val.toNat < 0x110000 := by
  have hvalid := c.valid
  simp only [UInt32.isValidChar, Nat.isValidChar] at hvalid
  omega

theorem encodeChar_eq_digits (c : Char) : String.utf8EncodeChar c
    = digits (format c.val.toNat).1 (format c.val.toNat).2 c.val.toNat := by
  have hlt := codePoint_lt c
  rw [String.utf8EncodeChar, format]
  generalize c.val.toNat = n at *
  -- The marked bytes leave room for what is left of the number.
  split_ifs
  · rfl
  · have hfirst : n / 64 % 32 = n / 64 := by omega
    simp [digits, hfirst]
  · have hfirst : n / 4096 % 16 = n / 64 / 64 := by omega
    simp [digits, hfirst]
  · have hfirst : n / 262144 % 8 = n / 64 / 64 / 64 := by omega
    have hsecond : n / 4096 % 64 = n / 64 / 64 % 64 := by omega
    simp [digits, hfirst, hsecond]

/-- The first byte of a code point as a number. -/
def firstByte (n : Nat) : Nat :=
  leading (format n).2 n + (format n).1

theorem firstByte_lt {n : Nat} (h : n < 0x110000) : firstByte n < 256 := by
  rw [firstByte, format]
  split_ifs <;> simp only [leading] <;> omega

/-- Code points with a different number of bytes have different first bytes. -/
theorem format_eq_or_firstByte_lt {m n : Nat} (h : m < n) :
    format m = format n ∨ firstByte m < firstByte n := by
  rw [firstByte, firstByte, format, format]
  split_ifs <;> simp [leading] <;> omega

/-- Characters have their bytes in their own order. -/
theorem encodeChar_before {c d : Char} (h : c < d) :
    Before (String.utf8EncodeChar c) (String.utf8EncodeChar d) := by
  have hlt : c.val.toNat < d.val.toNat := h
  have hd := firstByte_lt (codePoint_lt d)
  rw [encodeChar_eq_digits, encodeChar_eq_digits]
  rcases format_eq_or_firstByte_lt hlt with hsame | hfirst
  · rw [hsame]
    exact digits_before hd hlt
  · obtain ⟨rest, hrest⟩ :=
      digits_eq_cons (format c.val.toNat).1 (format c.val.toNat).2 c.val.toNat
    obtain ⟨rest', hrest'⟩ :=
      digits_eq_cons (format d.val.toNat).1 (format d.val.toNat).2 d.val.toNat
    rw [hrest, hrest']
    exact before_cons hfirst hd rest rest'

/-! ### Texts -/

theorem flatMap_encodeChar_lt : ∀ {text text' : List Char}, text < text' →
    text.flatMap String.utf8EncodeChar < text'.flatMap String.utf8EncodeChar
  | [], d :: text', _ => by
    obtain ⟨first, rest, hd⟩ := List.exists_cons_of_ne_nil (String.utf8EncodeChar_ne_nil (c := d))
    rw [List.flatMap_cons, hd]
    exact List.nil_lt_cons _ _
  | c :: text, d :: text', h => by
    rw [List.flatMap_cons, List.flatMap_cons]
    rcases List.cons_lt_cons_iff.mp h with hlt | ⟨rfl, hlt⟩
    · exact encodeChar_before hlt _ _
    · exact List.append_left_lt (flatMap_encodeChar_lt hlt)

theorem bytes_lt {text text' : String} (h : text < text') : bytes text < bytes text' := by
  rw [bytes_eq_flatMap, bytes_eq_flatMap]
  exact flatMap_encodeChar_lt h

/-- **Texts have their bytes in their own order.** -/
theorem lt_iff_bytes_lt {text text' : String} : text < text' ↔ bytes text < bytes text' := by
  refine ⟨bytes_lt, ?_⟩
  intro h
  refine Decidable.byContradiction fun hnot => ?_
  by_cases hgt : text' < text
  · exact List.lt_asymm h (bytes_lt hgt)
  · obtain rfl : text' = text :=
      String.le_antisymm (String.not_lt.mp hnot) (String.not_lt.mp hgt)
    exact List.lt_irrefl _ h

end Pagewright.Utf8
