/-
The lines of a text.

* `lines` — splits at line feeds and drops one carriage return right before each of them; what
  follows the last line feed is a line unless it is empty.
-/
namespace Pagewright.Text

/-- A line read so far, in reverse, without the carriage return that ends it. -/
def dropReturn : List Char → List Char
  | '\r' :: line => line
  | line => line

/-- The lines of a text whose first line starts with the characters of `begun`, in reverse. -/
def linesFrom (begun : List Char) : List Char → List (List Char)
  | [] => if begun.isEmpty then [] else [begun.reverse]
  | c :: text =>
    if c = '\n' then (dropReturn begun).reverse :: linesFrom [] text
    else linesFrom (c :: begun) text

/-- The lines of a text. -/
def lines (text : List Char) : List (List Char) :=
  linesFrom [] text

theorem linesFrom_append (line : List Char) (h : '\n' ∉ line) (begun rest : List Char) :
    linesFrom begun (line ++ '\n' :: rest)
      = (dropReturn (line.reverse ++ begun)).reverse :: lines rest := by
  induction line generalizing begun with
  | nil => simp [linesFrom, lines]
  | cons c line ih =>
    rw [List.mem_cons, not_or] at h
    rw [List.cons_append, linesFrom, if_neg (Ne.symm h.1), ih h.2]
    simp

theorem linesFrom_of_not_mem (line : List Char) (h : '\n' ∉ line) (begun : List Char) :
    linesFrom begun line
      = if begun.reverse ++ line = [] then [] else [begun.reverse ++ line] := by
  induction line generalizing begun with
  | nil => simp [linesFrom]
  | cons c line ih =>
    rw [List.mem_cons, not_or] at h
    rw [linesFrom, if_neg (Ne.symm h.1), ih h.2, List.reverse_cons, List.append_assoc,
      List.singleton_append]

end Pagewright.Text
