/-
A decoder of blocks.

The text of a call and of all calls inside it is read character by character,
and every line is dealt with when it ends.  A line opens a construct, closes
the innermost block, is one step of a callback, or goes on with the header that
the callback stands in; which of these it is can be told from one column, and
how a header goes on from the last characters of the line.  Whatever else there
is in a header is passed over.

* `decodeBlock` — the structure of the calls in a block;
* `constructLines` — the lines that open a construct, from top to bottom;
* `Heads` — a line belongs to a header, however it goes on; `Heads.append`,
  `Heads.callback` and `Heads.endLine` say what becomes of the header.
-/
import Pagewright.View.Call

namespace Pagewright

/-- The structure of a call: the name of its construct, the methods of each of
its callbacks that have any, and the calls in its block. -/
inductive Shape
  | mk (name : String) (callbacks : List (List String)) (children : List Shape)

namespace Decoder

/-- What has been read of the header of a construct. -/
structure Header where
  name : String
  callbacks : List (List String)

/-- The header with more callbacks. -/
def Header.add (header : Header) (callbacks : List (List String)) : Header :=
  { header with callbacks := header.callbacks ++ callbacks }

theorem Header.add_nil (header : Header) : header.add [] = header := by
  rw [add, List.append_nil]

theorem Header.add_add (header : Header) (callbacks callbacks' : List (List String)) :
    (header.add callbacks).add callbacks' = header.add (callbacks ++ callbacks') := by
  rw [add, add, add, List.append_assoc]

/-- A block that has not been closed: its header, and what stands in front of it. -/
structure Frame where
  header : Header
  before : List Shape

/-- What has been read of the lines of a block. -/
structure Scan where
  /-- The calls that are complete, in the innermost block. -/
  shapes : List Shape := []
  /-- The blocks around them, the innermost first. -/
  frames : List Frame := []
  /-- The callback that is being read, and the header it stands in. -/
  callback : Option (Header × List String) := none
  /-- For every construct so far, the columns in front of it and its name. -/
  constructs : List (Nat × String) := []

/-- What follows the last line of a header, or a line where it breaks. -/
inductive Ending
  | callback
  | block
  | nothing

/-- What the last characters of a line say. -/
def ending (line : List Char) : Ending :=
  match line.reverse with
  | '{' :: ' ' :: '=' :: _ => .callback
  | '{' :: ' ' :: _ => .block
  | _ => .nothing

/-- The columns in front of a line and the name that it begins with. -/
def heading (line : List Char) : Nat × String :=
  ((line.takeWhile (· == ' ')).length,
    String.ofList ((line.dropWhile (· == ' ')).takeWhile Text.isWordCharacter))

/-- The method that a step of a callback calls; the binding stands in front of
it and a pair of parentheses behind it. -/
def methodName (binding : String) (level : Nat) (line : List Char) : String :=
  String.ofList (line.drop (4 * level + binding.toList.length + 1)).dropLast.dropLast

namespace Scan

/-- A block is opened. -/
def inside (scan : Scan) (header : Header) : Scan :=
  { scan with shapes := [], frames := ⟨header, scan.shapes⟩ :: scan.frames, callback := none }

/-- A line of a header comes to its end. -/
def endLine (scan : Scan) (header : Header) (line : List Char) : Scan :=
  match ending line with
  | .callback => { scan with callback := some (header, []) }
  | .block => scan.inside header
  | .nothing =>
    { scan with
      shapes := scan.shapes ++ [⟨header.name, header.callbacks, []⟩]
      callback := none }

/-- The construct that a line opens is noted. -/
def opened (scan : Scan) (heading : Nat × String) : Scan :=
  { scan with constructs := scan.constructs ++ [heading] }

/-- A line opens a construct. -/
def openLine (scan : Scan) (line : List Char) : Scan :=
  (scan.opened (heading line)).endLine ⟨(heading line).2, []⟩ line

/-- Deals with a line; the outermost call stands at level `start`. -/
def step (binding : String) (start : Nat) (scan : Scan) (text : List Char) : Scan :=
  let level := start + scan.frames.length
  match scan.callback, scan.frames with
  | some (header, methods), _ =>
    if text[4 * level]? = some '}' then scan.endLine (header.add [methods]) text
    else
      { scan with
        callback := some (header, methods ++ [methodName binding (level + 1) text]) }
  | none, [] => scan.openLine text
  | none, frame :: frames =>
    if text[4 * (start + frames.length)]? = some '}' then
      { scan with
        shapes := frame.before ++ [⟨frame.header.name, frame.header.callbacks, scan.shapes⟩]
        frames }
    else scan.openLine text

end Scan

/-- The lines that have been read, and the beginning of the next one. -/
structure Reading where
  scan : Scan := {}
  line : List Char := []

/-- Reads one more character. -/
def next (binding : String) (start : Nat) (reading : Reading) (c : Char) : Reading :=
  if c = '\n' then ⟨reading.scan.step binding start reading.line, []⟩
  else ⟨reading.scan, reading.line ++ [c]⟩

/-- Reads some more text. -/
def read (binding : String) (start : Nat) (reading : Reading) (text : List Char) : Reading :=
  text.foldl (next binding start) reading

end Decoder

open Decoder

/-- The structure of the call that a block consists of, given the binding and
the level of the call. -/
def decodeBlock (binding : String) (start : Nat) (text : String) : Option Shape :=
  match Decoder.read binding start {} text.toList with
  | ⟨⟨[shape], [], none, _⟩, []⟩ => some shape
  | _ => none

/-- The lines of a block that open a construct: for each of them the columns in
front of it and the name that it begins with. -/
def constructLines (binding : String) (start : Nat) (text : String) : List (Nat × String) :=
  (Decoder.read binding start {} text.toList).scan.constructs

namespace Decoder

variable {binding : String} {start level : Nat} {scan : Scan} {header : Header}
  {reading : Reading} {text line : List Char}

/-! ### Reading text -/

theorem read_append (text text' : List Char) :
    read binding start reading (text ++ text')
      = read binding start (read binding start reading text) text' :=
  List.foldl_append

theorem read_of_not_mem (h : '\n' ∉ text) :
    read binding start ⟨scan, line⟩ text = ⟨scan, line ++ text⟩ := by
  induction text generalizing line with
  | nil => rw [List.append_nil]; rfl
  | cons c text ih =>
    rw [List.mem_cons, not_or] at h
    have hnext : next binding start ⟨scan, line⟩ c = ⟨scan, line ++ [c]⟩ := if_neg (Ne.symm h.1)
    rw [read, List.foldl_cons, hnext, ← read, ih h.2, List.append_assoc, List.singleton_append]

theorem read_newLine (text : List Char) :
    read binding start ⟨scan, line⟩ ('\n' :: text)
      = read binding start ⟨scan.step binding start line, []⟩ text :=
  rfl

/-- A whole line is read. -/
theorem read_line (h : '\n' ∉ line) (text : List Char) :
    read binding start ⟨scan, []⟩ (line ++ '\n' :: text)
      = read binding start ⟨scan.step binding start line, []⟩ text := by
  rw [read_append, read_of_not_mem h, read_newLine, List.nil_append]

/-! ### Lines -/

theorem toList_indent (level : Nat) :
    (Kotlin.indent level).toList = List.replicate (4 * level) ' ' :=
  String.toList_ofList

theorem newLine_not_mem_indent (level : Nat) : '\n' ∉ (Kotlin.indent level).toList := by
  rw [toList_indent]
  exact fun hmem => absurd (List.eq_of_mem_replicate hmem) (by decide)

theorem newLine_not_mem_closing (level : Nat) : '\n' ∉ (Kotlin.indent level).toList ++ ['}'] := by
  rw [List.mem_append, not_or]
  exact ⟨newLine_not_mem_indent level, by decide⟩

/-- The character in a column that lies in front of a line. -/
theorem getElem?_indent_of_lt {level level' : Nat} (h : level < level') (text : List Char) :
    ((Kotlin.indent level').toList ++ text)[4 * level]? = some ' ' := by
  have hlt : 4 * level < 4 * level' := Nat.mul_lt_mul_of_pos_left h (by decide)
  rw [toList_indent, List.getElem?_append_left (by rwa [List.length_replicate]),
    List.getElem?_replicate_of_lt hlt]

/-- The first character of a line. -/
theorem getElem?_indent (level : Nat) (text : List Char) :
    ((Kotlin.indent level).toList ++ text)[4 * level]? = text.head? := by
  have hlength : (List.replicate (4 * level) ' ').length = 4 * level := List.length_replicate
  rw [toList_indent, List.getElem?_append_right (Nat.le_of_eq hlength), hlength, Nat.sub_self,
    List.head?_eq_getElem?]

/-- A line ends where a callback begins. -/
theorem ending_callback (line : List Char) : ending (line ++ ['=', ' ', '{']) = .callback := by
  rw [ending, List.reverse_append]
  rfl

theorem ending_block (line : List Char) : ending (line ++ [')', ' ', '{']) = .block := by
  rw [ending, List.reverse_append]
  rfl

theorem ending_nothing (line : List Char) : ending (line ++ [')']) = .nothing := by
  rw [ending, List.reverse_append]
  rfl

/-- A name that can be told from what follows it. -/
def IsWord (name : String) : Prop :=
  name.toList ≠ [] ∧ name.toList.all Text.isWordCharacter = true

instance (name : String) : Decidable (IsWord name) :=
  inferInstanceAs (Decidable (_ ∧ _))

theorem IsWord.ne_of_mem {name : String} (h : IsWord name) {c d : Char} (hmem : c ∈ name.toList)
    (hd : Text.isWordCharacter d = false) : c ≠ d := by
  rintro rfl
  rw [List.all_eq_true.mp h.2 c hmem] at hd
  cases hd

theorem ending_word {name : String} (h : IsWord name) (line : List Char) :
    ending (line ++ name.toList ++ [' ', '{']) = .block := by
  obtain ⟨before, last, hlast⟩ := (List.eq_nil_or_concat name.toList).resolve_left h.1
  have hne : last ≠ '=' :=
    h.ne_of_mem (by simp [hlast]) (by decide +kernel)
  have hreverse : (line ++ name.toList ++ [' ', '{']).reverse
      = '{' :: ' ' :: last :: (line ++ before).reverse := by
    simp [hlast]
  rw [ending, hreverse]
  split
  · rename_i heq
    cases heq
    exact absurd rfl hne
  · rfl
  · rename_i hblock
    exact absurd rfl (hblock _)

/-- A run of characters of one class ends where there is another one. -/
theorem takeWhile_run {p : Char → Bool} {run rest : List Char} (hrun : ∀ c ∈ run, p c = true)
    (hrest : ∀ c ∈ rest.head?, p c = false) : (run ++ rest).takeWhile p = run := by
  rw [List.takeWhile_append_of_pos hrun]
  cases rest with
  | nil => exact List.append_nil run
  | cons c rest => rw [List.takeWhile_cons_of_neg (by simp [hrest c rfl]), List.append_nil]

theorem dropWhile_run {p : Char → Bool} {run rest : List Char} (hrun : ∀ c ∈ run, p c = true)
    (hrest : ∀ c ∈ rest.head?, p c = false) : (run ++ rest).dropWhile p = rest := by
  rw [List.dropWhile_append_of_pos hrun]
  cases rest with
  | nil => rfl
  | cons c rest => rw [List.dropWhile_cons_of_neg (by simp [hrest c rfl])]

theorem heading_word {name : String} (h : IsWord name) (level : Nat) {text : List Char}
    (htext : ∀ c ∈ text.head?, Text.isWordCharacter c = false) :
    heading ((Kotlin.indent level).toList ++ (name.toList ++ text)) = (4 * level, name) := by
  obtain ⟨c, rest, hname⟩ := List.exists_cons_of_ne_nil h.1
  have hblank : ∀ d ∈ (name.toList ++ text).head?, (d == ' ') = false := by
    rw [hname]
    rintro d ⟨⟩
    exact beq_eq_false_iff_ne.mpr (h.ne_of_mem (hname ▸ List.mem_cons_self) (by decide +kernel))
  have hindent : ∀ d ∈ (Kotlin.indent level).toList, (d == ' ') = true := by
    rw [toList_indent]
    exact fun d hd => beq_iff_eq.mpr (List.eq_of_mem_replicate hd)
  rw [heading, takeWhile_run hindent hblank, dropWhile_run hindent hblank,
    takeWhile_run (List.all_eq_true.mp h.2) htext, toList_indent, List.length_replicate,
    String.ofList_toList]

/-- One step of a callback. -/
def callLine (binding : String) (level : Nat) (method : String) : List Char :=
  (Kotlin.indent level).toList ++ binding.toList ++ '.' :: method.toList ++ ['(', ')']

theorem methodName_callLine (method : String) :
    methodName binding level (callLine binding level method) = method := by
  have hlength : ((Kotlin.indent level).toList ++ binding.toList ++ ['.']).length
      = 4 * level + binding.toList.length + 1 := by
    rw [toList_indent]
    simp [Nat.add_assoc]
  have hline : callLine binding level method
      = ((Kotlin.indent level).toList ++ binding.toList ++ ['.'])
        ++ (method.toList ++ ['(', ')']) := by
    simp [callLine]
  rw [methodName, hline, ← hlength, List.drop_left]
  simp

/-! ### Headers -/

/-- What the end of a line does has nothing to do with the callback in front of it. -/
theorem endLine_callback (scan : Scan) (callback : Option (Header × List String))
    (header : Header) (line : List Char) :
    { scan with callback }.endLine header line = scan.endLine header line :=
  rfl

/-- However the line that is being read goes on, at its end it belongs to a
header that has been read so far. -/
def Heads (binding : String) (start : Nat) (reading : Reading) (scan : Scan) (header : Header) :
    Prop :=
  ∀ more, reading.scan.step binding start (reading.line ++ more)
    = scan.endLine header (reading.line ++ more)

theorem Heads.append (h : Heads binding start reading scan header) (htext : '\n' ∉ text) :
    Heads binding start (read binding start reading text) scan header := by
  intro more
  rw [read_of_not_mem htext]
  dsimp only
  rw [List.append_assoc]
  exact h (text ++ more)

/-- The line is read to its end. -/
theorem Heads.endLine (h : Heads binding start reading scan header) (htext : '\n' ∉ text) :
    read binding start reading (text ++ ['\n'])
      = ⟨scan.endLine header (reading.line ++ text), []⟩ := by
  rw [read_append, read_of_not_mem htext, read_newLine, h text]
  rfl

/-- A line that begins with a name opens a construct, as no block is closed there. -/
theorem heads_open {name : String} (hname : IsWord name) (hcallback : scan.callback = none)
    (hlevel : level = start + scan.frames.length) {c : Char}
    (hc : Text.isWordCharacter c = false) :
    Heads binding start ⟨scan, (Kotlin.indent level).toList ++ (name.toList ++ [c])⟩
      (scan.opened (4 * level, name)) ⟨name, []⟩ := by
  intro more
  have hheading : heading ((Kotlin.indent level).toList ++ (name.toList ++ [c]) ++ more)
      = (4 * level, name) := by
    rw [List.append_assoc, List.append_assoc]
    exact heading_word hname level fun d hd => by cases hd; exact hc
  have hopen : scan.openLine ((Kotlin.indent level).toList ++ (name.toList ++ [c]) ++ more)
      = (scan.opened (4 * level, name)).endLine ⟨name, []⟩
        ((Kotlin.indent level).toList ++ (name.toList ++ [c]) ++ more) := by
    rw [Scan.openLine, hheading]
  rw [← hopen]
  obtain ⟨shapes, frames, callback, constructs⟩ := scan
  cases hcallback
  cases frames with
  | nil => rfl
  | cons frame frames =>
    -- The line that closes the block has a brace where this one is indented further.
    have hlt : start + frames.length < level := hlevel ▸ Nat.lt_succ_self _
    have hcolumn : ((Kotlin.indent level).toList ++ (name.toList ++ [c])
        ++ more)[4 * (start + frames.length)]? ≠ some '}' := by
      rw [List.append_assoc, getElem?_indent_of_lt hlt]
      decide
    exact if_neg hcolumn

theorem step_callLine (hlevel : level = start + scan.frames.length) (methods : List String)
    (method : String) :
    { scan with callback := some (header, methods) }.step binding start
        (callLine binding (level + 1) method)
      = { scan with callback := some (header, methods ++ [method]) } := by
  have hcolumn : (callLine binding (level + 1) method)[4 * level]? ≠ some '}' := by
    rw [callLine, List.append_assoc, List.append_assoc, getElem?_indent_of_lt (Nat.lt_succ_self _)]
    decide
  rw [Scan.step, ← hlevel]
  dsimp only
  rw [if_neg hcolumn, methodName_callLine]

theorem newLine_not_mem_callLine (hbinding : '\n' ∉ binding.toList) {method : String}
    (hmethod : '\n' ∉ method.toList) : '\n' ∉ callLine binding level method := by
  have hindent := newLine_not_mem_indent level
  simp [callLine, hindent, hbinding, hmethod]

theorem read_callLines (hlevel : level = start + scan.frames.length)
    (hbinding : '\n' ∉ binding.toList) {methods : List String}
    (hmethods : ∀ method ∈ methods, '\n' ∉ method.toList) :
    ∀ before : List String, read binding start ⟨{ scan with callback := some (header, before) }, []⟩
        (methods.flatMap fun method => callLine binding (level + 1) method ++ ['\n'])
      = ⟨{ scan with callback := some (header, before ++ methods) }, []⟩ := by
  induction methods with
  | nil =>
    intro before
    rw [List.append_nil]
    rfl
  | cons method methods ih =>
    intro before
    have hmethod : '\n' ∉ callLine binding (level + 1) method :=
      newLine_not_mem_callLine hbinding (hmethods method List.mem_cons_self)
    rw [List.flatMap_cons, List.append_assoc, List.singleton_append, read_line hmethod,
      step_callLine hlevel, ih fun other hmem => hmethods other (List.mem_cons_of_mem _ hmem)]
    simp

/-- A callback in a header. -/
theorem Heads.callback (h : Heads binding start reading scan header)
    (hlevel : level = start + scan.frames.length) (hbinding : '\n' ∉ binding.toList)
    {methods : List String} (hmethods : ∀ method ∈ methods, '\n' ∉ method.toList) :
    Heads binding start (read binding start reading ((['=', ' ', '{'] ++ ['\n']) ++
        ((methods.flatMap fun method => callLine binding (level + 1) method ++ ['\n']) ++
        ((Kotlin.indent level).toList ++ ['}']))))
      scan (header.add [methods]) := by
  -- The line breaks, the steps are read, and what follows the brace goes on with the header.
  have hopened : scan.endLine header (reading.line ++ ['=', ' ', '{'])
      = { scan with callback := some (header, []) } := by
    rw [Scan.endLine, ending_callback]
  rw [read_append, h.endLine (by decide), hopened, read_append,
    read_callLines hlevel hbinding hmethods, read_of_not_mem (newLine_not_mem_closing level)]
  intro more
  have hcolumn : ((Kotlin.indent level).toList ++ ['}'] ++ more)[4 * level]? = some '}' := by
    rw [List.append_assoc, getElem?_indent]
    rfl
  rw [List.nil_append, List.nil_append, ← endLine_callback scan (some (header, methods)), Scan.step]
  dsimp only
  rw [← hlevel, if_pos hcolumn]

end Decoder

end Pagewright
