/-
Readers read what is written, down to the limit of nesting.

`Decodes reader value depth result` ties a reader inside of which `depth`
brackets may be opened to a value: where the value is nested no deeper it is
read as `result`, in whatever way it is written and whatever stands behind it,
and where it is nested deeper it is refused.

* `decodes_text`, `decodes_flag`, `decodes_digit`, `Decodes.list`, `Decodes.map` —
  strings, truth values, small numbers, lists and maps;
* `Decodes.record` — records written as objects, whose entries give the fields
  in their order and leave out some that are not required (`Fills`);
* `Decodes.document` — a value that is the whole of a document.
-/
import Pagewright.Json.Reader
import Pagewright.Proofs.Json.Value

namespace Pagewright.Json

variable {α β : Type} {depth : Nat}

/-- A reading yields a result where something fits, and a fault where it does not. -/
def Settles (fits : Prop) (reading : Except Fault (α × Input)) (result : α) (rest : Input) :
    Prop :=
  (fits → reading = .ok (result, rest)) ∧ (¬fits → ∃ fault, reading = .error fault)

theorem settles_ok (result : α) (rest : Input) : Settles True (.ok (result, rest)) result rest :=
  ⟨fun _ => rfl, fun h => absurd trivial h⟩

theorem settles_error (fault : Fault) (result : α) (rest : Input) :
    Settles False (.error fault) result rest :=
  ⟨False.elim, fun _ => ⟨fault, rfl⟩⟩

theorem Settles.congr {fits fits' : Prop} {reading : Except Fault (α × Input)} {result : α}
    {rest : Input} (h : Settles fits reading result rest) (hfits : fits' ↔ fits) :
    Settles fits' reading result rest :=
  ⟨fun hf => h.1 (hfits.mp hf), fun hf => h.2 fun hf' => hf (hfits.mpr hf')⟩

/-- One reading after the other: both have to fit. -/
theorem Settles.bind {fits fits' : Prop} {first : Except Fault (α × Input)}
    {second : α × Input → Except Fault (β × Input)} {value : α} {result : β} {middle rest : Input}
    (h : Settles fits first value middle)
    (h' : Settles fits' (second (value, middle)) result rest) :
    Settles (fits ∧ fits') (first >>= second) result rest := by
  constructor
  · rintro ⟨hf, hf'⟩
    rw [h.1 hf]
    exact h'.1 hf'
  · intro hnot
    by_cases hf : fits
    · rw [h.1 hf]
      exact h'.2 fun hf' => hnot ⟨hf, hf'⟩
    · obtain ⟨fault, hfault⟩ := h.2 hf
      rw [hfault]
      exact ⟨fault, rfl⟩

/-- What may stand behind a value: nothing, white space, a comma, or the end of
what it is in. -/
def EndsPart (rest : Input) : Prop :=
  ∀ symbol ∈ rest.head?, isBlankSymbol symbol = true ∨
    symbol = .char ',' ∨ symbol = .char ']' ∨ symbol = .char '}'

/-- What ends a part may have white space in front of it. -/
theorem endsPart_append {space : Input} (hspace : Value.Blank space) {symbol : Symbol}
    (h : symbol = .char ',' ∨ symbol = .char ']' ∨ symbol = .char '}') (rest : Input) :
    EndsPart (space ++ symbol :: rest) := by
  cases space with
  | nil => rintro other ⟨⟩; exact .inr h
  | cons first space => rintro other ⟨⟩; exact .inl (hspace first List.mem_cons_self)

theorem endsPart_elements {values : List Value} {elements : Input}
    (h : Value.WritesElements false values elements) (rest : Input) :
    EndsPart (elements ++ rest) := by
  cases h with
  | nil hspace =>
    rw [List.append_assoc]
    exact endsPart_append hspace (.inr (.inl rfl)) rest
  | cons hlead _ _ =>
    cases hlead with
    | next hspace =>
      rw [List.append_assoc, List.append_assoc]
      exact endsPart_append hspace (.inl rfl) _

theorem endsPart_entries {entries : List (String × Value)} {parts : Input}
    (h : Value.WritesEntries false entries parts) (rest : Input) : EndsPart (parts ++ rest) := by
  cases h with
  | nil hspace =>
    rw [List.append_assoc]
    exact endsPart_append hspace (.inr (.inr rfl)) rest
  | cons hlead _ _ _ =>
    cases hlead with
    | next hspace =>
      rw [List.append_assoc, List.append_assoc]
      exact endsPart_append hspace (.inl rfl) _

/-- A reader inside of which some brackets may be opened reads a value as a
result, however it is written, unless the value is nested deeper. -/
def Decodes (reader : Reader α) (value : Value) (depth : Nat) (result : α) : Prop :=
  ∀ input, value.Writes input → ∀ rest, EndsPart rest →
    Settles (value.nesting ≤ depth) (reader (input ++ rest)) result rest

/-! ### Strings, truth values and numbers -/

theorem decodes_text (expected written : String) (depth : Nat) :
    Decodes (text expected) (.string written) depth written := by
  rintro input hinput rest -
  have hread : text expected (input ++ rest) = .ok (written, rest) := by
    cases hinput with
    | leaf _ hspace =>
      rw [Value.compact, ofText_quote, text, List.append_assoc, List.cons_append,
        Value.dropBlanks_append hspace rfl, List.append_assoc]
      exact readText_written written rest
  rw [hread]
  exact (settles_ok written rest).congr (iff_true_intro (Nat.zero_le depth))

theorem decodes_flag (written : Bool) (depth : Nat) :
    Decodes flag (.boolean written) depth written := by
  rintro input hinput rest -
  have hfalse : Input.ofText (Value.boolean false).compact = .char 'f' :: Input.ofText "alse" := rfl
  have htrue : Input.ofText (Value.boolean true).compact = .char 't' :: Input.ofText "rue" := rfl
  have hread : flag (input ++ rest) = .ok (written, rest) := by
    cases hinput with
    | leaf _ hspace =>
      rw [flag, List.append_assoc]
      cases written with
      | false =>
        rw [hfalse, List.cons_append, Value.dropBlanks_append hspace rfl]
        rfl
      | true =>
        rw [htrue, List.cons_append, Value.dropBlanks_append hspace rfl]
        rfl
  rw [hread]
  exact (settles_ok written rest).congr (iff_true_intro (Nat.zero_le depth))

/-- A string that may be missing is read as it is without that. -/
theorem Decodes.optional {item : Reader α} {written : String} {value : α}
    (h : Decodes item (.string written) depth value) :
    Decodes (optional item) (.string written) depth (some value) := by
  rintro input hinput rest hrest
  cases hinput with
  | leaf hleaf hspace =>
    have hitem := h _ (Value.writes_leaf hleaf) rest hrest
    rw [Value.compact, ofText_quote, List.cons_append] at hitem
    rw [Value.compact, ofText_quote, List.append_assoc, List.cons_append, Json.optional,
      Value.dropBlanks_append hspace rfl]
    exact (hitem.bind (settles_ok (some value) rest)).congr (and_iff_left trivial).symm

theorem EndsPart.head_cases {symbol : Symbol} {rest : Input} (h : EndsPart (symbol :: rest)) :
    ∃ c ∈ [' ', '\n', '\t', '\r', ',', ']', '}'], symbol = .char c := by
  have hhead := h symbol rfl
  simp only [isBlankSymbol, Bool.or_eq_true, beq_iff_eq] at hhead
  rcases hhead with (((h | h) | h) | h) | h | h | h <;> exact ⟨_, by decide, h⟩

/-- What may stand behind a number has no digits in front. -/
theorem EndsPart.no_digits {rest : Input} (h : EndsPart rest) :
    leadingDigits rest = [] ∧ dropDigits rest = rest := by
  cases rest with
  | nil => exact ⟨rfl, rfl⟩
  | cons symbol rest =>
    obtain ⟨c, hc, rfl⟩ := h.head_cases
    have hall : ∀ c ∈ [' ', '\n', '\t', '\r', ',', ']', '}'], (digit? (.char c)).isNone = true :=
      List.all_eq_true.mp (by decide)
    have hdigit : digit? (.char c) = none := Option.isNone_iff_eq_none.mp (hall c hc)
    exact ⟨by simp [leadingDigits, hdigit], by simp [dropDigits, hdigit]⟩

/-- What may stand behind a number does not go on with it. -/
theorem EndsPart.readAfterWhole {rest : Input} (h : EndsPart rest) (n : Nat) :
    readAfterWhole false n 0 rest = .ok (.integer n, rest) := by
  cases rest with
  | nil => rfl
  | cons symbol rest =>
    obtain ⟨c, hc, rfl⟩ := h.head_cases
    simp only [List.mem_cons, List.not_mem_nil, or_false] at hc
    rcases hc with rfl | rfl | rfl | rfl | rfl | rfl | rfl <;> rfl

theorem readNumber_digit {rest : Input} (hrest : EndsPart rest) {n : Nat} (h : n < 10) :
    readNumber false (.char (Nat.digitChar n) :: rest) = .ok (.integer n, rest) := by
  have hdigit : ∀ n < 10, digit? (.char (Nat.digitChar n)) = some n := by decide
  obtain ⟨hleading, hdrop⟩ := hrest.no_digits
  cases n with
  | zero => simp [readNumber, hdigit 0 h, hleading, hrest.readAfterWhole]
  | succ n =>
    have hleading' : leadingDigits (.char (Nat.digitChar (n + 1)) :: rest) = [n + 1] := by
      have hsome : leadingDigits (.char (Nat.digitChar (n + 1)) :: rest)
          = (n + 1) :: leadingDigits rest := by simp [leadingDigits, hdigit _ h]
      rw [hsome, hleading]
    have hdrop' : dropDigits (.char (Nat.digitChar (n + 1)) :: rest) = rest := by
      have hsome : dropDigits (.char (Nat.digitChar (n + 1)) :: rest) = dropDigits rest := by
        simp [dropDigits, hdigit _ h]
      rw [hsome, hdrop]
    have hfits : appendDigits 0 [n + 1] = (n + 1, []) := by
      have hsize : n + 1 < UInt64.size := Nat.lt_trans h (by decide)
      simp [appendDigits, hsize]
    simp [readNumber, hdigit _ h, hleading', hfits, hdrop', hrest.readAfterWhole]

/-- A number of one digit is read. -/
theorem decodes_digit {n : Nat} (h : n < 10) (depth : Nat) :
    Decodes natural32 (.natural n) depth n := by
  rintro input hinput rest hrest
  have hread : natural32 (input ++ rest) = .ok (n, rest) := by
    cases hinput with
    | leaf _ hspace =>
      have htext : Input.ofText (Value.natural n).compact = [.char (Nat.digitChar n)] := by
        simp [Value.compact, Input.ofText, Nat.toDigits_of_lt_base h]
      have hcases : ∀ n < 10, isBlankSymbol (.char (Nat.digitChar n)) = false ∧
          Nat.digitChar n ≠ '-' ∧ (digit? (.char (Nat.digitChar n))).isSome = true := by decide
      have hvalue : toNatural32 (.integer n) = .ok n := by
        have hsize : n < UInt32.size := Nat.lt_trans h (by decide)
        simp [toNatural32, hsize]
      obtain ⟨hblank, hsign, hsome⟩ := hcases n h
      rw [htext, List.append_assoc, List.singleton_append, natural32,
        Value.dropBlanks_append hspace hblank]
      simp [hsign, hsome, readNumber_digit hrest h, hvalue, bind, Except.bind]
  rw [hread]
  exact (settles_ok n rest).congr (iff_true_intro (Nat.zero_le depth))

/-! ### Lists -/

/-- In front of an element there is a comma, unless it is the first one. -/
theorem nextElement_value {first : Bool} {lead part : Input} {value : Value}
    (hlead : Value.Lead first lead) (h : value.Writes part) (rest : Input) :
    ∃ bare, value.Writes bare ∧
      nextElement first (lead ++ (part ++ rest)) = .ok (.more (bare ++ rest)) := by
  obtain ⟨space, c, tail, rfl, hspace, hblank, hend, hbare⟩ := h.exists_cons
  refine ⟨_, hbare, ?_⟩
  have hdrop : dropBlanks (space ++ .char c :: (tail ++ rest)) = .char c :: (tail ++ rest) :=
    Value.dropBlanks_append hspace hblank
  rw [List.append_assoc, List.cons_append]
  cases hlead with
  | first =>
    rw [List.nil_append, nextElement, hdrop]
    simp [hend]
  | next hspace' =>
    rw [List.append_assoc, List.singleton_append, nextElement,
      Value.dropBlanks_append hspace' rfl]
    simp [hdrop, hend]

theorem nextElement_end {space : Input} (h : Value.Blank space) (first : Bool) (rest : Input) :
    nextElement first (space ++ [.char ']'] ++ rest) = .ok (.finished rest) := by
  rw [List.append_assoc, nextElement, List.singleton_append, Value.dropBlanks_append h rfl]
  rfl

section Lists

variable {item : Reader α} {write : α → Value}

theorem readElements_elements {values : List α}
    (h : ∀ value ∈ values, Decodes item (write value) depth value) :
    ∀ (turns : Nat) (first : Bool) (elements rest : Input), values.length < turns →
      Value.WritesElements first (values.map write) elements →
      Settles (Value.nestingAll (values.map write) ≤ depth)
        (readElements item turns first (elements ++ rest)) values rest := by
  induction values with
  | nil =>
    intro turns first elements rest hturns helements
    obtain ⟨turns, rfl⟩ := Nat.exists_eq_add_one_of_ne_zero (Nat.ne_zero_of_lt hturns)
    cases helements with
    | nil hspace =>
      rw [readElements, nextElement_end hspace]
      exact (settles_ok [] rest).congr (iff_true_intro (Nat.zero_le depth))
  | cons value values ih =>
    intro turns first elements rest hturns helements
    obtain ⟨turns, rfl⟩ := Nat.exists_eq_add_one_of_ne_zero (Nat.ne_zero_of_lt hturns)
    cases helements with
    | @cons _ _ _ lead part elements hlead hpart helements =>
      obtain ⟨bare, hbare, hnext⟩ := nextElement_value hlead hpart (elements ++ rest)
      rw [List.append_assoc, List.append_assoc, readElements, hnext]
      have hvalue := h value List.mem_cons_self bare hbare (elements ++ rest)
        (endsPart_elements helements rest)
      have hvalues := ih (fun value hmem => h value (List.mem_cons_of_mem _ hmem)) turns false
        elements rest (Nat.lt_of_succ_lt_succ hturns) helements
      refine Settles.congr (hvalue.bind ((hvalues.bind (settles_ok _ rest)))) ?_
      rw [List.map_cons, Value.nestingAll, Nat.max_le, and_true]

/-- A list is read as the results of its elements. -/
theorem Decodes.list {item : Nat → Reader α} {values : List α}
    (h : ∀ inner, ∀ value ∈ values, Decodes (item inner) (write value) inner value) :
    Decodes (list (within item depth)) (.list (values.map write)) depth values := by
  rintro input hinput rest -
  cases hinput with
  | leaf hleaf => cases hleaf
  | @list _ space elements hspace helements =>
    rw [List.append_assoc, List.cons_append, Json.list, Value.dropBlanks_append hspace rfl]
    cases depth with
    | zero => exact (settles_error _ _ _).congr (by simp [Value.nesting])
    | succ depth =>
      refine (readElements_elements (h depth) _ true elements rest ?_ helements).congr ?_
      · have hlength := helements.length_lt
        rw [List.length_map] at hlength
        rw [List.length_append]
        omega
      · rw [Value.nesting, Nat.add_le_add_iff_right]

end Lists

/-! ### Objects -/

theorem nextKey_end {space : Input} (h : Value.Blank space) (first : Bool) (rest : Input) :
    nextKey first (space ++ [.char '}'] ++ rest) = .ok (.finished rest) := by
  rw [List.append_assoc, nextKey, List.singleton_append, Value.dropBlanks_append h rfl]
  rfl

theorem nextKey_key {first : Bool} {lead space : Input} (hlead : Value.Lead first lead)
    (h : Value.Blank space) (rest : Input) :
    nextKey first (lead ++ (space ++ .char '"' :: rest)) = .ok (.more rest) := by
  have hdrop : dropBlanks (space ++ .char '"' :: rest) = .char '"' :: rest :=
    Value.dropBlanks_append h rfl
  cases hlead with
  | first =>
    rw [List.nil_append, nextKey, hdrop]
    rfl
  | next hspace =>
    rw [List.append_assoc, List.singleton_append, nextKey, Value.dropBlanks_append hspace rfl]
    simp [hdrop]

theorem readColon_colon (rest : Input) : readColon (.char ':' :: rest) = .ok rest :=
  rfl

/-- The entries of an object in front of what stands behind it. -/
theorem entry_append (lead space part parts rest : Input) (key : String) :
    lead ++ (space ++ .char '"' :: (written key ++ .char '"' :: .char ':' :: (part ++ parts)))
        ++ rest
      = lead ++ (space ++ .char '"' :: (written key ++ .char '"' :: .char ':' ::
        (part ++ (parts ++ rest)))) := by
  simp only [List.append_assoc, List.cons_append]

section Maps

variable {item : Reader α} {write : α → Value}

/-- How the values of some entries are written. -/
def writeEntries (write : α → Value) (entries : List (String × α)) : List (String × Value) :=
  entries.map fun (key, value) => (key, write value)

theorem putEntry_of_not_mem {name : String} {value : α} {entries : List (String × α)}
    (h : name ∉ entries.map Prod.fst) :
    putEntry name value entries = entries ++ [(name, value)] := by
  induction entries with
  | nil => rfl
  | cons entry entries ih =>
    obtain ⟨name', value'⟩ := entry
    rw [List.map_cons, List.mem_cons, not_or] at h
    have hname : (name' == name) = false := beq_eq_false_iff_ne.mpr (Ne.symm h.1)
    rw [putEntry, hname, if_neg Bool.false_ne_true, ih h.2, List.cons_append]

/-- One entry is read after the comma in front of it. -/
theorem readEntries_given {first : Bool} {lead space : Input} (hlead : Value.Lead first lead)
    (hspace : Value.Blank space) (turns : Nat) (map : OrderedMap α) (key : String) (rest : Input) :
    readEntries item (turns + 1) first map
        (lead ++ (space ++ .char '"' :: (written key ++ .char '"' :: .char ':' :: rest)))
      = item rest >>= fun read =>
        readEntries item turns false (map.insert key read.1) read.2 := by
  rw [readEntries, nextKey_key hlead hspace]
  dsimp only [bind, Except.bind]
  rw [readText_written]
  dsimp only
  rw [readColon_colon]

theorem readEntries_entries {final : OrderedMap α} :
    ∀ (entries : List (String × α)) (map : OrderedMap α) (turns : Nat) (first : Bool)
      (parts rest : Input), (∀ entry ∈ entries, Decodes item (write entry.2) depth entry.2) →
      map.entries ++ entries = final.entries → entries.length < turns →
      Value.WritesEntries first (writeEntries write entries) parts →
      Settles (Value.nestingEntries (writeEntries write entries) ≤ depth)
        (readEntries item turns first map (parts ++ rest)) final rest
  | [], map, turns + 1, first, _, rest, _, hfinal, _, .nil hspace => by
    obtain rfl : map = final := by
      cases map
      cases final
      simpa using hfinal
    rw [readEntries, nextKey_end hspace]
    exact (settles_ok map rest).congr (iff_true_intro (Nat.zero_le depth))
  | (key, value) :: entries, map, turns + 1, first, _, rest, h, hfinal, hturns,
      @Value.WritesEntries.cons _ _ _ _ lead space part parts hlead hspace hpart hparts => by
    -- The names of the final map are distinct, so this one is not there yet.
    have hnew : key ∉ map.entries.map Prod.fst := by
      have hdistinct := final.distinct
      rw [← hfinal, List.map_append, List.map_cons, List.nodup_append] at hdistinct
      exact fun hmem => hdistinct.2.2 key hmem key List.mem_cons_self rfl
    have hnext : putEntry key value map.entries ++ entries = final.entries := by
      rw [putEntry_of_not_mem hnew, List.append_assoc, List.singleton_append, hfinal]
    have hentries := readEntries_entries entries (map.insert key value) turns false parts rest
      (fun entry hmem => h entry (List.mem_cons_of_mem _ hmem)) hnext
      (Nat.lt_of_succ_lt_succ hturns) hparts
    have hvalue := h (key, value) List.mem_cons_self part hpart (parts ++ rest)
      (endsPart_entries hparts rest)
    rw [entry_append, readEntries_given hlead hspace]
    refine Settles.congr (hvalue.bind hentries) ?_
    rw [writeEntries, List.map_cons, Value.nestingEntries, Nat.max_le]
    rfl

/-- A map is read with its entries in order. -/
theorem Decodes.map {item : Nat → Reader α} {map : OrderedMap α}
    (h : ∀ inner, ∀ entry ∈ map.entries, Decodes (item inner) (write entry.2) inner entry.2) :
    Decodes (Json.map (within item depth)) (.object (writeEntries write map.entries)) depth
      map := by
  rintro input hinput rest -
  cases hinput with
  | leaf hleaf => cases hleaf
  | @object _ space parts hspace hparts =>
    rw [List.append_assoc, List.cons_append, Json.map, Value.dropBlanks_append hspace rfl]
    cases depth with
    | zero => exact (settles_error _ _ _).congr (by simp [Value.nesting])
    | succ depth =>
      refine (readEntries_entries map.entries ∅ _ true parts rest (h depth) rfl ?_ hparts).congr ?_
      · have hlength := hparts.length_lt
        rw [writeEntries, List.length_map] at hlength
        rw [List.length_append]
        omega
      · rw [Value.nesting, Nat.add_le_add_iff_right]

end Maps

/-! ### Records -/

/-- What an item reads is put in place. -/
theorem Decodes.required {item : Reader β} {written : Value} {value : β} {key : String}
    (h : Decodes item written depth value) (set : β → α → α) :
    Decodes (required key item set).read written depth (set value) := by
  intro input hinput rest hrest
  exact ((h input hinput rest hrest).bind (settles_ok (set value) rest)).congr
    (and_iff_left trivial).symm

theorem Decodes.optionalField {item : Reader β} {written : Value} {value : β} {key : String}
    (h : Decodes item written depth value) (set : β → α → α) :
    Decodes (Json.optionalField key item set).read written depth (set value) :=
  show Decodes (Json.required key item set).read written depth (set value) from h.required set

/-- The fields that some entries give, in their order: `Fills depth slots value entries result`
says that, starting from `value`, they make `result`. -/
inductive Fills (depth : Nat) : List (Slot α) → α → List (String × Value) → α → Prop
  | done {value : α} : Fills depth [] value [] value
  | given {slot : Slot α} {slots : List (Slot α)} {value result : α} {written : Value}
    {set : α → α} {entries : List (String × Value)} :
    Decodes slot.read written depth set → Fills depth slots (set value) entries result →
    Fills depth (slot :: slots) value ((slot.key, written) :: entries) result
  | leftOut {slot : Slot α} {slots : List (Slot α)} {value result : α}
    {entries : List (String × Value)} :
    slot.required = false → Fills depth slots value entries result →
    Fills depth (slot :: slots) value entries result

/-- The slot of a key, among slots with different keys. -/
theorem find?_slot {passed slots : List (Slot α)} {slot : Slot α}
    (h : ((passed ++ slot :: slots).map Slot.key).Nodup) :
    (passed ++ slot :: slots).find? (·.key = slot.key) = some slot := by
  rw [List.map_append, List.map_cons, List.nodup_append] at h
  have hpassed : passed.find? (·.key = slot.key) = none := by
    rw [List.find?_eq_none]
    intro other hother heq
    exact h.2.2 other.key (List.mem_map_of_mem hother) slot.key List.mem_cons_self
      (of_decide_eq_true heq)
  rw [List.find?_append, hpassed, Option.none_or, List.find?_cons_of_pos (by simp)]

/-- The keys that were seen of some fields: none but theirs, and those of all
that have to be there. -/
structure SeenOf (passed : List (Slot α)) (seen : List String) : Prop where
  subset : seen ⊆ passed.map Slot.key
  required : ∀ slot ∈ passed, slot.required = true → slot.key ∈ seen

section Seen

variable {passed slots : List (Slot α)} {slot : Slot α} {seen : List String}

theorem seenOf_nil : SeenOf ([] : List (Slot α)) [] :=
  ⟨List.nil_subset _, fun _ hmem => absurd hmem List.not_mem_nil⟩

theorem SeenOf.given (h : SeenOf passed seen) (slot : Slot α) :
    SeenOf (passed ++ [slot]) (slot.key :: seen) := by
  constructor
  · rw [List.map_append]
    refine List.cons_subset.mpr ⟨?_, fun key hmem => List.mem_append_left _ (h.subset hmem)⟩
    exact List.mem_append_right _ List.mem_cons_self
  · intro other hother hmust
    rcases List.mem_append.mp hother with hother | hother
    · exact List.mem_cons_of_mem _ (h.required other hother hmust)
    · rw [List.mem_singleton.mp hother]
      exact List.mem_cons_self

theorem SeenOf.leftOut (h : SeenOf passed seen) (hoptional : slot.required = false) :
    SeenOf (passed ++ [slot]) seen := by
  constructor
  · rw [List.map_append]
    exact fun key hmem => List.mem_append_left _ (h.subset hmem)
  · intro other hother hmust
    rcases List.mem_append.mp hother with hother | hother
    · exact h.required other hother hmust
    · rw [List.mem_singleton.mp hother, hoptional] at hmust
      cases hmust

theorem SeenOf.not_contains (h : SeenOf passed seen)
    (hkeys : ((passed ++ slot :: slots).map Slot.key).Nodup) :
    seen.contains slot.key = false := by
  rw [List.map_append, List.map_cons, List.nodup_append] at hkeys
  rw [List.contains_eq_mem, decide_eq_false_iff_not]
  exact fun hmem => hkeys.2.2 slot.key (h.subset hmem) slot.key List.mem_cons_self rfl

/-- An object may end when all fields have been passed. -/
theorem readFields_end (h : SeenOf passed seen) {space : Input} (hspace : Value.Blank space)
    (turns : Nat) (first : Bool) (value : α) (rest : Input) :
    readFields passed (turns + 1) first seen value (space ++ [.char '}'] ++ rest)
      = .ok (value, rest) := by
  have hnone : passed.find? (fun slot => slot.required && !seen.contains slot.key) = none := by
    rw [List.find?_eq_none]
    intro slot hslot hmissing
    rw [Bool.and_eq_true, Bool.not_eq_true', List.contains_eq_mem, decide_eq_false_iff_not]
      at hmissing
    exact hmissing.2 (h.required slot hslot hmissing.1)
  rw [readFields, nextKey_end hspace]
  dsimp only [bind, Except.bind]
  rw [hnone]
  rfl

/-- One field is read after the comma in front of it. -/
theorem readFields_given (h : SeenOf passed seen)
    (hkeys : ((passed ++ slot :: slots).map Slot.key).Nodup) {first : Bool} {lead space : Input}
    (hlead : Value.Lead first lead) (hspace : Value.Blank space) (turns : Nat) (value : α)
    (rest : Input) :
    readFields (passed ++ slot :: slots) (turns + 1) first seen value
        (lead ++ (space ++ .char '"' :: (written slot.key ++ .char '"' :: .char ':' :: rest)))
      = slot.read rest >>= fun read =>
        readFields (passed ++ slot :: slots) turns false (slot.key :: seen) (read.1 value)
          read.2 := by
  rw [readFields, nextKey_key hlead hspace]
  dsimp only [bind, Except.bind]
  rw [readText_written]
  dsimp only
  rw [find?_slot hkeys]
  dsimp only
  rw [h.not_contains hkeys, if_neg Bool.false_ne_true, readColon_colon]

end Seen

/-- The fields of a record are read from entries that give them in order, after
some that have been passed. -/
theorem readFields_entries {slots : List (Slot α)} {value result : α}
    {entries : List (String × Value)} (h : Fills depth slots value entries result) :
    ∀ (passed : List (Slot α)) (seen : List String) (turns : Nat) (first : Bool)
      (parts rest : Input), ((passed ++ slots).map Slot.key).Nodup → SeenOf passed seen →
      entries.length < turns → Value.WritesEntries first entries parts →
      Settles (Value.nestingEntries entries ≤ depth)
        (readFields (passed ++ slots) turns first seen value (parts ++ rest)) result rest := by
  induction h with
  | @done value =>
    intro passed seen turns first parts rest _ hseen hturns hparts
    obtain ⟨turns, rfl⟩ := Nat.exists_eq_add_one_of_ne_zero (Nat.ne_zero_of_lt hturns)
    cases hparts with
    | nil hspace =>
      rw [List.append_nil, readFields_end hseen hspace]
      exact (settles_ok value rest).congr (iff_true_intro (Nat.zero_le depth))
  | @given slot slots value result written set entries hwritten _ ih =>
    intro passed seen turns first parts rest hkeys hseen hturns hparts
    obtain ⟨turns, rfl⟩ := Nat.exists_eq_add_one_of_ne_zero (Nat.ne_zero_of_lt hturns)
    cases hparts with
    | @cons _ _ _ _ lead space part parts hlead hspace hpart hparts =>
      have hfields := ih (passed ++ [slot]) (slot.key :: seen) turns false parts rest
        (by simpa using hkeys) (hseen.given slot) (Nat.lt_of_succ_lt_succ hturns) hparts
      rw [List.append_assoc, List.singleton_append] at hfields
      have hvalue := hwritten part hpart (parts ++ rest) (endsPart_entries hparts rest)
      rw [entry_append, readFields_given hseen hkeys hlead hspace]
      refine Settles.congr (hvalue.bind hfields) ?_
      rw [Value.nestingEntries, Nat.max_le]
  | @leftOut slot slots value result entries hoptional _ ih =>
    intro passed seen turns first parts rest hkeys hseen hturns hparts
    have hfields := ih (passed ++ [slot]) seen turns first parts rest (by simpa using hkeys)
      (hseen.leftOut hoptional) hturns hparts
    rwa [List.append_assoc, List.singleton_append] at hfields

/-- A record is read from an object that gives its fields. -/
theorem Decodes.record {name : String} {empty result : α} {slots : Nat → List (Slot α)}
    {entries : List (String × Value)}
    (hkeys : ∀ inner, ((slots inner).map Slot.key).Nodup)
    (h : ∀ inner, Fills inner (slots inner) empty entries result) :
    Decodes (record name empty (within slots depth)) (.object entries) depth result := by
  rintro input hinput rest -
  cases hinput with
  | leaf hleaf => cases hleaf
  | @object _ space parts hspace hparts =>
    rw [List.append_assoc, List.cons_append, Json.record, Value.dropBlanks_append hspace rfl]
    cases depth with
    | zero => exact (settles_error _ _ _).congr (by simp [Value.nesting])
    | succ depth =>
      refine (readFields_entries (h depth) [] [] _ true parts rest (hkeys depth) seenOf_nil
        ?_ hparts).congr ?_
      · have hlength := hparts.length_lt
        rw [List.length_append]
        omega
      · rw [Value.nesting, Nat.add_le_add_iff_right]

/-! ### Documents -/

/-- A document that holds nothing but a value is read as the value is, however
it is written. -/
theorem Decodes.document_of_writes {reader : Reader α} {value : Value} {result : α}
    (h : Decodes reader value depth result) (medium : Medium) {input : Input}
    (hinput : value.Writes input) :
    (value.nesting ≤ depth → readDocument reader medium input = .ok result) ∧
    (¬value.nesting ≤ depth → ∃ diagnostic,
      readDocument reader medium input = .error diagnostic) := by
  obtain ⟨hok, herror⟩ := h input hinput [] fun symbol hsymbol => by cases hsymbol
  rw [List.append_nil] at hok herror
  constructor
  · intro hfits
    rw [readDocument, Json.document, hok hfits]
    rfl
  · intro hfits
    obtain ⟨fault, hfault⟩ := herror hfits
    rw [readDocument, Json.document, hfault]
    exact ⟨_, rfl⟩

/-- So it is without any space. -/
theorem Decodes.document {reader : Reader α} {value : Value} {result : α}
    (h : Decodes reader value depth result) (medium : Medium) :
    (value.nesting ≤ depth → readDocument reader medium (Input.ofText value.compact) = .ok result) ∧
    (¬value.nesting ≤ depth → ∃ diagnostic,
      readDocument reader medium (Input.ofText value.compact) = .error diagnostic) :=
  h.document_of_writes medium value.writes_compact

end Pagewright.Json
