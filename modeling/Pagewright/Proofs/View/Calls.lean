/-
The block of a call is decoded as the call.

Nothing is asked of the texts in it but that lines end where a block makes them
end, and that names can be told from what follows them: arguments may hold
parentheses and braces, or look like another call.

* `Decoder.Heads.arguments` — reading arguments adds their callbacks to a header;
* `Decoder.read_block` — a block that is read in the middle of a scan;
* `Call.decode_block` — so it is decoded as the structure of the call, with one
  line for every construct.
-/
import Pagewright.Proofs.View.Decoder

namespace Pagewright

open Decoder

variable {binding : String} {start level : Nat} {scan : Scan} {header : Header}
  {reading : Reading}

/-! ### Arguments -/

/-- The methods of the callback that an argument is, if it has any. -/
def Argument.callbacks (argument : Argument) : List (List String) :=
  match argument.value with
  | .callback (method :: methods) => [method :: methods]
  | _ => []

/-- An argument in which lines end only between the steps of a callback. -/
def Argument.Legible (binding : String) (argument : Argument) : Prop :=
  '\n' ∉ argument.parameter.toList ∧
    match argument.value with
    | .expression text => '\n' ∉ (bindPageScope text binding).toList
    | .callback methods => ∀ method ∈ methods, '\n' ∉ method.toList

/-- The text of a callback that has methods. -/
theorem toList_source_callback (parameter method : String) (methods : List String) :
    (Argument.source binding level ⟨parameter, .callback (method :: methods)⟩).toList
      = (parameter.toList ++ [' ']) ++ ((['=', ' ', '{'] ++ ['\n']) ++
        (((method :: methods).flatMap fun method =>
          callLine binding (level + 1) method ++ ['\n']) ++
        ((Kotlin.indent level).toList ++ ['}']))) := by
  simp [Argument.source, ArgumentValue.source, callLine, List.flatMap_map]

namespace Decoder

/-- Reading an argument adds its callback to a header. -/
theorem Heads.argument (h : Heads binding start reading scan header)
    (hlevel : level = start + scan.frames.length) (hbinding : '\n' ∉ binding.toList)
    {argument : Argument} (hargument : argument.Legible binding) :
    Heads binding start (read binding start reading (argument.source binding level).toList) scan
      (header.add argument.callbacks) := by
  obtain ⟨parameter, value⟩ := argument
  obtain ⟨hparameter, hvalue⟩ := hargument
  cases value with
  | expression text =>
    have htext : '\n' ∉ (Argument.source binding level ⟨parameter, .expression text⟩).toList := by
      simp only [Argument.source, ArgumentValue.source, String.toList_append, List.mem_append,
        not_or]
      exact ⟨⟨hparameter, by decide⟩, hvalue⟩
    rw [Argument.callbacks, Header.add_nil]
    exact h.append htext
  | callback methods =>
    cases methods with
    | nil =>
      have htext : '\n' ∉ (Argument.source binding level ⟨parameter, .callback []⟩).toList := by
        simp only [Argument.source, ArgumentValue.source, String.toList_append, List.mem_append,
          not_or]
        exact ⟨⟨hparameter, by decide⟩, by decide⟩
      rw [Argument.callbacks, Header.add_nil]
      exact h.append htext
    | cons method methods =>
      have htext : '\n' ∉ parameter.toList ++ [' '] := by
        rw [List.mem_append, not_or]
        exact ⟨hparameter, by decide⟩
      rw [toList_source_callback, read_append]
      exact (h.append htext).callback hlevel hbinding hvalue

/-- Reading arguments adds their callbacks to a header, in order. -/
theorem Heads.arguments {arguments : List Argument} :
    ∀ {reading : Reading} {header : Header}, Heads binding start reading scan header →
      level = start + scan.frames.length → '\n' ∉ binding.toList →
      (∀ argument ∈ arguments, argument.Legible binding) →
      Heads binding start (read binding start reading
          (", ".intercalate (arguments.map (Argument.source binding level))).toList) scan
        (header.add (arguments.flatMap Argument.callbacks)) := by
  induction arguments with
  | nil =>
    intro reading header h _ _ _
    rw [List.flatMap_nil, Header.add_nil]
    exact h
  | cons argument rest ih =>
    intro reading header h hlevel hbinding harguments
    have hargument := h.argument hlevel hbinding (harguments argument List.mem_cons_self)
    cases rest with
    | nil =>
      rw [List.map_cons, List.map_nil, String.intercalate_singleton, List.flatMap_cons,
        List.flatMap_nil, List.append_nil]
      exact hargument
    | cons argument' rest =>
      have hseparator : '\n' ∉ ", ".toList := by decide
      have hrest := ih (hargument.append hseparator) hlevel hbinding fun other hmem =>
        harguments other (List.mem_cons_of_mem _ hmem)
      rw [Header.add_add, List.map_cons] at hrest
      rw [List.map_cons, List.map_cons, String.intercalate_cons_cons, String.toList_append,
        String.toList_append, read_append, read_append, List.flatMap_cons]
      exact hrest

end Decoder

/-! ### Calls -/

namespace Call

/-- A call in which every name can be told from what follows it, and lines end
only where they have to. -/
inductive Legible (binding : String) : Call → Prop
  | mk {construct : Construct} {arguments : List Argument} {children : List Call} :
    IsWord construct.simpleName → (∀ argument ∈ arguments, argument.Legible binding) →
    (∀ call ∈ children, call.Legible binding) → Legible binding ⟨construct, arguments, children⟩

mutual

/-- The structure of a call. -/
def shape : Call → Shape
  | ⟨construct, arguments, children⟩ =>
    ⟨construct.simpleName, arguments.flatMap Argument.callbacks, shapeAll children⟩

/-- The structure of some calls. -/
def shapeAll : List Call → List Shape
  | [] => []
  | call :: rest => call.shape :: shapeAll rest

end

mutual

/-- The constructs of a call at a level, each with the columns in front of it. -/
def headings (level : Nat) : Call → List (Nat × String)
  | ⟨construct, _, children⟩ =>
    (4 * level, construct.simpleName) :: headingsAll (level + 1) children

/-- The constructs of some calls at a level. -/
def headingsAll (level : Nat) : List Call → List (Nat × String)
  | [] => []
  | call :: rest => headings level call ++ headingsAll level rest

end

/-- The text of a call with a block, up to the calls in it. -/
def opening (binding : String) (level : Nat) (construct : Construct) (arguments : List Argument) :
    String :=
  Kotlin.indent level ++ construct.simpleName
    ++ (if arguments.isEmpty then "" else argumentList binding level arguments) ++ " \x7b\n"

/-- The text of a call with a block behind the calls in it. -/
def closing (level : Nat) : String :=
  Kotlin.indent level ++ "\x7d\n"

theorem toList_block (construct : Construct) (arguments : List Argument) (child : Call)
    (rest : List Call) :
    (block binding level ⟨construct, arguments, child :: rest⟩).toList
      = (opening binding level construct arguments).toList
        ++ ((blocks binding (level + 1) (child :: rest)).toList ++ (closing level).toList) := by
  rw [← String.toList_append, ← String.toList_append]
  simp only [block, blocks, opening, closing, String.append_assoc]

end Call

namespace Decoder

/-- More calls and constructs have been read. -/
def Scan.found (scan : Scan) (shapes : List Shape) (constructs : List (Nat × String)) : Scan :=
  { scan with shapes := scan.shapes ++ shapes, constructs := scan.constructs ++ constructs }

theorem Scan.found_nil (scan : Scan) : scan.found [] [] = scan := by
  rw [found, List.append_nil, List.append_nil]

theorem Scan.found_found (scan : Scan) (shapes shapes' : List Shape)
    (constructs constructs' : List (Nat × String)) :
    (scan.found shapes constructs).found shapes' constructs'
      = scan.found (shapes ++ shapes') (constructs ++ constructs') := by
  simp [found]

section Calls

variable {construct : Construct} {arguments : List Argument}

theorem read_name {name : String} (hname : IsWord name) {c : Char} (hc : c ≠ '\n') :
    read binding start ⟨scan, []⟩ ((Kotlin.indent level).toList ++ (name.toList ++ [c]))
      = ⟨scan, (Kotlin.indent level).toList ++ (name.toList ++ [c])⟩ := by
  have hline : '\n' ∉ (Kotlin.indent level).toList ++ (name.toList ++ [c]) := by
    simp only [List.mem_append, List.mem_singleton, not_or]
    exact ⟨newLine_not_mem_indent level, fun hmem => hname.ne_of_mem hmem (by decide +kernel) rfl,
      hc.symm⟩
  rw [read_of_not_mem hline, List.nil_append]

/-- A construct and its arguments have been read, up to the parenthesis that closes them. -/
theorem heads_arguments (hname : IsWord construct.simpleName) (hcallback : scan.callback = none)
    (hlevel : level = start + scan.frames.length) (hbinding : '\n' ∉ binding.toList)
    (harguments : ∀ argument ∈ arguments, argument.Legible binding) :
    Heads binding start (read binding start ⟨scan, []⟩
        (((Kotlin.indent level).toList ++ (construct.simpleName.toList ++ ['('])) ++
          (", ".intercalate (arguments.map (Argument.source binding level))).toList))
      (scan.opened (4 * level, construct.simpleName))
      ⟨construct.simpleName, arguments.flatMap Argument.callbacks⟩ := by
  have hopen : Text.isWordCharacter '(' = false := by decide +kernel
  rw [read_append, read_name hname (by decide)]
  exact (heads_open hname hcallback hlevel hopen).arguments hlevel hbinding harguments

/-- A call without a block. -/
theorem read_leaf (hname : IsWord construct.simpleName) (hcallback : scan.callback = none)
    (hlevel : level = start + scan.frames.length) (hbinding : '\n' ∉ binding.toList)
    (harguments : ∀ argument ∈ arguments, argument.Legible binding) :
    read binding start ⟨scan, []⟩ (Call.block binding level ⟨construct, arguments, []⟩).toList
      = ⟨scan.found [⟨construct.simpleName, arguments.flatMap Argument.callbacks, []⟩]
          [(4 * level, construct.simpleName)], []⟩ := by
  have htext : (Call.block binding level ⟨construct, arguments, []⟩).toList
      = (((Kotlin.indent level).toList ++ (construct.simpleName.toList ++ ['('])) ++
          (", ".intercalate (arguments.map (Argument.source binding level))).toList)
        ++ ([')'] ++ ['\n']) := by
    simp [Call.block, argumentList]
  have hheads := heads_arguments hname hcallback hlevel hbinding harguments
  rw [htext, read_append, hheads.endLine (by decide), Scan.endLine, ending_nothing]
  obtain ⟨shapes, frames, callback, constructs⟩ := scan
  cases hcallback
  rfl

/-- The first lines of a call with a block. -/
theorem read_opening (hname : IsWord construct.simpleName) (hcallback : scan.callback = none)
    (hlevel : level = start + scan.frames.length) (hbinding : '\n' ∉ binding.toList)
    (harguments : ∀ argument ∈ arguments, argument.Legible binding) :
    read binding start ⟨scan, []⟩ (Call.opening binding level construct arguments).toList
      = ⟨(scan.opened (4 * level, construct.simpleName)).inside
          ⟨construct.simpleName, arguments.flatMap Argument.callbacks⟩, []⟩ := by
  cases arguments with
  | nil =>
    have htext : (Call.opening binding level construct []).toList
        = ((Kotlin.indent level).toList ++ (construct.simpleName.toList ++ [' ']))
          ++ (['{'] ++ ['\n']) := by
      simp [Call.opening]
    have hopen : Text.isWordCharacter ' ' = false := by decide +kernel
    have hending : ending ((Kotlin.indent level).toList
        ++ (construct.simpleName.toList ++ [' ']) ++ ['{']) = .block := by
      simpa using ending_word hname (Kotlin.indent level).toList
    rw [htext, read_append, read_name hname (by decide),
      (heads_open hname hcallback hlevel hopen).endLine (by decide), Scan.endLine, hending]
    rfl
  | cons argument rest =>
    have htext : (Call.opening binding level construct (argument :: rest)).toList
        = (((Kotlin.indent level).toList ++ (construct.simpleName.toList ++ ['('])) ++
            (", ".intercalate ((argument :: rest).map (Argument.source binding level))).toList)
          ++ ([')', ' ', '{'] ++ ['\n']) := by
      simp [Call.opening, argumentList]
    have hheads := heads_arguments hname hcallback hlevel hbinding harguments
    rw [htext, read_append, hheads.endLine (by decide), Scan.endLine, ending_block]

/-- The last line of a call with a block. -/
theorem read_closing (hcallback : scan.callback = none)
    (hlevel : level = start + scan.frames.length) (header : Header) (shapes : List Shape)
    (constructs : List (Nat × String)) (opening : Nat × String) :
    read binding start ⟨((scan.opened opening).inside header).found shapes constructs, []⟩
        (Call.closing level).toList
      = ⟨scan.found [⟨header.name, header.callbacks, shapes⟩] (opening :: constructs), []⟩ := by
  have htext : (Call.closing level).toList = ((Kotlin.indent level).toList ++ ['}']) ++ ['\n'] := by
    simp [Call.closing]
  have hcolumn : ((Kotlin.indent level).toList ++ ['}'])[4 * level]? = some '}' := by
    rw [getElem?_indent]
    rfl
  rw [htext, read_line (newLine_not_mem_closing level), Scan.step]
  obtain ⟨before, frames, callback, constructs'⟩ := scan
  cases hcallback
  simp only [Scan.found, Scan.inside, Scan.opened]
  rw [← hlevel, if_pos hcolumn]
  simp [read]

end Calls

mutual

/-- The block of a call is read as the call. -/
theorem read_block (hbinding : '\n' ∉ binding.toList) :
    ∀ {call : Call}, call.Legible binding → ∀ {scan : Scan} {level : Nat},
      scan.callback = none → level = start + scan.frames.length →
      read binding start ⟨scan, []⟩ (call.block binding level).toList
        = ⟨scan.found [call.shape] (call.headings level), []⟩
  | ⟨construct, arguments, []⟩, .mk hname harguments _, scan, level, hcallback, hlevel =>
    read_leaf hname hcallback hlevel hbinding harguments
  | ⟨construct, arguments, child :: rest⟩, .mk hname harguments hchildren, scan, level, hcallback,
      hlevel => by
    rw [Call.toList_block, read_append, read_append,
      read_opening hname hcallback hlevel hbinding harguments,
      read_blocks hbinding hchildren rfl (congrArg (· + 1) hlevel),
      read_closing hcallback hlevel]
    rfl

theorem read_blocks (hbinding : '\n' ∉ binding.toList) :
    ∀ {calls : List Call}, (∀ call ∈ calls, call.Legible binding) → ∀ {scan : Scan} {level : Nat},
      scan.callback = none → level = start + scan.frames.length →
      read binding start ⟨scan, []⟩ (Call.blocks binding level calls).toList
        = ⟨scan.found (Call.shapeAll calls) (Call.headingsAll level calls), []⟩
  | [], _, scan, level, _, _ => by
    rw [Call.shapeAll, Call.headingsAll, scan.found_nil]
    rfl
  | call :: rest, h, scan, level, hcallback, hlevel => by
    have hcall := read_block hbinding (h call List.mem_cons_self) hcallback hlevel
    have hfound : (scan.found [call.shape] (call.headings level)).callback = none := hcallback
    have hrest := read_blocks hbinding (fun other hmem => h other (List.mem_cons_of_mem _ hmem))
      hfound hlevel
    rw [Call.blocks, String.toList_append, read_append, hcall, hrest, Scan.found_found]
    rfl

end

end Decoder

theorem Call.decode_block {call : Call} (h : call.Legible binding)
    (hbinding : '\n' ∉ binding.toList) (level : Nat) :
    decodeBlock binding level (call.block binding level) = some call.shape ∧
    constructLines binding level (call.block binding level) = call.headings level := by
  have hread : Decoder.read binding level {} (call.block binding level).toList
      = ⟨Scan.found {} [call.shape] (call.headings level), []⟩ := read_block hbinding h rfl rfl
  constructor
  · rw [decodeBlock, hread]
    rfl
  · rw [constructLines, hread]
    rfl

end Pagewright
