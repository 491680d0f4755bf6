/-
The arguments of the command line.

* `Invocation.parse` — what some arguments ask for.  Options have long names; a value follows its
  option or an equals sign, and does not start with a dash unless it is one or follows the equals
  sign.  After `--` nothing is an option.  An option is given once, except for page sources.
-/
import Pagewright.Manifest.Basic

namespace Pagewright.CommandLine

/-- The options of `generate` and `check`. -/
structure GenerateOptions where
  manifest : String := Manifest.fileName
  pages : List String := []
  output? : Option String := none
  table? : Option String := none
  package? : Option String := none
  binding? : Option String := none
  strict : Bool := false
  deriving DecidableEq, Repr

/-- What the program can do. -/
inductive Command
  /-- Generates pages, or only checks them. -/
  | generate (options : GenerateOptions) (dryRun : Bool)
  /-- Prints the outline of a page. -/
  | outline (file : String)
  /-- Prints what a manifest says. -/
  | info (manifest : String)
  /-- Prints a table. -/
  | registry (table? : Option String)
  deriving DecidableEq, Repr

/-- What some arguments ask for. -/
inductive Invocation
  | run (command : Command)
  | help
  | refused
  deriving DecidableEq, Repr

/-- What an option takes. -/
inductive OptionKind
  | flag
  | text
  | path
  deriving DecidableEq, Repr

/-- An option of a command. -/
structure OptionForm where
  name : String
  kind : OptionKind
  repeatable : Bool := false
  deriving DecidableEq, Repr

/-- A command: its name, its options and how many words it takes besides. -/
structure CommandForm where
  name : String
  options : List OptionForm
  words : Nat := 0

/-- The option that every command has. -/
def verboseOption : OptionForm := ⟨"verbose", .flag, false⟩

/-- The options of `generate` and `check`. -/
def generateOptions : List OptionForm := [
  verboseOption,
  ⟨"manifest", .path, false⟩,
  ⟨"pages", .path, true⟩,
  ⟨"output", .path, false⟩,
  ⟨"registry", .path, false⟩,
  ⟨"package", .text, false⟩,
  ⟨"binding", .text, false⟩,
  ⟨"strict", .flag, false⟩]

/-- The commands. -/
def commands : List CommandForm := [
  ⟨"generate", generateOptions, 0⟩,
  ⟨"check", generateOptions, 0⟩,
  ⟨"print-ir", [verboseOption], 1⟩,
  ⟨"info", [verboseOption, ⟨"manifest", .path, false⟩], 0⟩,
  ⟨"registry", [verboseOption, ⟨"registry", .path, false⟩], 0⟩]

/-- The options and words of a command, in the order in which they were given. -/
structure Given where
  options : List (String × String) := []
  words : List String := []

/-- The values of an option. -/
def Given.values (given : Given) (name : String) : List String :=
  (given.options.filter (·.1 = name)).map Prod.snd

/-- The value of an option. -/
def Given.value? (given : Given) (name : String) : Option String :=
  (given.values name).head?

/-- Whether an option was given. -/
def Given.has (given : Given) (name : String) : Bool :=
  (given.value? name).isSome

/-- Why arguments ask for no command. -/
inductive Stop
  | help
  | refused
  deriving DecidableEq, Repr

/-- Adds an option. -/
def addOption (given : Given) (form : OptionForm) (value : String) : Except Stop Given :=
  if given.has form.name && !form.repeatable then .error .refused
  else if form.kind = .path && value.isEmpty then .error .refused
  else .ok { given with options := given.options ++ [(form.name, value)] }

/-- Adds a word, of which a path may not be empty. -/
def addWord (form : CommandForm) (given : Given) (word : String) : Except Stop Given :=
  if given.words.length < form.words && !word.isEmpty then
    .ok { given with words := given.words ++ [word] }
  else .error .refused

/-- Cuts a long option into its name and the value after the equals sign. -/
def splitLong (option : List Char) : String × Option String :=
  let name := option.takeWhile (· != '=')
  (String.ofList name,
    if name.length < option.length then some (String.ofList (option.drop (name.length + 1)))
    else none)

/-- Adds the options of a word of single letters. -/
def addLetters (form : CommandForm) (given : Given) : List Char → Except Stop Given
  | [] => .ok given
  | 'h' :: _ => .error .help
  | 'v' :: letters =>
    if form.options.contains verboseOption then do
      addLetters form (← addOption given verboseOption "") letters
    else .error .refused
  | _ => .error .refused

/-- Whether a word can be the value of the option before it. -/
def isValue (word : String) : Bool :=
  word = "-" || word.toList.head? != some '-'

/-- What one argument is. -/
inductive Token
  | escape
  | long (name : String) (value? : Option String)
  | short (letters : List Char)
  | word

/-- Tells what an argument is. -/
def Token.ofArgument (argument : String) : Token :=
  match argument.toList with
  | ['-', '-'] => .escape
  | '-' :: '-' :: option => let (name, value?) := splitLong option; .long name value?
  | '-' :: letter :: letters => .short (letter :: letters)
  | _ => .word

/-- Adds an option by its long name; `some` tells that the argument after it is its value. -/
def addLong (form : CommandForm) (given : Given) (name : String) (value? : Option String)
    (next? : Option String) : Except Stop (Given × Bool) :=
  match form.options.find? (·.name = name) with
  | none => .error (if name = "help" && value?.isNone then .help else .refused)
  | some option =>
    match option.kind, value? with
    | .flag, none => (·, false) <$> addOption given option ""
    | .flag, some _ => .error .refused
    | _, some value => (·, false) <$> addOption given option value
    | _, none =>
      match next? with
      | some value =>
        if isValue value then (·, true) <$> addOption given option value else .error .refused
      | none => .error .refused

/-- Goes through the arguments of a command.  `skip` tells that the next argument is a value that
has been taken, and `literal` that no options follow. -/
def gather (form : CommandForm) (literal skip : Bool) (given : Given) :
    List String → Except Stop Given
  | [] => .ok given
  | argument :: arguments => do
    if skip then gather form literal false given arguments
    else if literal then gather form true false (← addWord form given argument) arguments
    else
      match Token.ofArgument argument with
      | .escape => gather form true false given arguments
      | .word => gather form false false (← addWord form given argument) arguments
      | .short letters => gather form false false (← addLetters form given letters) arguments
      | .long name value? =>
        let (given, taken) ← addLong form given name value? arguments.head?
        gather form false taken given arguments

/-- The command that options and words make up. -/
def Command.ofGiven (name : String) (given : Given) : Except Stop Command :=
  let options : GenerateOptions := {
    manifest := (given.value? "manifest").getD Manifest.fileName
    pages := given.values "pages"
    output? := given.value? "output"
    table? := given.value? "registry"
    package? := given.value? "package"
    binding? := given.value? "binding"
    strict := given.has "strict" }
  match name, given.words with
  | "generate", _ => .ok (.generate options false)
  | "check", _ => .ok (.generate options true)
  | "print-ir", [file] => .ok (.outline file)
  | "info", _ => .ok (.info options.manifest)
  | "registry", _ => .ok (.registry options.table?)
  | _, _ => .error .refused

/-- What the program takes before a command. -/
def mainForm : CommandForm := ⟨"", [verboseOption], 0⟩

/-- Asks for help on some commands. -/
def helpOn (names : List String) : Stop :=
  match names with
  | [] => .help
  | [name] => if name = "help" || commands.any (·.name = name) then .help else .refused
  | _ => .refused

/-- Goes through all arguments up to a command, and through those of the command. -/
def gatherCommand (given : Given) : List String → Except Stop Command
  | [] => .ok (.generate {} false)
  | argument :: arguments =>
    if argument = "help" then .error (helpOn arguments)
    else match commands.find? (·.name = argument) with
      | some form => gather form false false {} arguments >>= Command.ofGiven form.name
      | none => do
        let given ← gather mainForm false false given [argument]
        if argument = "--" then
          let _ ← gather mainForm true false given arguments
          return .generate {} false
        else gatherCommand given arguments

/-- What some arguments ask for. -/
def Invocation.parse (arguments : List String) : Invocation :=
  match gatherCommand {} arguments with
  | .ok command => .run command
  | .error .help => .help
  | .error .refused => .refused

end Pagewright.CommandLine
