/-
What the program does.

* `resolveJob` — joins the options of a run with the manifest of the project, which is looked for
  from the working directory upwards unless its path is given;
* `runCommand` — carries out a command and yields its exit code and what it prints;
* `run` — the same for the arguments of the command line.

The log is no part of an outcome.  At its default level it writes lines of its own to the stream of
the errors: for a manifest that was searched for and found, for a page file that is skipped, for
every page that is generated or fails, and for a file that cannot be put back.
-/
import Pagewright.CommandLine.Arguments
import Pagewright.Generate
import Pagewright.Load
import Pagewright.Page.Outline

namespace Pagewright.CommandLine

variable {m : Type → Type} [Monad m] [FileSystem m]

/-- An error that ends a run, with what caused it. -/
structure Abort where
  message : String
  causes : List String := []
  deriving DecidableEq, Repr

/-- A text whose lines after the first one stand further in. -/
def indentLines (columns : Nat) (text : String) : String :=
  String.ofList (text.toList.flatMap fun c =>
    if c = '\n' then '\n' :: List.replicate columns ' ' else [c])

/-- The numbered lines of several causes. -/
def numberedCauses (number : Nat) : List String → String
  | [] => ""
  | cause :: causes =>
    let digits := toString number
    String.ofList (List.replicate (5 - digits.length) ' ') ++ digits ++ ": "
      ++ indentLines 7 cause ++ "\n" ++ numberedCauses (number + 1) causes

/-- How an error is reported. -/
def Abort.text (abort : Abort) : String :=
  "Error: " ++ abort.message ++ "\n" ++
    match abort.causes with
    | [] => ""
    | [cause] => "\nCaused by:\n    " ++ indentLines 4 cause ++ "\n"
    | causes => "\nCaused by:\n" ++ numberedCauses 0 causes

/-- What a run leaves behind on its terminal.  The errors are without the lines of the log. -/
structure Outcome where
  code : Nat
  output : String := ""
  errors : String := ""
  deriving DecidableEq, Repr

/-- The outcome of an error after something was printed. -/
def Outcome.aborted (abort : Abort) (output errors : String) : Outcome :=
  ⟨1, output, errors ++ abort.text⟩

/-- The first of some paths that leads to anything. -/
def firstExisting : List String → m (Option String)
  | [] => return none
  | path :: paths => do
    if ← FileSystem.pathExists path then return some path
    else firstExisting paths

/-- The manifest in the working directory or the nearest directory above it. -/
def searchManifest : m (Except Abort (Option String)) := do
  match ← FileSystem.workingDirectory with
  | .error refusal => return .error ⟨"failed to get current directory", [refusal.message]⟩
  | .ok directory =>
    let candidates := (Path.ancestors directory).map (Path.join · Manifest.fileName)
    return .ok (← firstExisting candidates)

/-- The path of a manifest.  Only one that was not asked for may be missing. -/
def findManifest (path : String) : m (Except Abort (Option String)) := do
  if ← FileSystem.pathExists path then return .ok (some path)
  else if path = Manifest.fileName then searchManifest
  else return .error ⟨"manifest not found: " ++ path, []⟩

/-- Reads a manifest, with its paths placed below its directory. -/
def loadManifest (path : String) : m (Except Abort Manifest) := do
  match ← loadDocument Manifest.reader path with
  | .error refusal => return .error ⟨"failed to open manifest: " ++ path, [refusal.message]⟩
  | .ok (.error error) => return .error ⟨"failed to parse manifest: " ++ path, [error.message]⟩
  | .ok (.ok manifest) =>
    match ← FileSystem.canonical path with
    | .error refusal => return .error ⟨refusal.message, []⟩
    | .ok canonical =>
      match Path.parent? canonical with
      | some directory => return .ok (manifest.resolve directory)
      | none => return .ok manifest

/-- The manifest of a run, if there is one. -/
def projectManifest (path : String) : m (Except Abort (Option Manifest)) := do
  match ← findManifest path with
  | .error abort => return .error abort
  | .ok none => return .ok none
  | .ok (some path) => return (← loadManifest path).map some

/-- What a failure to load a table is caused by, in turn. -/
def registryCauses (failure : Failure) : List String :=
  failure.message :: match failure with
    | .storage refusal => [refusal.message]
    | _ => []

/-- The table at a path, or the built-in one. -/
def activeRegistry (path? : Option String) : m (Except Abort Registry) := do
  match path? with
  | none => return .ok .compose
  | some path =>
    return (← loadRegistry path).mapError fun failure =>
      ⟨"failed to load registry: " ++ path, registryCauses failure⟩

/-- Everything that a run of generation needs. -/
structure Job where
  sources : List String
  output : String
  registry : Registry
  settings : Settings

/-- The page sources of a run. -/
def jobSources (options : GenerateOptions) (manifest? : Option Manifest) : List String :=
  if options.pages.isEmpty then (manifest?.map (·.pages)).getD ["pages"] else options.pages

/-- The output directory of a run. -/
def jobOutput (options : GenerateOptions) (manifest? : Option Manifest) : String :=
  (options.output? <|> manifest?.map (·.output)).getD "generated"

/-- The options of generation of a run. -/
def jobSettings (options : GenerateOptions) (manifest? : Option Manifest) : Settings :=
  let declared := (manifest?.map (·.settings)).getD {}
  { binding := options.binding?.getD declared.binding
    package? := options.package? <|> declared.package?
    strict := options.strict || declared.strict }

/-- The first of some paths that leads nowhere. -/
def firstMissing : List String → m (Option String)
  | [] => return none
  | path :: paths => do
    if ← FileSystem.pathExists path then firstMissing paths
    else return some path

/-- The job of a run. -/
def resolveJob (options : GenerateOptions) : m (Except Abort Job) := do
  match ← projectManifest options.manifest with
  | .error abort => return .error abort
  | .ok manifest? =>
    let sources := jobSources options manifest?
    match ← firstMissing sources with
    | some source => return .error ⟨"page source not found: " ++ source, []⟩
    | none =>
      match ← activeRegistry (options.table? <|> manifest?.bind (·.table?)) with
      | .error abort => return .error abort
      | .ok registry =>
        return .ok ⟨sources, jobOutput options manifest?, registry,
          jobSettings options manifest?⟩

/-- What is printed about a page that was generated. -/
def reportOutput (report : PageReport) : String :=
  match report.outcome with
  | .ok (some artifacts) =>
    "Generated " ++ report.page ++ ": " ++ artifacts.stateHolder ++ ", " ++ artifacts.view ++ "\n"
  | .ok none => "Checked " ++ report.page ++ "\n"
  | .error _ => ""

/-- What is printed about a page that failed. -/
def reportErrors (report : PageReport) : String :=
  match report.outcome with
  | .ok _ => ""
  | .error failure => "error: page " ++ report.page ++ ": " ++ failure.message ++ "\n"

/-- What is printed about files that could not be read. -/
def sourceErrors (failures : List SourceFailure) : String :=
  String.join (failures.map fun failure => "error: " ++ failure.failure.message ++ "\n")

/-- The outcome of pages that were generated, `unreadable` more files having no page. -/
def reportOutcome (reports : List PageReport) (unreadable : List SourceFailure)
    (emitted : String) : Outcome :=
  let output := String.join (reports.map reportOutput)
  let errors := sourceErrors unreadable ++ String.join (reports.map reportErrors)
  let failed := unreadable.length + (reports.filter (!·.isOk)).length
  if failed = 0 then ⟨0, output ++ emitted, errors⟩
  else
    .aborted ⟨toString failed ++ " of " ++ toString (reports.length + unreadable.length)
      ++ " pages failed", []⟩ output errors

/-- Carries out a job. -/
def runJob (job : Job) (dryRun : Bool) : m Outcome := do
  match ← extract job.sources with
  | .error refusal => return .aborted ⟨(Failure.storage refusal).message, []⟩ "" ""
  | .ok extraction =>
    if extraction.pages.isEmpty && extraction.failures.isEmpty then
      return .aborted ⟨"no page definitions found", []⟩ "" ""
    else
      match ← emit extraction.pages job.output job.registry job.settings dryRun with
      | .error failure =>
        return .aborted ⟨failure.message, []⟩ "" (sourceErrors extraction.failures)
      | .ok reports =>
        return reportOutcome reports extraction.failures
          (if dryRun then "" else "Emitted compose output to " ++ job.output ++ "\n")

/-- Generates or checks the pages of a project. -/
def runGenerate (options : GenerateOptions) (dryRun : Bool) : m Outcome := do
  match ← resolveJob options with
  | .error abort => return .aborted abort "" ""
  | .ok job => runJob job dryRun

/-- Prints the outline of a page. -/
def runOutline (file : String) : m Outcome := do
  match ← loadPage file with
  | .error failure => return .aborted ⟨failure.message, []⟩ "" ""
  | .ok page => return ⟨0, page.outline ++ "\n", ""⟩

/-- What is printed about a manifest. -/
def manifestText (manifest : Manifest) : String :=
  "Project: " ++ manifest.name ++ "\n" ++ "Output:  " ++ manifest.output ++ "\n"
    ++ ((manifest.package?.map fun name => "Package: " ++ name ++ "\n").getD "")
    ++ ((manifest.table?.map fun path => "Registry: " ++ path ++ "\n").getD "")
    ++ "Strict:  " ++ (if manifest.strict then "true" else "false") ++ "\n" ++ "Pages:\n"
    ++ String.join (manifest.pages.map fun page => "  - " ++ page ++ "\n")

/-- Prints what a manifest says. -/
def runInfo (path : String) : m Outcome := do
  match ← projectManifest path with
  | .error abort => return .aborted abort "" ""
  | .ok none => return .aborted ⟨"manifest not found: " ++ path, []⟩ "" ""
  | .ok (some manifest) => return ⟨0, manifestText manifest, ""⟩

/-- Prints a table. -/
def runRegistry (path? : Option String) : m Outcome := do
  match ← activeRegistry path? with
  | .error abort => return .aborted abort "" ""
  | .ok registry => return ⟨0, registry.toJson.pretty ++ "\n", ""⟩

/-- Carries out a command. -/
def runCommand : Command → m Outcome
  | .generate options dryRun => runGenerate options dryRun
  | .outline file => runOutline file
  | .info manifest => runInfo manifest
  | .registry path? => runRegistry path?

/-- How the program is used. -/
def usage : String :=
  "Usage: pagegen [-v] [generate|check|print-ir FILE|info|registry] [OPTIONS]\n"

/-- Does what some arguments ask for. -/
def run (arguments : List String) : m Outcome :=
  match Invocation.parse arguments with
  | .run command => runCommand command
  | .help => return ⟨0, usage, ""⟩
  | .refused => return ⟨2, "", usage⟩

end Pagewright.CommandLine
