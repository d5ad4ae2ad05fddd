import DistDirectives.CommandLine.Arguments
import DistDirectives.CommandLine.Display
import DistDirectives.Config.File
import DistDirectives.Run.Engine

/-!
# The command line

The command applies the directives of a project to its distribution files. The root of
the project is the current directory unless another one is asked for. The file of the
project's configuration is read next; arguments come before it, and it comes before the
standard values.

Whatever happens ends in a code and two texts: code 0 means that everything was done,
code 1 that something could not be done, and code 2 that the arguments were refused.
-/

namespace DistDirectives.CommandLine

/-- Where the program runs. -/
structure Environment where
  /-- The current directory. -/
  directory : Location
  /-- The name under which temporary files are written. -/
  writer : Text
  /-- The root that is set for all runs. -/
  root : Option Text := none

/-- What the program leaves behind besides the disk. -/
structure Outcome where
  code : Nat := 0
  output : String := ""
  errors : String := ""
  deriving DecidableEq

/-! ## Failures -/

/-- Why directives could not be applied. -/
inductive Failure where
  /-- The root of the project cannot be found. -/
  | root (path : Text) (fault : Fault)
  | config (error : Config.FileError)
  | noTargets
  | run (failure : Run.Failure)
  /-- A number of files could not be processed. -/
  | files (count : Nat)
  deriving DecidableEq

namespace Failure

/-- The failure as it is shown. -/
def message : Failure → String
  | root path fault => s!"Project root {path.toString} is not accessible: {fault.message}"
  | config error => error.message
  | noTargets =>
    "No targets given. Pass --target or set \x60targets\x60 under [directives] in dler.toml"
  | run failure => failure.message
  | files count => s!"{count} file(s) could not be processed"

/-- The code that the program ends with. -/
def code : Failure → Nat
  | run .crash => 101
  | _ => 1

end Failure

/-! ## Applying directives -/

/-- The text of a path from a directory. -/
def pathFrom (directory : Location) (path : Text) : Text :=
  if path.head? = some '/' then path
  else Text.joinWith '/' ([] :: directory) ++ '/' :: path

/-- The root of the project, with all links followed. -/
def resolveRoot (environment : Environment) (disk : Disk) (asked : Option Text) :
    Except Failure Path :=
  let path := match asked with
    | some path => pathFrom environment.directory path
    | none => '/' :: Text.joinWith '/' environment.directory
  match disk.resolve true (Disk.rawNames path) with
  | .ok (.node location _) => .ok (Path.ofText ('/' :: Text.joinWith '/' location))
  | .ok (.vacant _ _) => .error (.root path .notFound)
  | .error fault => .error (.root path fault)

/-- Runs the directives of the project at a root. -/
def runProject (environment : Environment) (arguments : Arguments) (disk : Disk) (root : Path) :
    Except Failure Run.Report × Disk :=
  match Config.ofProject disk root with
  | .error error => (.error (.config error), disk)
  | .ok config =>
    let targets := if arguments.targets.isEmpty then config.targets else arguments.targets
    if targets.isEmpty then
      (.error .noTargets, disk)
    else
      let engine : Run.Engine :=
        { root
          sourceDir := arguments.sourceDir.getD config.sourceDirOrStandard
          writer := environment.writer
          options := arguments.override config.options }
      let (result, disk) := engine.run disk targets
      (result.mapError .run, disk)

/-- The failure that a report amounts to. -/
def failureOf (result : Except Failure Run.Report) : Option Failure :=
  match result with
  | .error failure => some failure
  | .ok report => if report.isSuccess then none else some (.files report.errors.length)

/-- The report as it was asked for. -/
def shown (json : Bool) (result : Except Failure Run.Report) : String :=
  match result with
  | .error _ => ""
  | .ok report => if json then reportJson report ++ "\n" else reportLines report

/-- What is left behind when a text was put out. -/
def concluded (output : String) (failure? : Option Failure) : Outcome :=
  match failure? with
  | none => { output }
  | some failure => { code := failure.code, output, errors := s!"error: {failure.message}\n" }

/-- Applies directives as the arguments ask for. -/
def applyDirectives (environment : Environment) (arguments : Arguments) (disk : Disk) :
    Outcome × Disk :=
  match resolveRoot environment disk arguments.root with
  | .error failure => (concluded "" (some failure), disk)
  | .ok root =>
    let announcement := if arguments.json then "" else s!"=> Applying directives in {root}\n"
    let (result, disk) := runProject environment arguments disk root
    (concluded (announcement ++ shown arguments.json result) (failureOf result), disk)

/-! ## The program -/

/-- What the program says when it is asked for nothing. -/
def greeting : String := "dler directive engine\n\nRun dler --help for available commands.\n"

/-- The version of the program. -/
def versionText : String := "dler 0.1.0\n"

/-- How the program is called. -/
def helpText : String :=
  "dler - Apply source directives to bundled distribution trees\n\n" ++
  "Usage: dler [-v] directives [OPTIONS]\n       dler help [COMMAND]\n\n" ++
  "Options:\n" ++
  "  -t, --target <TARGET>            dist-npm, dist-jsr, dist-libs or dist-libs/<lib>\n" ++
  "      --root <ROOT>                Project root [env: DLER_ROOT]\n" ++
  "      --source-dir <DIR>           Source directory relative to the project root\n" ++
  "      --concurrency <N>            Files processed concurrently within a batch\n" ++
  "      --targets-concurrency <N>    Targets processed concurrently\n" ++
  "      --batch-size <N>             Files per batch\n" ++
  "      --stop-on-error              Abort on the first file that fails\n" ++
  "      --no-copy-fresh              Evaluate distribution files as they are\n" ++
  "      --dry-run                    Report what would change without writing\n" ++
  "      --json                       Print the report as JSON\n" ++
  "  -v, --verbose                    Enable verbose output\n" ++
  "  -h, --help                       Print help\n" ++
  "  -V, --version                    Print version\n"

/-- The reason of a refusal as it is shown. -/
def Refusal.message : Refusal → String
  | help => ""
  | version => ""
  | unknownArgument => "unexpected argument"
  | unknownCommand => "unrecognized subcommand"
  | missingValue => "a value is required"
  | malformedValue => "invalid value"
  | unneededValue => "unexpected value"
  | repeatedOption => "an argument cannot be used multiple times"

/-- What is left behind when arguments are refused. -/
def refused : Refusal → Outcome
  | .help => { output := helpText }
  | .version => { output := versionText }
  | refusal =>
    { code := 2, errors := s!"error: {refusal.message}\n\nFor more information, try '--help'.\n" }

/-- Runs the program. -/
def run (environment : Environment) (disk : Disk) (arguments : List Text) : Outcome × Disk :=
  match read environment.root arguments with
  | .error refusal => (refused refusal, disk)
  | .ok { directives := none, .. } => ({ output := greeting }, disk)
  | .ok { directives := some arguments, .. } => applyDirectives environment arguments disk

end DistDirectives.CommandLine
