import DistDirectives.Run.Options

/-!
# Arguments of the command line

The program has one command, `directives`, with options that have values and switches
that have none, and `help`. An option can be written in full or as a letter; letters
can be written together. The value of an option follows it or is attached to it, and
does not begin with a hyphen unless it is attached. Each option but the targets can be
given once.

Arguments are read from left to right, and the first one that is wrong decides how they
are refused. The value of an option that is not attached is taken in only when the next
option is met, or at the end.
-/

namespace DistDirectives.CommandLine

/-- The options of the command that applies directives. -/
structure Arguments where
  targets : List Text := []
  root : Option Text := none
  sourceDir : Option Text := none
  concurrency : Option Nat := none
  targetsConcurrency : Option Nat := none
  batchSize : Option Nat := none
  stopOnError : Bool := false
  noCopyFresh : Bool := false
  dryRun : Bool := false
  /-- Show the report as JSON. -/
  json : Bool := false
  deriving DecidableEq

/-- What the arguments ask for. -/
structure Request where
  verbose : Bool := false
  /-- Missing when there is no command. -/
  directives : Option Arguments := none
  deriving DecidableEq

/-- Why arguments are not carried out. -/
inductive Refusal where
  /-- The help is shown instead. -/
  | help
  /-- The version is shown instead. -/
  | version
  | unknownArgument
  | unknownCommand
  /-- An option has no value, or an empty one where that is none. -/
  | missingValue
  /-- A value is no number, or too great a one. -/
  | malformedValue
  /-- A switch has a value. -/
  | unneededValue
  /-- An option is given again. -/
  | repeatedOption
  deriving DecidableEq

/-! ## Options -/

/-- The options that have values. -/
inductive Valued where
  | target
  | root
  | sourceDir
  | concurrency
  | targetsConcurrency
  | batchSize
  deriving DecidableEq

/-- The options that have none. -/
inductive Switch where
  | verbose
  | stopOnError
  | noCopyFresh
  | dryRun
  | json
  deriving DecidableEq

/-- What can be written as an option. -/
inductive Choice where
  | valued (option : Valued)
  | switch (switch : Switch)
  | help
  | version
  deriving DecidableEq

/-- Where options stand: in front of the command, or behind it. -/
inductive Scope where
  | program
  | directives
  deriving DecidableEq

/-- The options that are written in full. -/
def longNames : Scope → List (String × Choice)
  | .program => [("verbose", .switch .verbose), ("help", .help), ("version", .version)]
  | .directives =>
    [("target", .valued .target), ("root", .valued .root), ("source-dir", .valued .sourceDir),
      ("concurrency", .valued .concurrency),
      ("targets-concurrency", .valued .targetsConcurrency), ("batch-size", .valued .batchSize),
      ("stop-on-error", .switch .stopOnError), ("no-copy-fresh", .switch .noCopyFresh),
      ("dry-run", .switch .dryRun), ("json", .switch .json), ("verbose", .switch .verbose),
      ("help", .help)]

/-- The options that are written as letters. -/
def letters : Scope → List (Char × Choice)
  | .program => [('v', .switch .verbose), ('h', .help), ('V', .version)]
  | .directives => [('t', .valued .target), ('v', .switch .verbose), ('h', .help)]

/-- The option of a name. -/
def longOption? (scope : Scope) (name : Text) : Option Choice :=
  ((longNames scope).find? fun entry => entry.1.toList = name).map (·.2)

/-- The option of a letter. -/
def letterOption? (scope : Scope) (letter : Char) : Option Choice :=
  ((letters scope).find? fun entry => entry.1 = letter).map (·.2)

/-! ## Reading -/

/-- What has been read. -/
structure Reading where
  verbose : Bool := false
  arguments : Arguments := {}
  /-- The last option if its value has not been taken in, with that value if it has been
  met. -/
  pending : Option (Valued × Option Text) := none

namespace Reading

/-- The value of an option that can be given once. -/
def once {α : Type} (given : Option α) (value : Except Refusal α) : Except Refusal (Option α) :=
  if given.isSome then .error .repeatedOption else value.map some

/-- A number of at most 64 bits, with or without a plus sign. -/
def number (text : Text) : Except Refusal Nat :=
  let digits := match text with
    | '+' :: rest => rest
    | rest => rest
  let value := digits.foldl (fun value c => value * 10 + (c.toNat - '0'.toNat)) 0
  if !digits.isEmpty && digits.all Char.isDigit && value < Nat.pow 2 64 then .ok value
  else .error .malformedValue

/-- A directory, which has a name. -/
def directory (text : Text) : Except Refusal Text :=
  if text.isEmpty then .error .missingValue else .ok text

/-- The arguments with the value of an option. -/
def withValue (arguments : Arguments) (option : Valued) (value : Text) :
    Except Refusal Arguments := do
  match option with
  | .target => return { arguments with targets := arguments.targets ++ [value] }
  | .root => return { arguments with root := ← once arguments.root (directory value) }
  | .sourceDir => return { arguments with sourceDir := ← once arguments.sourceDir (.ok value) }
  | .concurrency =>
    return { arguments with concurrency := ← once arguments.concurrency (number value) }
  | .targetsConcurrency =>
    return { arguments with
      targetsConcurrency := ← once arguments.targetsConcurrency (number value) }
  | .batchSize =>
    return { arguments with batchSize := ← once arguments.batchSize (number value) }

/-- Takes in the value of the last option. -/
def settle (reading : Reading) : Except Refusal Reading := do
  match reading.pending with
  | none => return reading
  | some (_, none) => throw .missingValue
  | some (option, some value) =>
    return { reading with arguments := ← withValue reading.arguments option value, pending := none }

/-- The reading with a switch on, which was off before. -/
def turnOn (reading : Reading) (switch : Switch) : Except Refusal Reading :=
  let arguments := reading.arguments
  let (before, after) := match switch with
    | .verbose => (reading.verbose, { reading with verbose := true })
    | .stopOnError =>
      (arguments.stopOnError, { reading with arguments := { arguments with stopOnError := true } })
    | .noCopyFresh =>
      (arguments.noCopyFresh, { reading with arguments := { arguments with noCopyFresh := true } })
    | .dryRun => (arguments.dryRun, { reading with arguments := { arguments with dryRun := true } })
    | .json => (arguments.json, { reading with arguments := { arguments with json := true } })
  if before then .error .repeatedOption else .ok after

/-- The reading behind an option, which can have a value attached. -/
def choose (reading : Reading) (choice : Choice) (attached : Option Text) :
    Except Refusal Reading := do
  match choice, attached with
  | .valued option, some value =>
    let reading ← reading.settle
    return { reading with arguments := ← withValue reading.arguments option value }
  | .valued option, none => return { (← reading.settle) with pending := some (option, none) }
  | _, some _ => throw .unneededValue
  | .switch switch, none => (← reading.settle).turnOn switch
  | .help, none =>
    discard reading.settle
    throw .help
  | .version, none =>
    discard reading.settle
    throw .version

/-- The reading behind letters that are written together. What follows the letter of an
option with a value is its value, with or without an equals sign before it. -/
def chooseLetters (scope : Scope) : Reading → Text → Except Refusal Reading
  | reading, [] => .ok reading
  | reading, letter :: rest =>
    match letterOption? scope letter with
    | none => .error .unknownArgument
    | some (.valued option) =>
      let attached := match rest with
        | [] => none
        | '=' :: value => some value
        | value => some value
      reading.choose (.valued option) attached
    | some choice => do chooseLetters scope (← reading.choose choice none) rest

/-- The reading behind an option that is written in full. A value is attached with an
equals sign. -/
def chooseLong (scope : Scope) (reading : Reading) (text : Text) : Except Refusal Reading :=
  let attached := match text.dropWhile (· ≠ '=') with
    | [] => none
    | _ :: value => some value
  match longOption? scope (text.takeWhile (· ≠ '=')) with
  | none => .error .unknownArgument
  | some choice => reading.choose choice attached

/-- The reading behind an argument that begins with a hyphen and goes on, or `none` if
the argument is no option. -/
def chooseWritten? (scope : Scope) (reading : Reading) :
    Text → Option (Except Refusal Reading)
  | '-' :: '-' :: name => some (chooseLong scope reading name)
  | '-' :: c :: rest => some (chooseLetters scope reading (c :: rest))
  | _ => none

end Reading

/-! ## The command -/

/-- The mark behind which nothing is an option. -/
def escape : Text := ['-', '-']

/-- The arguments behind the command. There is nothing but options among them. -/
def readOptions : Reading → List Text → Except Refusal Reading
  | reading, [] => reading.settle
  | reading, argument :: rest =>
    if argument = escape then
      if rest.isEmpty then reading.settle else .error .unknownArgument
    else
      match reading.chooseWritten? .directives argument with
      | some (.ok reading) => readOptions reading rest
      | some (.error refusal) => .error refusal
      | none =>
        match reading.pending with
        | some (option, none) =>
          readOptions { reading with pending := some (option, some argument) } rest
        | _ => .error .unknownArgument

/-- The arguments with the root that is set for all runs, which counts where none is
given. -/
def withRoot (arguments : Arguments) (fallback : Option Text) : Except Refusal Arguments := do
  match arguments.root, fallback with
  | none, some value => return { arguments with root := some (← Reading.directory value) }
  | _, _ => return arguments

/-- The name of the command. -/
def commandName : Text := "directives".toList

/-- The name of the command that shows the help. -/
def helpName : Text := "help".toList

/-- Whether an argument is the name of a command. -/
def isCommand (argument : Text) : Bool := argument = commandName || argument = helpName

/-- How the arguments behind the help command are refused. They can name one command. -/
def helpOn : List Text → Refusal
  | [] => .help
  | [name] => if isCommand name then .help else .unknownCommand
  | _ => .unknownCommand

/-- What arguments ask for. A root can be set for all runs. -/
def readFrom (rootVariable : Option Text) : Reading → List Text → Except Refusal Request
  | reading, [] => .ok { verbose := reading.verbose }
  | reading, argument :: rest =>
    if argument = commandName then do
      let behind ← readOptions {} rest
      let arguments ← withRoot behind.arguments rootVariable
      return { verbose := reading.verbose || behind.verbose, directives := some arguments }
    else if argument = helpName then
      .error (helpOn rest)
    else if argument = escape then
      match rest with
      | [] => .ok { verbose := reading.verbose }
      | next :: _ => .error (if isCommand next then .unknownArgument else .unknownCommand)
    else
      match reading.chooseWritten? .program argument with
      | some (.ok reading) => readFrom rootVariable reading rest
      | some (.error refusal) => .error refusal
      | none => .error .unknownCommand

/-- What arguments ask for, or how they are refused. A root can be set for all runs. -/
def read (rootVariable : Option Text) (arguments : List Text) : Except Refusal Request :=
  readFrom rootVariable {} arguments

/-! ## Overrides -/

/-- The options of a run with those that the arguments set. -/
def Arguments.override (arguments : Arguments) (options : Run.Options) : Run.Options :=
  { options with
    concurrency := arguments.concurrency.getD options.concurrency
    targetsConcurrency := arguments.targetsConcurrency.getD options.targetsConcurrency
    batchSize := arguments.batchSize.getD options.batchSize
    stopOnError := arguments.stopOnError || options.stopOnError
    copyFreshFromSource := !arguments.noCopyFresh && options.copyFreshFromSource
    dryRun := arguments.dryRun || options.dryRun }

end DistDirectives.CommandLine
