import DistDirectives.Document
import DistDirectives.Run.Options

/-!
# Project configuration

A project can have a configuration file with a table `directives`. Its entries have
names, some of them two; an entry that is missing has its standard value, an entry
with another name is passed over, and an entry that is given twice, be it under its two
names, makes the whole file unreadable. So does a value of another kind than expected.

The source directory and the targets also accept the spelling of words. The options are
read from atoms only, and everything in the table besides the source directory and the
targets has to be a value that can be held.

References are followed wherever something is read, and there is a bound on how often.
-/

namespace DistDirectives

/-- The configuration of a project. -/
structure Config where
  /-- The source directory, if the file names one. -/
  sourceDir : Option Text := none
  /-- The targets of runs that are asked for none. -/
  targets : List Text := []
  options : Run.Options := {}
  deriving DecidableEq

namespace Config

/-! ## Reading documents -/

/-- What can be read from documents, given what their references stand for and how many
of them may still be followed; or the refusal to read them. -/
abbrev Reader := ReaderT (List (Nat × Document)) (StateT Nat Option)

namespace Reader

/-- The refusal to read a document. -/
def refuse {α : Type} : Reader α := fun _ _ => none

/-- What is read without following references. -/
def ofOption {α : Type} (result? : Option α) : Reader α :=
  fun _ left => result?.map fun result => (result, left)

/-- What the reference with a number stands for, if it may be followed. -/
def follow (number : Nat) : Reader Document := fun targets left =>
  match left with
  | 0 => none
  | left + 1 => (targets.lookup number).map fun target => (target, left)

/-- The document that stands at a place. -/
def resolve : Document → Reader Document
  | .reference number => follow number
  | document => return document

end Reader

open Reader

/-! ## Values of an expected kind -/

/-- The text that a document stands for where a text is expected. -/
def asText (document : Document) : Reader Text := do
  match ← resolve document with
  | .atom (.text text) => return text
  | .word word => return word.spelling
  | _ => refuse

/-- The text that a document stands for where it may be missing. -/
def asOptionalText (document : Document) : Reader (Option Text) := do
  match ← resolve document with
  | .atom .null => return none
  | .atom (.text text) => return some text
  | .word word =>
    match word.presence with
    | .present => return some word.spelling
    | .missing => return none
    | .unclear => refuse
  | _ => refuse

/-- The texts of a list. -/
def asTexts (document : Document) : Reader (List Text) := do
  match (← resolve document).unmarked with
  | .list items => items.mapM asText
  | .word word => if word.isBlank then return [] else refuse
  | _ => refuse

/-- The entries of a table by their keys. -/
abbrev Fields := List (Text × Document)

/-- The entries of a table whose keys are texts. A moment is a table too, with an entry
that has no meaning here. -/
def asFields (document : Document) : Reader Fields := do
  match (← resolve document).unmarked with
  | .table entries => entries.mapM fun entry => return (← asText entry.1, entry.2)
  | .word word => if word.isBlank then return [] else refuse
  | .atom .moment => return []
  | _ => refuse

/-! ## Values of any kind -/

/-- The atom as far as it can be held. -/
def holdAtom (atom : Atom) : Reader Document :=
  if atom = .unholdable then refuse else return .atom atom

/-- A document as far as it can be held, with everything in place that references stand
for. It is said how the parts of a collection are held, if they can be. -/
def holdWith (part? : Option (Document → Reader Document)) (document : Document) :
    Reader Document := do
  match ← resolve document, part? with
  | .atom atom, _ => holdAtom atom
  | .word word, _ => holdAtom word.atom
  | .list items, some part => return .list (← items.mapM part)
  | .table entries, some part =>
    return .table (← entries.mapM fun entry => return (← part entry.1, ← part entry.2))
  | _, _ => refuse

/-- A document as far as it can be held, with collections nested in no more than a number
of levels. -/
def hold : Nat → Document → Reader Document
  | 0 => holdWith none
  | levels + 1 => holdWith (some (hold levels))

/-- The number that a held document is, if it fits into 64 bits. -/
def asNumber? : Document → Option Nat
  | .atom (.integer value) =>
    if 0 ≤ value ∧ value.toNat < Nat.pow 2 64 then some value.toNat else none
  | _ => none

/-- The truth value that a held document is. -/
def asBool? : Document → Option Bool
  | .atom (.bool value) => some value
  | _ => none

/-- The text that a held document is. -/
def heldText? : Document → Option Text
  | .atom (.text text) => some text
  | _ => none

/-- The texts that a held document lists. -/
def heldTexts? : Document → Option (List Text)
  | .list items => items.mapM heldText?
  | _ => none

/-! ## The table of directives -/

/-- The names of the table of a project. -/
def sectionNames : List Text := ["directives".toList]

/-- The names of the source directory. -/
def sourceDirNames : List Text := ["source_dir".toList, "sourceDir".toList]

/-- The names of the targets. -/
def targetsNames : List Text := ["targets".toList]

/-- The value under some names; `none` if it is given more than once. -/
def field? (names : List Text) (fields : Fields) : Option (Option Document) :=
  match fields.filter fun field => names.contains field.1 with
  | [] => some none
  | [field] => some (some field.2)
  | _ => none

/-- The held value under some names, taken in a given way, or its standard value. -/
def heldFieldOr {α : Type} (names : List Text) (fields : Fields) (take? : Document → Option α)
    (standard : α) : Option α := do
  match ← field? names fields with
  | some document => take? document
  | none => return standard

/-- The value under some names, read in a given way, or its standard value. -/
def fieldOr {α : Type} (names : List Text) (fields : Fields) (read : Document → Reader α)
    (standard : α) : Reader α := do
  match ← ofOption (field? names fields) with
  | some document => read document
  | none => return standard

/-- The options that held entries describe. -/
def options? (fields : Fields) : Option Run.Options := do
  let standard : Run.Options := {}
  let concurrency ← heldFieldOr ["concurrency".toList] fields asNumber? standard.concurrency
  let targetsConcurrency ← heldFieldOr ["targets_concurrency".toList, "targetsConcurrency".toList]
    fields asNumber? standard.targetsConcurrency
  let batchSize ← heldFieldOr ["batch_size".toList, "batchSize".toList] fields asNumber?
    standard.batchSize
  let stopOnError ← heldFieldOr ["stop_on_error".toList, "stopOnError".toList] fields asBool?
    standard.stopOnError
  let copyFreshFromSource ← heldFieldOr
    ["copy_fresh_from_source".toList, "copyFreshFromSourceBeforeProcessing".toList] fields asBool?
    standard.copyFreshFromSource
  let dryRun ← heldFieldOr ["dry_run".toList, "dryRun".toList] fields asBool? standard.dryRun
  let exclude ← heldFieldOr ["exclude".toList] fields heldTexts? standard.exclude
  return { concurrency, targetsConcurrency, batchSize, stopOnError, copyFreshFromSource, dryRun,
           exclude }

/-- Whether an entry is one of the options or unknown. -/
def isOption (field : Text × Document) : Bool :=
  !(sourceDirNames ++ targetsNames).contains field.1

/-- The configuration that the table of directives describes. The number bounds the
levels of the values of its options. -/
def ofSection (levels : Nat) (table : Document) : Reader Config := do
  let fields ← asFields table
  let sourceDir ← fieldOr sourceDirNames fields asOptionalText none
  let targets ← fieldOr targetsNames fields asTexts []
  let others ← (fields.filter isOption).mapM fun field => return (field.1, ← hold levels field.2)
  let options ← ofOption (options? others)
  return { sourceDir, targets, options }

/-- The configuration that a whole file describes. A format can allow the file to be a
list of the table of directives alone. -/
def ofDocument (levels : Nat) (allowsList : Bool) (document : Document) : Reader Config := do
  match allowsList, document with
  | true, .list [] => return {}
  | true, .list [table] => ofSection levels table
  | _, document =>
    let fields ← asFields document
    match ← ofOption (field? sectionNames fields) with
    | some table => ofSection levels table
    | none => return {}

/-- The configuration that the document of a source describes. -/
def ofSource? (levels : Nat) (allowsList : Bool) (source : Document.Source) : Option Config :=
  (ofDocument levels allowsList source.root source.targets source.allowance).map (·.1)

/-- The source directory of the configuration. -/
def sourceDirOrStandard (config : Config) : Text :=
  config.sourceDir.getD Run.Options.standardSourceDir

end Config

end DistDirectives
