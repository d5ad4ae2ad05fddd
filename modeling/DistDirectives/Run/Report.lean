import DistDirectives.Path

/-!
# Reports

A report lists what a run did to distribution files and what it could not do. Its
lists are put in the order of paths, so they do not show in which order the files
were processed.
-/

namespace DistDirectives.Run

/-- What happened to a distribution file. -/
inductive FileAction where
  | modified
  | removed
  deriving DecidableEq

namespace FileAction

/-- The action as it is shown. -/
def name : FileAction → String
  | modified => "modified"
  | removed => "removed"

end FileAction

/-- A distribution file that a run changed. -/
structure ProcessedFile where
  path : Path
  action : FileAction
  /-- The requested target that the file belongs to, as it is written. -/
  target : Text
  deriving DecidableEq

/-- A distribution file that could not be processed. -/
structure FileFailure where
  path : Path
  message : String
  deriving DecidableEq

/-- What a run did. -/
structure Report where
  processed : List ProcessedFile := []
  errors : List FileFailure := []
  /-- The number of warnings about directives. -/
  warnings : Nat := 0
  /-- Whether the disk was left alone. -/
  dryRun : Bool := false
  deriving DecidableEq

namespace Report

/-- The paths that changed. -/
def paths (report : Report) : List Path := report.processed.map (·.path)

/-- Whether every file could be processed. -/
def isSuccess (report : Report) : Bool := report.errors.isEmpty

/-- How many files an action happened to. -/
def count (report : Report) (action : FileAction) : Nat :=
  (report.processed.filter (·.action == action)).length

/-- A report followed by another one. -/
def merge (report other : Report) : Report :=
  { report with
    processed := report.processed ++ other.processed
    errors := report.errors ++ other.errors
    warnings := report.warnings + other.warnings }

/-- The report with its lists in the order of paths; files of one path keep their
order. -/
def sorted (report : Report) : Report :=
  { report with
    processed := report.processed.mergeSort fun left right => !right.path.before left.path
    errors := report.errors.mergeSort fun left right => !right.path.before left.path }

end Report

end DistDirectives.Run
