import DistDirectives.Text

/-!
# Options of a run
-/

namespace DistDirectives.Run

/-- The options of a run, with the values that they have unless something else is
asked for. -/
structure Options where
  /-- How many files of a batch are in flight at most. -/
  concurrency : Nat := 4
  /-- How many targets are in flight at most. -/
  targetsConcurrency : Nat := 2
  /-- How many files a batch has at most. -/
  batchSize : Nat := 100
  /-- End the run at the first file that fails. -/
  stopOnError : Bool := false
  /-- Edit the bytes of the source instead of those of the distribution file. -/
  copyFreshFromSource : Bool := true
  /-- Find out what would change and leave the disk alone. -/
  dryRun : Bool := false
  /-- The runs of segments that are left out when sources are looked for. -/
  exclude : List Text := ["node_modules".toList, ".git".toList, "dler-directives".toList]
  deriving DecidableEq

namespace Options

/-- The options with every number at least one. -/
def normalized (options : Options) : Options :=
  { options with
    concurrency := max options.concurrency 1
    targetsConcurrency := max options.targetsConcurrency 1
    batchSize := max options.batchSize 1 }

/-- The source directory unless something else is asked for. -/
def standardSourceDir : Text := "src".toList

/-- The greatest number of files or of targets that can be in flight. -/
def mostPermits : Nat := Nat.pow 2 61 - 1

end Options

end DistDirectives.Run
