import DistDirectives.Run.Options
import DistDirectives.Run.Processing

/-!
# Schedules

The files of a target are processed in batches; a batch ends before the next one
starts. A file that fails is noted in the report, or, if failures stop the run, halts
the schedule: no further file is started, here or in any other target that shares the
schedule.
-/

namespace DistDirectives.Run

/-- How the files of targets are scheduled. -/
structure Schedule where
  concurrency : Nat
  batchSize : Nat
  stopOnError : Bool
  /-- No further file is started. -/
  halted : Bool := false
  deriving DecidableEq

namespace Schedule

/-- A schedule that has not started; its numbers are at least one. -/
def ofNumbers (concurrency batchSize : Nat) (stopOnError : Bool) : Schedule :=
  { concurrency := max concurrency 1, batchSize := max batchSize 1, stopOnError := stopOnError }

/-- The schedule, halted. -/
def halt (schedule : Schedule) : Schedule := { schedule with halted := true }

/-- A list cut into pieces of a given size, the last of which may be smaller. The
first number bounds how many pieces there are. -/
def chunks {α : Type} (size : Nat) : Nat → List α → List (List α)
  | 0, _ => []
  | _ + 1, [] => []
  | bound + 1, items => items.take size :: chunks size bound (items.drop size)

/-- The batches of a list of files. -/
def batches (schedule : Schedule) (files : List DistFile) : List (List DistFile) :=
  chunks schedule.batchSize files.length files

/-- Where a schedule stands: the disk and the report so far, and the failure that
halted it. -/
structure State where
  disk : Disk
  report : Report := {}
  failure : Option Failure := none
  halted : Bool := false

/-- The report with the result of a file. -/
def record (report : Report) (result : FileResult) : Report :=
  { report with
    processed := report.processed ++ result.processed.toList
    warnings := report.warnings + result.warnings }

/-- Processes one file, unless the schedule is halted. -/
def step (setting : Setting) (stopOnError : Bool) (state : State) (dist : DistFile) : State :=
  if state.halted then
    state
  else
    match process setting state.disk dist with
    | (.ok result, disk) => { state with disk := disk, report := record state.report result }
    | (.error error, disk) =>
      if stopOnError then
        { state with disk := disk, failure := some (.file dist.path error), halted := true }
      else
        { state with
          disk := disk
          report := { state.report with
            errors := state.report.errors ++ [⟨dist.path, error.message⟩] } }

/-- Processes the files of a batch one after the other. -/
def runBatch (setting : Setting) (stopOnError : Bool) (state : State) (batch : List DistFile) :
    State :=
  batch.foldl (step setting stopOnError) state

/-- Processes all files of a target. -/
def run (schedule : Schedule) (setting : Setting) (disk : Disk) (files : List DistFile) :
    Except Failure Report × Schedule × Disk :=
  if Options.mostPermits < schedule.concurrency then
    (.error .task, schedule, disk)
  else
    let state := (schedule.batches files).foldl (runBatch setting schedule.stopOnError)
      { disk := disk, halted := schedule.halted }
    let result := match state.failure with
      | some failure => .error failure
      | none => .ok state.report
    (result, { schedule with halted := state.halted }, state.disk)

end Schedule

end DistDirectives.Run
