import DistDirectives.Run.Schedule

/-!
# Runs

A run reads its list of targets, discovers the sources once, expands every target,
and only then starts to process files. So nothing is written as long as anything can
be wrong with the targets, with the sources, or with a distribution root.
-/

namespace DistDirectives.Run

/-- A project and the options of its runs. -/
structure Engine where
  root : Path
  sourceDir : Text := Options.standardSourceDir
  /-- The name under which temporary files are written. -/
  writer : Text
  options : Options := {}
  deriving DecidableEq

namespace Engine

/-- How the files of a run are processed. -/
def setting (engine : Engine) : Setting :=
  { root := engine.root
    sourceDir := engine.sourceDir
    writer := engine.writer
    fresh := engine.options.copyFreshFromSource
    dryRun := engine.options.dryRun }

/-- The schedule of a run. -/
def schedule (engine : Engine) : Schedule :=
  Schedule.ofNumbers engine.options.concurrency engine.options.batchSize
    engine.options.stopOnError

/-- The files of all targets, target by target. -/
def expandAll (disk : Disk) (sourceDir : Text) (sources : List SourceFile) :
    List Target → Cache → Except Failure (List (List DistFile))
  | [], _ => .ok []
  | target :: targets, cache =>
    match expand disk cache sourceDir target sources with
    | (.error failure, _) => .error failure
    | (.ok files, cache) => do
      let more ← expandAll disk sourceDir sources targets cache
      return files :: more

/-- What there is to do for targets that were accepted. -/
def plan (engine : Engine) (disk : Disk) (targets : List Target) :
    Except Failure (List (List DistFile)) := do
  let cache := Cache.fresh engine.root engine.options.exclude
  let sources ← discover disk engine.root engine.sourceDir cache.exclusions
  if sources.isEmpty then
    return []
  else
    expandAll disk engine.sourceDir sources targets cache

/-- Processes the files of targets, target by target, up to the first failure. -/
def processAll (setting : Setting) :
    Schedule → Report → Disk → List (List DistFile) → Except Failure Report × Disk
  | _, report, disk, [] => (.ok report, disk)
  | schedule, report, disk, files :: more =>
    match schedule.run setting disk files with
    | (.ok part, schedule, disk) => processAll setting schedule (report.merge part) disk more
    | (.error failure, _, disk) => (.error failure, disk)

/-- Runs the directives of a project for a list of targets. An empty list asks for
nothing. -/
def run (engine : Engine) (disk : Disk) (targets : List Text) : Except Failure Report × Disk :=
  let engine := { engine with options := engine.options.normalized }
  match Target.readAll targets with
  | .error error => (.error (.target error), disk)
  | .ok [] => (.ok { dryRun := engine.options.dryRun }, disk)
  | .ok targets =>
    match engine.plan disk targets with
    | .error failure => (.error failure, disk)
    | .ok [] => (.ok { dryRun := engine.options.dryRun }, disk)
    | .ok files =>
      if Options.mostPermits < engine.options.targetsConcurrency then
        (.error .crash, disk)
      else
        let start : Report := { dryRun := engine.options.dryRun }
        match processAll engine.setting engine.schedule start disk
            (files.filter (!·.isEmpty)) with
        | (.ok report, after) => (.ok report.sorted, after)
        | (.error failure, after) => (.error failure, after)

end Engine

end DistDirectives.Run
