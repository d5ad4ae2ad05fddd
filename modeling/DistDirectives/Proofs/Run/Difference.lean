import DistDirectives.Proofs.Run.Endings

/-!
# Reports and disks

The report of a successful run is the difference that the run made to the disk: a location
holds something else than before exactly if it is that of a processed file. Nothing is
created, files that failed are as they were, and every file of the report has its origin
in a requested target and in a discovered source.

This is so wherever the sources are, as long as they lead to plain names: even when a file of
the run is a source of another one, each file shows what is reported of it. So no more is
asked of a file at a moment than what it remembers of its own bytes (`Faithful`).
-/

namespace DistDirectives.Run

open Disk (IsProject IsPlainProject IsPlainOutside)

variable {setting : Setting} {disk after : Disk} {base : Location} {dist : DistFile}
  {files : List DistFile}

/-- What an action did to a location. -/
def Shows (old new : Option Node) : FileAction → Prop
  | .removed => (∃ content mode, old = some (.file content mode)) ∧ new = none
  | .modified => ∃ content mode newContent newMode,
    old = some (.file content mode) ∧ new = some (.file newContent newMode) ∧ newContent ≠ content

theorem Shows.ne {old new : Option Node} {action : FileAction} (shows : Shows old new action) :
    new ≠ old := by
  cases action with
  | removed =>
      rcases shows with ⟨⟨content, mode, rfl⟩, rfl⟩
      simp
  | modified =>
      rcases shows with ⟨content, mode, newContent, newMode, rfl, rfl, differs⟩
      simp [differs]

/-- A file is as the first disk has it, or shows the action that is reported of it. -/
def AsReported (disk : Disk) (base : Location) (dist : DistFile) (result : FileResult)
    (node : Option Node) : Prop :=
  (result.processed = none ∧ node = disk.get? (placeOf base dist)) ∨
    ∃ action, result.processed = some ⟨dist.path, action, dist.target⟩ ∧
      Shows (disk.get? (placeOf base dist)) node action

/-! ## What a file remembers -/

/-- What a file remembers of its own bytes at a phase. New content differs from them. -/
def Remembers (setting : Setting) (disk : Disk) (base : Location) (dist : DistFile) : Phase → Prop
  | .searching current _ | .fetching current _ =>
    disk.readBytes (setting.root.join dist.path.text) = .ok current
  | .decided decision _ => ∃ current final,
    disk.readBytes (setting.root.join dist.path.text) = .ok current ∧
      decision = decisionFor current final
  | .moving temporary file _ => temporary = besideOf setting base dist ∧
    ∃ current content mode, disk.readBytes (setting.root.join dist.path.text) = .ok current ∧
      file = .file content mode ∧ content ≠ current
  | .begun | .done _ => True

theorem remembers_judged {current : Bytes}
    (read : disk.readBytes (setting.root.join dist.path.text) = .ok current) (bytes : Bytes) :
    Remembers setting disk base dist (.judged dist current bytes) :=
  ⟨current, _, read, rfl⟩

/-- Files share a disk, on which those that were processed are as they are reported. -/
structure Faithful (setting : Setting) (disk : Disk) (base : Location) (files : List DistFile)
    (now : Disk) (phase : DistFile → Option Phase) : Prop
    extends Shared setting disk base files (AsReported disk base) now phase where
  remembers : ∀ dist come, phase dist = some come → Remembers setting disk base dist come

namespace Faithful

variable {now : Disk} {phase : DistFile → Option Phase}
  (faithful : Faithful setting disk base files now phase)

include faithful

theorem update (scene : IsScene setting disk base files) {next : Phase}
    (turn : Turn setting disk base files (AsReported disk base) now phase dist next after)
    (remembers : Remembers setting disk base dist next) :
    Faithful setting disk base files after (Function.update phase dist (some next)) := by
  refine ⟨turn.keeps faithful.toShared scene, fun other come isCome => ?_⟩
  by_cases same : other = dist
  · subst same
    rw [Function.update_self, Option.some.injEq] at isCome
    exact isCome ▸ remembers
  · rw [Function.update_of_ne same] at isCome
    exact faithful.remembers other come isCome

variable (scene : IsScene setting disk base files) (mem : dist ∈ files)

include scene mem

/-- A moment at which the disk is not changed, and nothing is reported. -/
theorem quiet (unsettled : isSettled (phase dist) = false) (unmoved : isMoving (phase dist) = false)
    {next : Phase} (remembers : Remembers setting disk base dist next)
    (stays : isMoving (some next) = false)
    (silent : ∀ result, next = .done (.ok result) → result.processed = none) :
    Faithful setting disk base files now (Function.update phase dist (some next)) :=
  faithful.update scene (Turn.quiet mem unsettled faithful.toShared unmoved stays
    fun result ended => .inl ⟨silent result ended, rfl⟩) remembers

theorem start (waiting : phase dist = none) :
    Faithful setting disk base files now (Function.update phase dist (some .begun)) :=
  faithful.quiet scene mem (by rw [waiting]; rfl) (by rw [waiting]; rfl) trivial rfl (by simp)

theorem advance_decided (wet : setting.dryRun = false) {decision : Decision} {warnings : Nat}
    (come : phase dist = some (.decided decision warnings)) :
    Faithful setting disk base files (advance setting dist now (.decided decision warnings)).2
      (Function.update phase dist
        (some (advance setting dist now (.decided decision warnings)).1)) := by
  have unsettled : isSettled (phase dist) = false := by rw [come]; rfl
  have unmoved : isMoving (phase dist) = false := by rw [come]; rfl
  obtain ⟨current, final, read, rfl⟩ := faithful.remembers dist _ come
  cases final with
  | none =>
      rw [decisionFor, faithful.toShared.advance_remove scene mem unsettled wet read]
      cases attempt setting disk dist .remove with
      | error error => exact faithful.quiet scene mem unsettled unmoved trivial rfl (by simp)
      | ok =>
          obtain ⟨content, mode, held⟩ := scene.exists_held mem
          refine faithful.update scene (Turn.remove mem unsettled scene unmoved ?_) trivial
          exact .inr ⟨.removed, rfl, ⟨content, mode, held⟩, rfl⟩
  | some content =>
      rw [decisionFor]
      by_cases same : content = current
      · simp only [if_pos same, advance, wet, Bool.false_eq_true, if_false]
        refine faithful.quiet scene mem unsettled unmoved trivial rfl ?_
        rintro result ⟨⟩
        rfl
      · simp only [if_neg same, advance, wet, Bool.false_eq_true, if_false]
        rcases faithful.stage_cases scene mem unsettled read content with
          ⟨error, refused⟩ | ⟨free, staged⟩
        · simp only [refused]
          exact faithful.quiet scene mem unsettled unmoved trivial rfl (by simp)
        · simp only [staged]
          exact faithful.update scene
            (Turn.stage mem unsettled scene faithful.toShared unmoved free content _ warnings)
            ⟨rfl, current, content, _, read, rfl, same⟩

theorem advance_moving {temporary : Location} {file : Node} {warnings : Nat}
    (come : phase dist = some (.moving temporary file warnings)) :
    Faithful setting disk base files (advance setting dist now (.moving temporary file warnings)).2
      (Function.update phase dist
        (some (advance setting dist now (.moving temporary file warnings)).1)) := by
  have moves : isMoving (phase dist) = true := by rw [come]; rfl
  have unsettled := isSettled_of_isMoving moves
  obtain ⟨rfl, current, content, mode, read, rfl, differs⟩ := faithful.remembers dist _ come
  rw [faithful.toShared.advance_moving scene mem unsettled read]
  refine faithful.update scene (Turn.move mem unsettled scene moves ?_) trivial
  obtain ⟨oldMode, held, _⟩ := held_of_readBytes scene.project (scene.isDist mem) read
  exact .inr ⟨.modified, rfl, current, oldMode, content, mode, held, rfl, differs⟩

omit mem in
/-- Every moment of every file keeps files as they are reported. -/
theorem advance (wet : setting.dryRun = false) {come : Phase} (isCome : phase dist = some come)
    (busy : come.isDone = false) :
    Faithful setting disk base files (Run.advance setting dist now come).2
      (Function.update phase dist (some (Run.advance setting dist now come).1)) := by
  have mem : dist ∈ files := faithful.known dist (by simp [isCome])
  have quietly {next : Phase} (isQuiet : isMoving (some come) = false)
      (remembers : Remembers setting disk base dist next) (stays : isMoving (some next) = false)
      (silent : ∀ result, next ≠ .done (.ok result)) :
      Faithful setting disk base files now (Function.update phase dist (some next)) :=
    faithful.quiet scene mem (by rw [isCome]; exact isSettled_of_isDone busy) (isCome ▸ isQuiet)
      remembers stays fun result ended => absurd ended (silent result)
  cases come with
  | begun =>
      simp only [Run.advance,
        faithful.readBytes_own scene mem (by rw [isCome]; exact isSettled_of_isDone busy)]
      cases read : disk.readBytes (setting.root.join dist.path.text) with
      | error error => exact quietly rfl trivial rfl (by simp)
      | ok current =>
          simp only
          split
          · exact quietly rfl read rfl (by simp)
          · exact quietly rfl (remembers_judged read current) rfl (by simp [Phase.judged])
  | searching current candidates =>
      have read := faithful.remembers dist _ isCome
      cases candidates with
      | nil =>
          simp only [Run.advance]
          exact quietly rfl (remembers_judged read current) rfl (by simp [Phase.judged])
      | cons candidate others =>
          simp only [Run.advance]
          split <;> exact quietly rfl read rfl (by simp)
  | fetching current source =>
      have read := faithful.remembers dist _ isCome
      simp only [Run.advance]
      cases now.readBytes (setting.root.join source.text) with
      | error error => exact quietly rfl trivial rfl (by simp)
      | ok bytes =>
          exact quietly rfl (remembers_judged read bytes) rfl (by simp [Phase.judged])
  | decided decision warnings => exact faithful.advance_decided scene mem wet isCome
  | moving temporary file warnings => exact faithful.advance_moving scene mem isCome
  | done result => contradiction

end Faithful

/-- In the end every file that was processed is as it is reported, and nothing else changed. -/
theorem Pool.Executes.settles {agenda : Agenda} {pool : Pool}
    (scene : IsScene setting disk base agenda.files) (wet : setting.dryRun = false)
    (executes : Executes agenda setting disk pool) :
    Settles setting disk base agenda.files (AsReported disk base) pool ∧
      Orderly agenda pool := by
  rcases executes with ⟨steps, finished⟩
  have orderly := orderly_of_steps (orderly_start agenda disk) steps
  have faithful : Faithful setting disk base agenda.files pool.disk pool.phase :=
    holds_of_steps (Faithful setting disk base agenda.files) ⟨scene.shared, by simp⟩
      (fun _ _ _ faithful mem waiting => faithful.start scene mem waiting)
      (fun _ _ _ _ faithful come busy => faithful.advance scene wet come busy) steps
  exact ⟨faithful.toShared.settles orderly finished, orderly⟩

namespace Settles

variable {pool : Pool}
  (settles : Settles setting disk base files (AsReported disk base) pool)

include settles

/-- What differs from the first disk is reported. -/
theorem exists_of_ne {location : Location}
    (differs : pool.disk.get? location ≠ disk.get? location) :
    ∃ dist result processed, (dist, Except.ok result) ∈ pool.log ∧
      result.processed = some processed ∧ location = base ++ processed.path.segments := by
  have own : ∃ dist ∈ files, location = placeOf base dist := by
    by_contra foreign
    exact differs (settles.elsewhere location fun dist mem here => foreign ⟨dist, mem, here⟩)
  rcases own with ⟨dist, mem, rfl⟩
  have processed : ∃ result, (dist, Except.ok result) ∈ pool.log := by
    by_contra unprocessed
    exact differs (settles.kept dist mem fun result logMem => unprocessed ⟨result, logMem⟩)
  rcases processed with ⟨result, logMem⟩
  rcases settles.settled dist result logMem with ⟨_, unchanged⟩ | ⟨action, reported, _⟩
  · exact absurd unchanged differs
  · exact ⟨dist, result, _, logMem, reported, rfl⟩

/-- What is reported of a file is what became of it. -/
theorem shows {result : FileResult} {processed : ProcessedFile}
    (logMem : (dist, Except.ok result) ∈ pool.log) (reported : result.processed = some processed) :
    processed.path = dist.path ∧ processed.target = dist.target ∧
      Shows (disk.get? (base ++ processed.path.segments))
        (pool.disk.get? (base ++ processed.path.segments)) processed.action := by
  rcases settles.settled dist result logMem with ⟨silent, _⟩ | ⟨action, noted, shows⟩
  · rw [silent] at reported
    contradiction
  · rw [noted] at reported
    cases reported
    exact ⟨rfl, rfl, shows⟩

end Settles

namespace Engine

/-- A report accounts for all that a run did to a disk. -/
structure Accounts (engine : Engine) (disk : Disk) (base : Location) (targets : List Text)
    (report : Report) (after : Disk) : Prop where
  changed_iff : ∀ location, after.get? location ≠ disk.get? location ↔
    ∃ processed ∈ report.processed, location = base ++ processed.path.segments
  shows : ∀ processed ∈ report.processed,
    Shows (disk.get? (base ++ processed.path.segments))
      (after.get? (base ++ processed.path.segments))
      processed.action
  nothingCreated : ∀ location, disk.get? location = none → after.get? location = none
  failedUnchanged : ∀ failure ∈ report.errors,
    after.get? (base ++ failure.path.segments) = disk.get? (base ++ failure.path.segments)
  processedOrigin : ∀ processed ∈ report.processed, ∃ source target,
    processed.target = target.text ∧ IsOrigin engine disk targets source target processed.path
  failedOrigin : ∀ failure ∈ report.errors, ∃ source target,
    IsOrigin engine disk targets source target failure.path

variable {engine : Engine} {targets : List Text} {report : Report} {groups : List (List DistFile)}

/-- The report of a successful run accounts for all that the run did to the disk, whatever way
its files took. Every path of it lies below a distribution root of its target, unless it is
such a root itself and the source is a file in the place of the directory of sources of the
library. -/
theorem accounts_of_run (project : IsPlainProject disk engine.root base)
    (outside : IsPlainOutside disk base (engine.root.join engine.sourceDir))
    (wet : engine.options.dryRun = false)
    (comes : ComesTo engine disk targets (.ok report) after) :
    Accounts engine disk base targets report after := by
  have plainSources := project.leadsToPlainTree outside
  cases comes.mayEnd_of_ok fun groups plans => (isScene_of_plans project plainSources plans).nodup
  case reported groups pool results plans permits executes passes order =>
  have scene := isScene_of_plans project plainSources plans
  have origin (dist : DistFile) (mem : dist ∈ groups.flatten) :=
    ((plans.mem_flatten_iff.1 mem).exists_origin project plainSources).2
  rw [← files_agenda engine] at scene origin
  obtain ⟨settles, orderly⟩ := executes.settles scene wet
  have known {dist : DistFile} {result : Except DiskError FileResult}
      (logMem : (dist, result) ∈ pool.log) : dist ∈ (engine.agenda groups).files :=
    orderly.known dist (by simp [orderly.logged _ logMem])
  constructor
  case changed_iff =>
    intro location
    constructor
    · intro differs
      obtain ⟨dist, result, processed, logMem, reported, here⟩ := settles.exists_of_ne differs
      exact ⟨processed, (mem_processed_of_perm order).2 ⟨dist, result, logMem, reported⟩, here⟩
    · rintro ⟨processed, mem, rfl⟩
      obtain ⟨dist, result, logMem, reported⟩ := (mem_processed_of_perm order).1 mem
      exact (settles.shows logMem reported).2.2.ne
  case shows =>
    intro processed mem
    obtain ⟨dist, result, logMem, reported⟩ := (mem_processed_of_perm order).1 mem
    exact (settles.shows logMem reported).2.2
  case nothingCreated =>
    intro location free
    rw [settles.elsewhere location, free]
    rintro dist mem rfl
    obtain ⟨content, mode, held⟩ := scene.exists_held mem
    rw [free] at held
    contradiction
  case failedUnchanged =>
    intro failure mem
    obtain ⟨dist, error, logMem, rfl⟩ := (mem_errors_of_perm order).1 mem
    refine settles.kept dist (known logMem) fun result again => ?_
    have failed := orderly.logged _ logMem
    simp [orderly.logged _ again] at failed
  case processedOrigin =>
    intro processed mem
    obtain ⟨dist, result, logMem, reported⟩ := (mem_processed_of_perm order).1 mem
    obtain ⟨path_eq, target_eq, _⟩ := settles.shows logMem reported
    rw [path_eq, target_eq]
    exact origin dist (known logMem)
  case failedOrigin =>
    intro failure mem
    obtain ⟨dist, error, logMem, rfl⟩ := (mem_errors_of_perm order).1 mem
    obtain ⟨source, target, _, isOrigin⟩ := origin dist (known logMem)
    exact ⟨source, target, isOrigin⟩

/-- The report of the small project accounts for its run. -/
theorem accounts_of_run_small :
    Accounts smallEngine (smallDisk "old\n".toList) (smallLocation [])
      ["dist-npm".toList] smallReport
      (smallEngine.run (smallDisk "old\n".toList) ["dist-npm".toList]).2 := by
  have small : IsSmall (smallDisk "old\n".toList) := by decide +kernel
  have project := small.isPlainProject
  have inside := leadsToPlainTree project small_isSourceDirectory
  exact accounts_of_run project (fun place mode reached _ => inside place mode reached)
    rfl (.inr small.run_eq)

/-! ## A library of one file -/

/-- A project with a file in the place of the sources of a library, and a file in the place
of the build output of the library. -/
def wholeLibraryDisk : Disk :=
  let directory (names : List String) (disk : Disk) : Disk :=
    disk.store (smallLocation names) (.directory Node.directoryMode)
  let file (names : List String) (disk : Disk) : Disk :=
    disk.store (smallLocation names)
      (.file (Utf8.encode "x // <dler-remove-line>\ny\n".toList) Node.fileMode)
  Disk.empty
    |> directory []
    |> directory ["src"]
    |> directory ["src", "libs"]
    |> file ["src", "libs", "a"]
    |> directory ["dist-libs"]
    |> directory ["dist-libs", "a"]
    |> directory ["dist-libs", "a", "npm"]
    |> file ["dist-libs", "a", "npm", "bin"]

/-- The distribution root of a library of one file is processed itself. -/
theorem wholeLibrary_not_enclosed :
    IsPlainProject wholeLibraryDisk smallEngine.root (smallLocation []) ∧
      ∃ processed,
        (smallEngine.run wholeLibraryDisk ["dist-libs/a".toList]).1 =
          .ok { processed := [processed] } ∧
        ∀ target : Target, ¬ target.Encloses processed.path := by
  have reached : wholeLibraryDisk.walk true smallEngine.root.segments =
      .ok (.node (smallLocation []) (.directory Node.directoryMode)) := by decide +kernel
  refine ⟨Disk.isPlainProject_of_holdsPlainTree reached (by decide +kernel),
    ⟨Mapping.libraryRoot "a".toList "npm".toList, .modified, "dist-libs/a".toList⟩, by
      decide +kernel, ?_⟩
  rintro target ⟨root, rest, hasRoot, nonempty, segments⟩
  have names : (Mapping.libraryRoot "a".toList "npm".toList).segments =
      [Target.librariesDirectory, "a".toList, "npm".toList, Mapping.outputDirectory] := by decide
  rw [names] at segments
  cases hasRoot with
  | npm => exact absurd (List.cons.inj segments).1 (by decide)
  | jsr => exact absurd (List.cons.inj segments).1 (by decide)
  | library => exact nonempty (by simpa using congrArg List.length segments)
  | allLibraries => exact nonempty (by simpa using congrArg List.length segments)

end Engine

end DistDirectives.Run
