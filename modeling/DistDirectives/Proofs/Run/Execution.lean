import DistDirectives.Proofs.Run.Expansion
import DistDirectives.Run.Engine

/-!
# Runs as sequences of files

Batches, targets and schedules do not matter for what a successful run does: it processes
the expanded files one after the other and reports what came of each. The main statement is
`Engine.run_eq_ok_iff`, which reduces a successful run to its list of files.
-/

namespace DistDirectives.Run

/-! ## Files one after the other -/

/-- A file with the result of processing it. -/
abbrev Outcome := DistFile × Except DiskError FileResult

/-- The results of files that are processed one after the other. -/
def outcomes (setting : Setting) : Disk → List DistFile → List Outcome
  | _, [] => []
  | disk, dist :: more =>
    (dist, (process setting disk dist).1) :: outcomes setting (process setting disk dist).2 more

/-- The disk after files were processed one after the other. -/
def afterEach (setting : Setting) : Disk → List DistFile → Disk
  | disk, [] => disk
  | disk, dist :: more => afterEach setting (process setting disk dist).2 more

variable {setting : Setting} {disk after : Disk} {files more : List DistFile}

theorem outcomes_append :
    outcomes setting disk (files ++ more) =
      outcomes setting disk files ++ outcomes setting (afterEach setting disk files) more := by
  induction files generalizing disk with
  | nil => rfl
  | cons dist files ih => simp only [List.cons_append, outcomes, afterEach, ih]

theorem afterEach_append :
    afterEach setting disk (files ++ more) =
      afterEach setting (afterEach setting disk files) more := by
  induction files generalizing disk with
  | nil => rfl
  | cons dist files ih => simp only [List.cons_append, afterEach, ih]

/-! ## Reports of results -/

/-- What the report says of one file. -/
def noted (outcome : Outcome) : Report :=
  match outcome.2 with
  | .ok result => { processed := result.processed.toList, warnings := result.warnings }
  | .error error => { errors := [⟨outcome.1.path, error.message⟩] }

/-- The report of results, in their order. -/
def reportOf : List Outcome → Report
  | [] => {}
  | outcome :: others => (noted outcome).merge (reportOf others)

theorem Report.merge_assoc (first second third : Report) :
    (first.merge second).merge third = first.merge (second.merge third) := by
  simp [Report.merge, Nat.add_assoc]

@[simp]
theorem Report.merge_empty (report : Report) : report.merge {} = report := by
  simp [Report.merge]

theorem Report.empty_merge {report : Report} (wet : report.dryRun = false) :
    ({} : Report).merge report = report := by
  cases report
  simp_all [Report.merge]

theorem dryRun_reportOf (results : List Outcome) : (reportOf results).dryRun = false := by
  cases results with
  | nil => rfl
  | cons outcome others =>
      rw [reportOf, Report.merge, noted]
      split <;> rfl

theorem reportOf_append (first second : List Outcome) :
    reportOf (first ++ second) = (reportOf first).merge (reportOf second) := by
  induction first with
  | nil => exact (Report.empty_merge (dryRun_reportOf second)).symm
  | cons outcome first ih => rw [List.cons_append, reportOf, reportOf, ih, Report.merge_assoc]

theorem mem_processed_reportOf {results : List Outcome} {processed : ProcessedFile} :
    processed ∈ (reportOf results).processed ↔
      ∃ dist result, (dist, Except.ok result) ∈ results ∧ result.processed = some processed := by
  induction results with
  | nil => simp [reportOf]
  | cons outcome others ih =>
      rcases outcome with ⟨dist, result⟩
      simp only [reportOf, Report.merge, List.mem_append, ih, List.mem_cons]
      cases result with
      | error error => simp [noted]
      | ok result =>
          simp only [noted, Option.mem_toList]
          constructor
          · rintro (here | ⟨other, otherResult, mem, same⟩)
            · exact ⟨dist, result, .inl rfl, here⟩
            · exact ⟨other, otherResult, .inr mem, same⟩
          · rintro ⟨other, otherResult, here | later, same⟩
            · cases here
              exact .inl same
            · exact .inr ⟨other, otherResult, later, same⟩

theorem mem_errors_reportOf {results : List Outcome} {failure : FileFailure} :
    failure ∈ (reportOf results).errors ↔
      ∃ dist error, (dist, Except.error error) ∈ results ∧
        failure = ⟨dist.path, error.message⟩ := by
  induction results with
  | nil => simp [reportOf]
  | cons outcome others ih =>
      rcases outcome with ⟨dist, result⟩
      simp only [reportOf, Report.merge, List.mem_append, ih, List.mem_cons]
      cases result with
      | ok result => simp [noted]
      | error error =>
          simp only [noted, List.mem_singleton]
          constructor
          · rintro (here | ⟨other, otherError, mem, same⟩)
            · exact ⟨dist, error, .inl rfl, here⟩
            · exact ⟨other, otherError, .inr mem, same⟩
          · rintro ⟨other, otherError, here | later, same⟩
            · cases here
              exact .inl same
            · exact .inr ⟨other, otherError, later, same⟩

/-! ## Schedules -/

/-- Failures stop nothing, or there are none. -/
def Passes (stopOnError : Bool) (results : List Outcome) : Prop :=
  stopOnError = true → ∀ outcome ∈ results, ∃ result, outcome.2 = .ok result

theorem passes_append {stopOnError : Bool} {first second : List Outcome} :
    Passes stopOnError (first ++ second) ↔
      Passes stopOnError first ∧ Passes stopOnError second := by
  simp only [Passes, List.mem_append, or_imp, forall_and]

namespace Schedule

theorem chunks_flatten {α : Type} {size : Nat} (positive : 0 < size) {bound : Nat} {items : List α}
    (enough : items.length ≤ bound) : (chunks size bound items).flatten = items := by
  induction bound generalizing items with
  | zero =>
      have none_left : items = [] := List.eq_nil_of_length_eq_zero (Nat.le_zero.1 enough)
      rw [none_left]
      rfl
  | succ bound ih =>
      cases items with
      | nil => rfl
      | cons item items =>
          rw [chunks, List.flatten_cons, ih, List.take_append_drop]
          · rw [List.length_drop]
            omega
          · simp

/-- Batches do not matter when one file is processed after the other. -/
theorem foldl_batches {schedule : Schedule} (positive : 0 < schedule.batchSize) (stopOnError : Bool)
    (state : State) :
    (schedule.batches files).foldl (runBatch setting stopOnError) state =
      files.foldl (step setting stopOnError) state := by
  have whole := chunks_flatten positive (Nat.le_refl files.length)
  conv_rhs => rw [← whole, List.foldl_flatten]
  rfl

theorem step_of_halted {stopOnError : Bool} {state : State} (halted : state.halted = true)
    (dist : DistFile) : step setting stopOnError state dist = state := by
  rw [step, if_pos halted]

theorem foldl_step_of_halted {stopOnError : Bool} {state : State} (halted : state.halted = true)
    (files : List DistFile) : files.foldl (step setting stopOnError) state = state := by
  induction files with
  | nil => rfl
  | cons dist files ih => rw [List.foldl_cons, step_of_halted halted, ih]

/-- A schedule that is not halted notes the result of a file and goes on, unless the file
fails and failures stop the run. -/
theorem step_eq {stopOnError : Bool} {state : State} (running : state.halted = false)
    {dist : DistFile}
    (passes : Passes stopOnError [(dist, (process setting state.disk dist).1)]) :
    step setting stopOnError state dist =
      { state with
        disk := (process setting state.disk dist).2
        report := state.report.merge (noted (dist, (process setting state.disk dist).1)) } := by
  rw [step, if_neg (by simp [running])]
  cases processed : process setting state.disk dist with
  | mk result after =>
      rw [processed] at passes
      cases result with
      | ok result => simp [record, noted, Report.merge]
      | error error =>
          cases stopOnError with
          | true =>
              obtain ⟨result, ok⟩ := passes rfl (dist, .error error) (by simp)
              contradiction
          | false => simp [noted, Report.merge]

theorem foldl_step_eq {stopOnError : Bool} {state : State} (running : state.halted = false)
    {files : List DistFile} (passes : Passes stopOnError (outcomes setting state.disk files)) :
    files.foldl (step setting stopOnError) state =
      { state with
        disk := afterEach setting state.disk files
        report := state.report.merge (reportOf (outcomes setting state.disk files)) } := by
  induction files generalizing state with
  | nil => simp [afterEach, outcomes, reportOf]
  | cons dist files ih =>
      rw [outcomes, ← List.singleton_append, passes_append] at passes
      have later := @ih
        { state with
          disk := (process setting state.disk dist).2
          report := state.report.merge (noted (dist, (process setting state.disk dist).1)) }
        running passes.2
      rw [List.foldl_cons, step_eq running passes.1, later]
      simp only [afterEach, outcomes, reportOf, Report.merge_assoc]

/-- A failure halts a schedule when failures stop the run. -/
theorem failure_foldl_step {state : State} (running : state.halted = false) {files : List DistFile}
    (fails : ¬ Passes true (outcomes setting state.disk files)) :
    (files.foldl (step setting true) state).failure ≠ none := by
  induction files generalizing state with
  | nil => exact absurd (by simp [Passes, outcomes]) fails
  | cons dist files ih =>
      rw [List.foldl_cons]
      by_cases first : Passes true [(dist, (process setting state.disk dist).1)]
      · rw [step_eq running first]
        refine ih running fun later => fails ?_
        rw [outcomes, ← List.singleton_append, passes_append]
        exact ⟨first, later⟩
      · cases processed : process setting state.disk dist with
        | mk result after =>
            cases result with
            | ok result =>
                refine absurd (fun _ outcome mem => ⟨result, ?_⟩) first
                rw [List.mem_singleton.1 mem, processed]
            | error error =>
                have halts : step setting true state dist =
                    { state with
                      disk := after, failure := some (.file dist.path error), halted := true } := by
                  rw [step, if_neg (by simp [running]), processed]
                  rfl
                rw [halts, foldl_step_of_halted rfl]
                simp

variable {schedule : Schedule}

/-- A schedule succeeds when nothing is to stop it. It then reports on the files one after
the other and can go on. -/
theorem run_eq_ok_iff (running : schedule.halted = false) (positive : 0 < schedule.batchSize)
    {report : Report} {next : Schedule} :
    schedule.run setting disk files = (.ok report, next, after) ↔
      schedule.concurrency ≤ Options.mostPermits ∧
        Passes schedule.stopOnError (outcomes setting disk files) ∧
        report = reportOf (outcomes setting disk files) ∧ next = schedule ∧
        after = afterEach setting disk files := by
  rw [run, foldl_batches positive]
  by_cases permitted : Options.mostPermits < schedule.concurrency
  · rw [if_pos permitted]
    simp [Nat.not_le.2 permitted]
  rw [if_neg permitted]
  have same : { schedule with halted := false } = schedule := by
    cases schedule
    simp_all
  by_cases passes : Passes schedule.stopOnError (outcomes setting disk files)
  · rw [foldl_step_eq running passes]
    simp only [Report.empty_merge (dryRun_reportOf _), Nat.not_lt.1 permitted, passes,
      true_and, running,
      same, Prod.mk.injEq, Except.ok.injEq, eq_comm]
  · have stops : schedule.stopOnError = true := by
      by_contra goesOn
      exact passes fun stop => absurd stop goesOn
    simp only [passes, false_and, and_false, iff_false]
    rw [stops] at passes ⊢
    have failed :=
      @failure_foldl_step setting { disk := disk, halted := schedule.halted } running files
      passes
    cases failure :
      (files.foldl (step setting true) { disk := disk, halted := schedule.halted }).failure with
    | none => exact absurd failure failed
    | some cause => simp

end Schedule

namespace Engine

/-- All targets succeed when nothing is to stop their schedule. -/
theorem processAll_eq_ok_iff {schedule : Schedule} (running : schedule.halted = false)
    (positive : 0 < schedule.batchSize) {groups : List (List DistFile)} {start report : Report} :
    processAll setting schedule start disk groups = (.ok report, after) ↔
      (groups ≠ [] → schedule.concurrency ≤ Options.mostPermits) ∧
        Passes schedule.stopOnError (outcomes setting disk groups.flatten) ∧
        report = start.merge (reportOf (outcomes setting disk groups.flatten)) ∧
        after = afterEach setting disk groups.flatten := by
  induction groups generalizing start disk with
  | nil =>
      simp only [processAll, outcomes, afterEach, reportOf, List.flatten_nil, Report.merge_empty,
        Prod.mk.injEq, Except.ok.injEq]
      constructor
      · rintro ⟨rfl, rfl⟩
        exact ⟨by simp, by simp [Passes], rfl, rfl⟩
      · rintro ⟨_, _, rfl, rfl⟩
        exact ⟨rfl, rfl⟩
  | cons files groups ih =>
      rw [processAll, List.flatten_cons, outcomes_append, afterEach_append, reportOf_append,
        passes_append, ← Report.merge_assoc]
      have runs (part : Report) (next : Schedule) (between : Disk) :=
        @Schedule.run_eq_ok_iff setting disk between files schedule running positive part next
      constructor
      · intro finished
        cases ran : schedule.run setting disk files with
        | mk result rest =>
            rcases rest with ⟨next, between⟩
            cases result with
            | error failure => simp [ran] at finished
            | ok part =>
                rcases (runs part next between).1 ran with ⟨permitted, passes, rfl, rfl, rfl⟩
                simp only [ran] at finished
                rcases ih.1 finished with ⟨_, passesLater, report_eq, after_eq⟩
                exact ⟨fun _ => permitted, ⟨passes, passesLater⟩, report_eq, after_eq⟩
      · rintro ⟨permitted, ⟨passes, passesLater⟩, report_eq, after_eq⟩
        have ran := (runs _ _ _).2 ⟨permitted (by simp), passes, rfl, rfl, rfl⟩
        simp only [ran]
        exact ih.2 ⟨fun _ => permitted (by simp), passesLater, report_eq, after_eq⟩

theorem batchSize_pos (engine : Engine) : 0 < engine.schedule.batchSize :=
  Nat.lt_of_lt_of_le Nat.zero_lt_one (Nat.le_max_right _ _)

/-- The sources of a run. -/
def sourcesOf (engine : Engine) (disk : Disk) : Except Failure (List SourceFile) :=
  discover disk engine.root engine.sourceDir (exclusionsOf engine.options.exclude)

/-- The files of the targets of a run, target by target. No files are looked for when
there is no target, or no source. -/
inductive Plans (engine : Engine) (disk : Disk) (targets : List Text) : List (List DistFile) → Prop
  | noTarget (read : Target.readAll targets = .ok []) : Plans engine disk targets []
  | noSource {accepted : List Target} (read : Target.readAll targets = .ok accepted)
      (asked : accepted ≠ []) (found : engine.sourcesOf disk = .ok []) :
        Plans engine disk targets []
  | files {accepted : List Target} {sources : List SourceFile} {groups : List (List DistFile)}
      (read : Target.readAll targets = .ok accepted) (asked : accepted ≠ [])
      (found : engine.sourcesOf disk = .ok sources) (some : sources ≠ [])
      (expanded : List.Forall₂ (fun target files =>
        Expansion.filesOf disk engine.root engine.sourceDir sources target = .ok files)
          accepted groups) :
      Plans engine disk targets groups

theorem plan_eq_ok_iff {engine : Engine} {disk : Disk} {targets : List Text}
    {accepted : List Target}
    (read : Target.readAll targets = .ok accepted) (asked : accepted ≠ [])
    {groups : List (List DistFile)} :
    engine.plan disk accepted = .ok groups ↔ Plans engine disk targets groups := by
  have sound := Cache.sound_fresh disk engine.root engine.options.exclude
  have discovered : discover disk engine.root engine.sourceDir
      (Cache.fresh engine.root engine.options.exclude).exclusions = engine.sourcesOf disk := rfl
  rw [plan]
  simp only [discovered, Expansion.expandAll_eq sound]
  constructor
  · intro planned
    cases found : engine.sourcesOf disk with
    | error failure => simp [found, bind, Except.bind] at planned
    | ok sources =>
        simp only [found, bind, Except.bind] at planned
        split at planned
        · rename_i none_left
          cases planned
          rw [List.isEmpty_iff.1 none_left] at found
          exact .noSource read asked found
        · rename_i some
          exact .files read asked found (by simpa using some) (mapM_eq_ok_iff.1 planned)
  · intro plans
    cases plans with
    | noTarget other =>
        rw [read] at other
        cases other
        exact absurd rfl asked
    | noSource _ _ found =>
        rw [found]
        rfl
    | files other _ found some expanded =>
        rw [read] at other
        cases other
        simp only [found, bind, Except.bind]
        rw [if_neg (by simpa using some), mapM_eq_ok_iff]
        exact expanded

theorem Plans.exists_read {engine : Engine} {disk : Disk} {targets : List Text}
    {groups : List (List DistFile)} (plans : Plans engine disk targets groups) :
    ∃ accepted, Target.readAll targets = .ok accepted ∧ (accepted = [] → groups = []) := by
  cases plans with
  | noTarget read => exact ⟨[], read, fun _ => rfl⟩
  | noSource read asked _ => exact ⟨_, read, fun none_left => absurd none_left asked⟩
  | files read asked _ _ _ => exact ⟨_, read, fun none_left => absurd none_left asked⟩

/-- What a successful run with given files does: nothing is in the way, and the files are
processed one after the other. -/
structure Carries (engine : Engine) (disk : Disk) (groups : List (List DistFile)) (report : Report)
    (after : Disk) : Prop where
  targetsPermitted : groups ≠ [] → max engine.options.targetsConcurrency 1 ≤ Options.mostPermits
  filesPermitted : groups.filter (!·.isEmpty) ≠ [] →
    max engine.options.concurrency 1 ≤ Options.mostPermits
  passes : Passes engine.options.stopOnError (outcomes engine.setting disk groups.flatten)
  report_eq : report = (({ dryRun := engine.options.dryRun } : Report).merge
    (reportOf (outcomes engine.setting disk groups.flatten))).sorted
  after_eq : after = afterEach engine.setting disk groups.flatten

theorem sorted_empty (dryRun : Bool) :
    ({ dryRun := dryRun } : Report).sorted = { dryRun := dryRun } := by
  simp [Report.sorted]

/-- A run without files reports nothing and changes nothing. -/
theorem carries_nil_iff {engine : Engine} {disk after : Disk} {report : Report} :
    Carries engine disk [] report after ↔
      report = { dryRun := engine.options.dryRun } ∧ after = disk := by
  have empty : (({ dryRun := engine.options.dryRun } : Report).merge {}).sorted =
      { dryRun := engine.options.dryRun } := by
    rw [Report.merge_empty, sorted_empty]
  constructor
  · intro carries
    exact ⟨carries.report_eq.trans empty, carries.after_eq⟩
  · rintro ⟨report_eq, after_eq⟩
    exact ⟨by simp, by simp, by simp [Passes, outcomes], report_eq.trans empty.symm, after_eq⟩

/-- A run, with its options as they were given. -/
theorem run_eq (engine : Engine) (disk : Disk) (targets : List Text) :
    engine.run disk targets =
      match Target.readAll targets with
      | .error error => (.error (.target error), disk)
      | .ok [] => (.ok { dryRun := engine.options.dryRun }, disk)
      | .ok accepted =>
        match engine.plan disk accepted with
        | .error failure => (.error failure, disk)
        | .ok [] => (.ok { dryRun := engine.options.dryRun }, disk)
        | .ok groups =>
          if Options.mostPermits < max engine.options.targetsConcurrency 1
            then (.error .crash, disk)
          else
            match processAll engine.setting engine.schedule { dryRun := engine.options.dryRun } disk
                (groups.filter (!·.isEmpty)) with
            | (.ok report, after) => (.ok report.sorted, after)
            | (.error failure, after) => (.error failure, after) := by
  have schedules : ({ engine with options := engine.options.normalized } : Engine).schedule =
      engine.schedule := by simp [schedule, Schedule.ofNumbers, Options.normalized]
  rw [run]
  simp only [schedules]
  rfl

/-- How the run of files one after the other can go, and the disk that it leaves. -/
inductive Goes (engine : Engine) (disk : Disk) (targets : List Text) :
    Except Failure Report → Disk → Prop
  | refused {error : TargetError} (read : Target.readAll targets = .error error) :
      Goes engine disk targets (.error (.target error)) disk
  | unplanned {accepted : List Target} {failure : Failure}
      (read : Target.readAll targets = .ok accepted)
      (asked : accepted ≠ []) (planned : engine.plan disk accepted = .error failure) :
      Goes engine disk targets (.error failure) disk
  | crowded {groups : List (List DistFile)} (plans : Plans engine disk targets groups)
      (some : groups ≠ []) (many : Options.mostPermits < max engine.options.targetsConcurrency 1) :
      Goes engine disk targets (.error .crash) disk
  | reported {groups : List (List DistFile)} {report : Report} {after : Disk}
      (plans : Plans engine disk targets groups)
      (processed : processAll engine.setting engine.schedule
        { dryRun := engine.options.dryRun } disk
        (groups.filter (!·.isEmpty)) = (.ok report, after)) :
      Goes engine disk targets (.ok report.sorted) after
  | failed {groups : List (List DistFile)} {failure : Failure} {after : Disk}
      (plans : Plans engine disk targets groups)
      (few : max engine.options.targetsConcurrency 1 ≤ Options.mostPermits)
      (processed : processAll engine.setting engine.schedule
        { dryRun := engine.options.dryRun } disk
        (groups.filter (!·.isEmpty)) = (.error failure, after)) :
      Goes engine disk targets (.error failure) after

theorem goes_of_run {engine : Engine} {disk after : Disk} {targets : List Text}
    {result : Except Failure Report} (ran : engine.run disk targets = (result, after)) :
    Goes engine disk targets result after := by
  have nothing (plans : Plans engine disk targets []) :
      Goes engine disk targets (.ok { dryRun := engine.options.dryRun }) disk :=
    sorted_empty engine.options.dryRun ▸ .reported plans rfl
  rw [run_eq] at ran
  cases read : Target.readAll targets with
  | error error =>
      rw [read] at ran
      cases ran
      exact .refused read
  | ok accepted =>
      cases accepted with
      | nil =>
          rw [read] at ran
          cases ran
          exact nothing (.noTarget read)
      | cons target accepted =>
          simp only [read] at ran
          cases planned : engine.plan disk (target :: accepted) with
          | error refusal =>
              rw [planned] at ran
              cases ran
              exact .unplanned read (by simp) planned
          | ok groups =>
              have plans := (plan_eq_ok_iff read (by simp)).1 planned
              rw [planned] at ran
              cases groups with
              | nil =>
                  cases ran
                  exact nothing plans
              | cons files groups =>
                  simp only at ran
                  split at ran
                  · rename_i many
                    cases ran
                    exact .crowded plans (by simp) many
                  · rename_i few
                    split at ran
                    · rename_i processed
                      cases ran
                      exact .reported plans processed
                    · rename_i processed
                      cases ran
                      exact .failed plans (Nat.not_lt.1 few) processed

theorem run_planned_eq_ok_iff {engine : Engine} {disk after : Disk} {targets : List Text}
    {accepted : List Target} {groups : List (List DistFile)} {report : Report}
    (read : Target.readAll targets = .ok accepted) (asked : accepted ≠ [])
    (planned : engine.plan disk accepted = .ok groups) :
    engine.run disk targets = (.ok report, after) ↔ Carries engine disk groups report after := by
  rw [run_eq]
  cases accepted with
  | nil => exact absurd rfl asked
  | cons target accepted =>
      simp only [read, planned]
      cases groups with
      | nil =>
          rw [carries_nil_iff]
          simp [eq_comm]
      | cons files groups =>
          simp only
          by_cases crowded : Options.mostPermits < max engine.options.targetsConcurrency 1
          · rw [if_pos crowded]
            simp only [Prod.mk.injEq, reduceCtorEq, false_and, false_iff]
            exact fun carries => Nat.not_lt.2 (carries.targetsPermitted (by simp)) crowded
          rw [if_neg crowded]
          have all (total : Report) :=
            @processAll_eq_ok_iff engine.setting disk after engine.schedule rfl
            engine.batchSize_pos
            ((files :: groups).filter (!·.isEmpty)) { dryRun := engine.options.dryRun } total
          rw [List.flatten_filter_not_isEmpty] at all
          constructor
          · intro ran
            split at ran
            · rename_i total finished processed
              cases ran
              rcases (all total).1 processed with ⟨filesPermitted, passes, rfl, after_eq⟩
              exact ⟨fun _ => Nat.not_lt.1 crowded, filesPermitted, passes, rfl, after_eq⟩
            · simp at ran
          · intro carries
            rw [(all _).2 ⟨carries.filesPermitted, carries.passes, rfl, carries.after_eq⟩,
              carries.report_eq]

/-- A successful run processes the files of its targets one after the other. -/
theorem run_eq_ok_iff {engine : Engine} {disk after : Disk} {targets : List Text}
    {report : Report} :
    engine.run disk targets = (.ok report, after) ↔
      ∃ groups, Plans engine disk targets groups ∧ Carries engine disk groups report after := by
  constructor
  · intro ran
    cases read : Target.readAll targets with
    | error error => simp [run_eq, read] at ran
    | ok accepted =>
        by_cases asked : accepted = []
        · subst asked
          simp only [run_eq, read] at ran
          cases ran
          exact ⟨[], .noTarget read, carries_nil_iff.2 ⟨rfl, rfl⟩⟩
        cases planned : engine.plan disk accepted with
        | error failure =>
            cases accepted with
            | nil => exact absurd rfl asked
            | cons target accepted => simp [run_eq, read, planned] at ran
        | ok groups =>
            exact ⟨groups, (plan_eq_ok_iff read asked).1 planned,
              (run_planned_eq_ok_iff read asked planned).1 ran⟩
  · rintro ⟨groups, plans, carries⟩
    rcases plans.exists_read with ⟨accepted, read, none_left⟩
    by_cases asked : accepted = []
    · subst asked
      rcases carries_nil_iff.1 (none_left rfl ▸ carries) with ⟨rfl, rfl⟩
      simp only [run_eq, read]
    · exact (run_planned_eq_ok_iff read asked ((plan_eq_ok_iff read asked).2 plans)).2 carries

end Engine

end DistDirectives.Run
