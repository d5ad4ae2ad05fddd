import DistDirectives.Proofs.Run.Reports
import DistDirectives.Proofs.Run.Settlement

/-!
# How a run can end

The files of a run are in flight beside each other, so one project can lead to several
ends. `Engine.MayEnd` is about all of them: the files of a plan are executed in any of the
ways that batches and permits leave open, and what is reported are the results in any order,
or the first failure of some target. The run of files one after the other is one of these
ends (`run_mayEnd`).
-/

namespace DistDirectives.Run

variable {setting : Setting} {disk after : Disk}

/-! ## The first failure of files one after the other -/

theorem exists_first_failure {files : List DistFile}
    (fails : ¬ Passes true (outcomes setting disk files)) :
    ∃ front dist rest error, files = front ++ dist :: rest ∧
      Passes true (outcomes setting disk front) ∧
      (process setting (afterEach setting disk front) dist).1 = .error error := by
  induction files generalizing disk with
  | nil => exact absurd (by simp [Passes, outcomes]) fails
  | cons dist files ih =>
      cases processed : (process setting disk dist).1 with
      | error error => exact ⟨[], dist, files, error, rfl, by simp [Passes, outcomes], processed⟩
      | ok result =>
          have first : Passes true [(dist, (process setting disk dist).1)] := by
            intro _ outcome mem
            rw [List.mem_singleton.1 mem]
            exact ⟨result, processed⟩
          have later : ¬ Passes true (outcomes setting (process setting disk dist).2 files) := by
            intro passes
            apply fails
            rw [outcomes, ← List.singleton_append, passes_append]
            exact ⟨first, passes⟩
          obtain ⟨front, failing, rest, error, rfl, passes, failed⟩ := ih later
          refine ⟨dist :: front, failing, rest, error, rfl, ?_, failed⟩
          rw [outcomes, ← List.singleton_append, passes_append]
          exact ⟨first, passes⟩

namespace Schedule

/-- A schedule ends at the first failure that stops it. -/
theorem run_eq_error {schedule : Schedule} (running : schedule.halted = false)
    (positive : 0 < schedule.batchSize) (permitted : schedule.concurrency ≤ Options.mostPermits)
    (stops : schedule.stopOnError = true) {front rest : List DistFile} {dist : DistFile}
    {error : DiskError}
    (passes : Passes true (outcomes setting disk front))
    (fails : (process setting (afterEach setting disk front) dist).1 = .error error) :
    schedule.run setting disk (front ++ dist :: rest) =
      (.error (.file dist.path error), schedule.halt,
        (process setting (afterEach setting disk front) dist).2) := by
  have atFailure : step setting true
      { disk := afterEach setting disk front, report := reportOf (outcomes setting disk front),
        halted := schedule.halted } dist =
      { disk := (process setting (afterEach setting disk front) dist).2
        report := reportOf (outcomes setting disk front)
        failure := some (.file dist.path error), halted := true } := by
    rw [step, if_neg (by simp [running])]
    cases processed : process setting (afterEach setting disk front) dist with
    | mk result last =>
        rw [processed] at fails
        simp only at fails
        rw [fails]
        rfl
  have beforeFailure :=
    @foldl_step_eq setting true { disk := disk, halted := schedule.halted } running
    front passes
  rw [Report.empty_merge (dryRun_reportOf _)] at beforeFailure
  rw [run, if_neg (Nat.not_lt.2 permitted), foldl_batches positive, halt, stops, List.foldl_append,
    beforeFailure, List.foldl_cons, atFailure, foldl_step_of_halted rfl]

end Schedule

namespace Engine

open Disk (IsPlainProject LeadsToPlainTree)

theorem processAll_eq_error {schedule : Schedule} (running : schedule.halted = false)
    (positive : 0 < schedule.batchSize) (permitted : schedule.concurrency ≤ Options.mostPermits)
    (stops : schedule.stopOnError = true) {groups : List (List DistFile)} {start : Report}
    (fails : ¬ Passes true (outcomes setting disk groups.flatten)) :
    ∃ front dist rest error, groups.flatten = front ++ dist :: rest ∧
      Passes true (outcomes setting disk front) ∧
      (process setting (afterEach setting disk front) dist).1 = .error error ∧
      processAll setting schedule start disk groups =
        (.error (.file dist.path error),
          (process setting (afterEach setting disk front) dist).2) := by
  induction groups generalizing disk start with
  | nil => exact absurd (by simp [Passes, outcomes]) fails
  | cons files groups ih =>
      by_cases first : Passes true (outcomes setting disk files)
      · have later :
            ¬ Passes true (outcomes setting (afterEach setting disk files) groups.flatten) := by
          intro passes
          apply fails
          rw [List.flatten_cons, outcomes_append, passes_append]
          exact ⟨first, passes⟩
        have ran := (@Schedule.run_eq_ok_iff setting disk
            (afterEach setting disk files) files schedule
          running positive _ schedule).2 ⟨permitted, stops ▸ first, rfl, rfl, rfl⟩
        obtain ⟨front, dist, rest, error, split, passes, failed, processed⟩ :=
          @ih _ (start.merge (reportOf (outcomes setting disk files))) later
        refine ⟨files ++ front, dist, rest, error, ?_, ?_, ?_, ?_⟩
        · rw [List.flatten_cons, split, List.append_assoc]
        · rw [outcomes_append, passes_append]
          exact ⟨first, passes⟩
        · rwa [afterEach_append]
        · rw [processAll, ran, afterEach_append]
          exact processed
      · obtain ⟨front, dist, rest, error, rfl, passes, failed⟩ := exists_first_failure first
        refine ⟨front, dist, rest ++ groups.flatten, error, by simp, passes, failed, ?_⟩
        rw [processAll, Schedule.run_eq_error running positive permitted stops passes failed]

/-- When more files are to be in flight than can be counted, the first target is given up before it
starts. -/
theorem processAll_of_choked {schedule : Schedule}
    (many : Options.mostPermits < schedule.concurrency)
    {groups : List (List DistFile)} (some : groups ≠ []) {start : Report} :
    processAll setting schedule start disk groups = (.error .task, disk) := by
  obtain ⟨files, more, rfl⟩ := List.exists_cons_of_ne_nil some
  rw [processAll, Schedule.run, if_pos many]

/-! ## Ends -/

/-- The files of the targets of a run as they are scheduled. Targets without files are left
out. -/
def agenda (engine : Engine) (groups : List (List DistFile)) : Agenda :=
  { targets := (groups.filter (!·.isEmpty)).map engine.schedule.batches
    concurrency := engine.schedule.concurrency
    targetsConcurrency := max engine.options.targetsConcurrency 1
    stopOnError := engine.options.stopOnError }

theorem flatten_batches (engine : Engine) (files : List DistFile) :
    (engine.schedule.batches files).flatten = files :=
  Schedule.chunks_flatten engine.batchSize_pos (Nat.le_refl _)

theorem files_agenda (engine : Engine) (groups : List (List DistFile)) :
    (engine.agenda groups).files = groups.flatten := by
  have whole : (List.flatten ∘ engine.schedule.batches) = id := by
    funext files
    exact engine.flatten_batches files
  rw [Agenda.files, agenda, List.flatten_flatten, List.map_map, whole, List.map_id,
    List.flatten_filter_not_isEmpty]

theorem concurrency_agenda_pos (engine : Engine) (groups : List (List DistFile)) :
    0 < (engine.agenda groups).concurrency :=
  Nat.lt_of_lt_of_le Nat.zero_lt_one (Nat.le_max_right _ _)

theorem targetsConcurrency_agenda_pos (engine : Engine) (groups : List (List DistFile)) :
    0 < (engine.agenda groups).targetsConcurrency :=
  Nat.lt_of_lt_of_le Nat.zero_lt_one (Nat.le_max_right _ _)

/-- The first failure of a target in a log. -/
def firstFailure? (target : List (List DistFile)) (log : List Outcome) :
    Option (DistFile × DiskError) :=
  log.findSome? fun outcome =>
    match outcome with
    | (_, .ok _) => none
    | (dist, .error error) => if dist ∈ target.flatten then some (dist, error) else none

theorem mem_of_firstFailure?_eq_some {target : List (List DistFile)} {log : List Outcome}
    {dist : DistFile} {error : DiskError} (first : firstFailure? target log = some (dist, error)) :
    (dist, .error error) ∈ log ∧ dist ∈ target.flatten := by
  obtain ⟨outcome, mem, found⟩ := List.exists_of_findSome?_eq_some first
  split at found
  · contradiction
  · split at found
    · rename_i isMem
      cases found
      exact ⟨mem, isMem⟩
    · contradiction

/-- No more files and targets than can be counted are to be in flight. -/
structure Permits (engine : Engine) (groups : List (List DistFile)) : Prop where
  targets : groups ≠ [] → max engine.options.targetsConcurrency 1 ≤ Options.mostPermits
  files : groups.filter (!·.isEmpty) ≠ [] → max engine.options.concurrency 1 ≤ Options.mostPermits

theorem Permits.of_append {front back : List (List DistFile)}
    (permits : Permits engine (front ++ back)) : Permits engine front ∧ Permits engine back := by
  obtain ⟨targets, files⟩ := permits
  rw [List.filter_append] at files
  refine ⟨⟨fun some => targets (by simp [some]), fun some => files ?_⟩,
    ⟨fun some => targets (by simp [some]), fun some => files ?_⟩⟩
  · exact fun none_left => some (List.append_eq_nil_iff.1 none_left).1
  · exact fun none_left => some (List.append_eq_nil_iff.1 none_left).2

theorem Permits.perm {groups others : List (List DistFile)} (permits : Permits engine groups)
    (perm : others.Perm groups) : Permits engine others := by
  refine ⟨fun some => permits.targets ?_, fun some => permits.files ?_⟩
  · rintro rfl
    exact some perm.eq_nil
  · intro none_left
    have filtered := perm.filter (!·.isEmpty)
    rw [none_left] at filtered
    exact some filtered.eq_nil

/-- The results that a run can have, and the disks that it can leave. -/
inductive MayEnd (engine : Engine) (disk : Disk) (targets : List Text) :
    Except Failure Report → Disk → Prop
  | refused {error : TargetError} (read : Target.readAll targets = .error error) :
      MayEnd engine disk targets (.error (.target error)) disk
  | unplanned {accepted : List Target} {failure : Failure}
      (read : Target.readAll targets = .ok accepted)
      (asked : accepted ≠ []) (planned : engine.plan disk accepted = .error failure) :
      MayEnd engine disk targets (.error failure) disk
  | crowded {groups : List (List DistFile)} (plans : Plans engine disk targets groups)
      (some : groups ≠ []) (many : Options.mostPermits < max engine.options.targetsConcurrency 1) :
      MayEnd engine disk targets (.error .crash) disk
  | choked {groups : List (List DistFile)} (plans : Plans engine disk targets groups)
      (few : max engine.options.targetsConcurrency 1 ≤ Options.mostPermits)
      (some : groups.filter (!·.isEmpty) ≠ [])
      (many : Options.mostPermits < max engine.options.concurrency 1) :
      MayEnd engine disk targets (.error .task) disk
  /-- Nothing stopped the run. -/
  | reported {groups : List (List DistFile)} {pool : Pool} {results : List Outcome}
      (plans : Plans engine disk targets groups) (permits : Permits engine groups)
      (executes : Pool.Executes (engine.agenda groups) engine.setting disk pool)
      (passes : Passes engine.options.stopOnError pool.log) (order : results.Perm pool.log) :
      MayEnd engine disk targets
        (.ok (({ dryRun := engine.options.dryRun } : Report).merge (reportOf results)).sorted)
          pool.disk
  /-- The first failure of a target stopped the run. -/
  | failed {groups : List (List DistFile)} {pool : Pool} {target : List (List DistFile)}
      {dist : DistFile}
      {error : DiskError} (plans : Plans engine disk targets groups)
        (permits : Permits engine groups)
      (executes : Pool.Executes (engine.agenda groups) engine.setting disk pool)
      (stops : engine.options.stopOnError = true)
        (targetMem : target ∈ (engine.agenda groups).targets)
      (first : firstFailure? target pool.log = Option.some (dist, error)) :
      MayEnd engine disk targets (.error (.file dist.path error)) pool.disk

variable {engine : Engine} {base : Location} {targets : List Text} {groups : List (List DistFile)}

/-- There is one plan. -/
theorem Plans.unique {others : List (List DistFile)} (plans : Plans engine disk targets groups)
    (again : Plans engine disk targets others) : others = groups := by
  obtain ⟨accepted, read, none_asked⟩ := plans.exists_read
  obtain ⟨acceptedAgain, readAgain, none_asked_again⟩ := again.exists_read
  rw [read] at readAgain
  cases readAgain
  by_cases asked : accepted = []
  · rw [none_asked asked, none_asked_again asked]
  · have planned := (plan_eq_ok_iff read asked).2 plans
    rw [(plan_eq_ok_iff read asked).2 again] at planned
    exact Except.ok.inj planned

/-- A run that has a plan, and whose numbers can be counted, executes the plan. It succeeds
unless a failure stops it. -/
theorem MayEnd.exists_executes {result : Except Failure Report}
    (ended : MayEnd engine disk targets result after) (plans : Plans engine disk targets groups)
    (permits : Permits engine groups) :
    ∃ pool, Pool.Executes (engine.agenda groups) engine.setting disk pool ∧ after = pool.disk ∧
      ((∃ results, results.Perm pool.log ∧ Passes engine.options.stopOnError pool.log ∧ result =
          .ok (({ dryRun := engine.options.dryRun } : Report).merge (reportOf results)).sorted) ∨
        engine.options.stopOnError = true ∧ ∃ dist error, (dist, .error error) ∈ pool.log ∧
          result = .error (.file dist.path error)) := by
  cases ended with
  | refused read =>
      obtain ⟨_, accepted, _⟩ := plans.exists_read
      rw [read] at accepted
      contradiction
  | unplanned read asked planned =>
      rw [(plan_eq_ok_iff read asked).2 plans] at planned
      contradiction
  | crowded again some many =>
      rw [plans.unique again] at some
      exact absurd many (Nat.not_lt.2 (permits.targets some))
  | choked again _ some many =>
      rw [plans.unique again] at some
      exact absurd many (Nat.not_lt.2 (permits.files some))
  | @reported others pool results again _ executes passes order =>
      rw [plans.unique again] at executes
      exact ⟨pool, executes, rfl, .inl ⟨results, order, passes, rfl⟩⟩
  | @failed others pool target dist error again _ executes stops _ first =>
      rw [plans.unique again] at executes
      exact ⟨pool, executes, rfl,
        .inr ⟨stops, dist, error, (mem_of_firstFailure?_eq_some first).1, rfl⟩⟩

/-- The files of a plan and their project. -/
theorem isScene_of_plans (project : IsPlainProject disk engine.root base)
    (plainSources : LeadsToPlainTree disk (engine.root.join engine.sourceDir))
    (plans : Plans engine disk targets groups) :
    IsScene engine.setting disk base groups.flatten := by
  refine ⟨project.toIsProject, plans.areApart project plainSources, ?_⟩
  exact fun dist mem => ((plans.mem_flatten_iff.1 mem).exists_origin project plainSources).1

theorem isGround_of_plans (project : IsPlainProject disk engine.root base)
    (isSourceDirectory : IsSourceDirectory (Path.ofText engine.sourceDir))
    (plans : Plans engine disk targets groups) :
    IsGround engine.setting disk base groups.flatten :=
  ⟨isScene_of_plans project (leadsToPlainTree project isSourceDirectory) plans, isSourceDirectory⟩

/-- Names aside, what the files of a plan leave when all of them are at rest. -/
theorem rests_of_executes (project : IsPlainProject disk engine.root base)
    (isSourceDirectory : IsSourceDirectory (Path.ofText engine.sourceDir))
    (plans : Plans engine disk targets groups) {pool : Pool}
    (executes : Pool.Executes (engine.agenda groups) engine.setting disk pool) :
    IsGround engine.setting disk base (engine.agenda groups).files ∧
      Rests (engine.agenda groups) engine.setting disk base False pool := by
  have ground := isGround_of_plans project isSourceDirectory plans
  rw [← files_agenda] at ground
  exact ⟨ground, executes.rests ground False.elim⟩

theorem exists_target_of_mem {dist : DistFile} (mem : dist ∈ groups.flatten) :
    ∃ target ∈ (engine.agenda groups).targets, dist ∈ target.flatten := by
  rcases List.mem_flatten.1 mem with ⟨files, filesMem, distMem⟩
  refine ⟨engine.schedule.batches files, ?_, by rwa [flatten_batches]⟩
  have nonempty : files.isEmpty = false := by
    rw [List.isEmpty_eq_false_iff]
    exact List.ne_nil_of_mem distMem
  exact List.mem_map.2 ⟨files, List.mem_filter.2 ⟨filesMem, by simp [nonempty]⟩, rfl⟩

/-- The first of several results that is a failure is the first failure of its target. -/
theorem firstFailure?_append_of_passes {target : List (List DistFile)} {log : List Outcome}
    {dist : DistFile} {error : DiskError} (passes : Passes true log) (mem : dist ∈ target.flatten) :
    firstFailure? target (log ++ [(dist, .error error)]) = some (dist, error) := by
  have none_before : firstFailure? target log = none := by
    rw [firstFailure?, List.findSome?_eq_none_iff]
    intro outcome outcomeMem
    rcases outcome with ⟨other, result⟩
    rcases passes rfl _ outcomeMem with ⟨value, rfl⟩
    rfl
  rw [firstFailure?] at none_before ⊢
  rw [List.findSome?_append, none_before, List.findSome?_singleton, Option.none_or]
  simp only [mem, if_true]

/-- A planned run that fails is stopped by numbers that cannot be counted, or by the first
file that fails. -/
theorem mayEnd_of_planned (project : IsPlainProject disk engine.root base)
    (isSourceDirectory : IsSourceDirectory (Path.ofText engine.sourceDir))
    (plans : Plans engine disk targets groups)
    (few : max engine.options.targetsConcurrency 1 ≤ Options.mostPermits) {failure : Failure}
    {start : Report}
    (processed : processAll engine.setting engine.schedule start disk (groups.filter (!·.isEmpty)) =
      (.error failure, after)) : MayEnd engine disk targets (.error failure) after := by
  have ground := isGround_of_plans project isSourceDirectory plans
  have positive := engine.batchSize_pos
  by_cases empty : groups.filter (!·.isEmpty) = []
  · rw [empty] at processed
    cases processed
  by_cases many : Options.mostPermits < max engine.options.concurrency 1
  · have refused : Options.mostPermits < engine.schedule.concurrency := many
    rw [processAll_of_choked refused empty] at processed
    cases processed
    exact .choked plans few empty many
  have permitted : engine.schedule.concurrency ≤ Options.mostPermits := Nat.not_lt.1 many
  have permits : Permits engine groups := ⟨fun _ => few, fun _ => permitted⟩
  by_cases passes : Passes engine.options.stopOnError (outcomes engine.setting disk groups.flatten)
  · have done := (@processAll_eq_ok_iff engine.setting disk _ engine.schedule rfl positive
      (groups.filter (!·.isEmpty)) start _).2
        ⟨fun _ => permitted, by rwa [List.flatten_filter_not_isEmpty], rfl, rfl⟩
    rw [done] at processed
    cases processed
  have stops : engine.options.stopOnError = true := by
    by_contra goesOn
    exact passes fun stop => absurd stop goesOn
  rw [stops] at passes
  obtain ⟨front, dist, rest, error, split, passesBefore, failed, done⟩ :=
    @processAll_eq_error engine.setting disk engine.schedule rfl positive permitted stops
      (groups.filter (!·.isEmpty)) start (by rwa [List.flatten_filter_not_isEmpty])
  rw [done] at processed
  cases processed
  rw [List.flatten_filter_not_isEmpty] at split
  have nodup : (engine.agenda groups).files.Nodup := by
    rw [files_agenda]
    exact ground.nodup
  obtain ⟨pool, executes, disk_eq, log_eq⟩ := Pool.exists_executes_of_failure nodup
    (engine.concurrency_agenda_pos groups) (engine.targetsConcurrency_agenda_pos groups) disk stops
    ((files_agenda engine groups).trans split) (fun _ => passesBefore rfl) failed
  obtain ⟨target, targetMem, distMem⟩ := @exists_target_of_mem engine groups dist (by simp [split])
  rw [← disk_eq]
  apply MayEnd.failed plans permits executes stops targetMem
  rw [log_eq]
  exact firstFailure?_append_of_passes passesBefore distMem

/-- A run that succeeds is one way for a run to end. -/
theorem mayEnd_of_carries (plans : Plans engine disk targets groups)
    (distinct : groups.flatten.Nodup)
    {report : Report} (carries : Carries engine disk groups report after) :
    MayEnd engine disk targets (.ok report) after := by
  have nodup : (engine.agenda groups).files.Nodup := by rwa [files_agenda]
  obtain ⟨pool, executes, disk_eq, log_eq⟩ := @Pool.exists_executes (engine.agenda groups)
    engine.setting nodup (engine.concurrency_agenda_pos groups)
    (engine.targetsConcurrency_agenda_pos groups) disk (by rw [files_agenda]; exact carries.passes)
  rw [files_agenda] at disk_eq log_eq
  rw [carries.report_eq, carries.after_eq, ← disk_eq, ← log_eq]
  exact .reported plans ⟨carries.targetsPermitted, carries.filesPermitted⟩ executes
    (log_eq ▸ carries.passes) (List.Perm.refl _)

/-- The run of files one after the other is one way for a run to end. -/
theorem run_mayEnd (project : IsPlainProject disk engine.root base)
    (isSourceDirectory : IsSourceDirectory (Path.ofText engine.sourceDir)) (targets : List Text) :
    MayEnd engine disk targets (engine.run disk targets).1 (engine.run disk targets).2 := by
  rcases ran : engine.run disk targets with ⟨result, after⟩
  cases result with
  | ok report =>
      rcases run_eq_ok_iff.1 ran with ⟨groups, plans, carries⟩
      exact mayEnd_of_carries plans
        (isGround_of_plans project isSourceDirectory plans).nodup carries
  | error failure =>
      cases goes_of_run ran with
      | refused read => exact .refused read
      | unplanned read asked planned => exact .unplanned read asked planned
      | crowded plans some many => exact .crowded plans some many
      | failed plans few processed =>
          exact mayEnd_of_planned project isSourceDirectory plans few processed

/-- A run comes to an end, its files in flight beside each other or one after the other. -/
def ComesTo (engine : Engine) (disk : Disk) (targets : List Text) (result : Except Failure Report)
    (after : Disk) : Prop :=
  MayEnd engine disk targets result after ∨ engine.run disk targets = (result, after)

/-- A run that succeeds one file after the other is one way for a run to end. -/
theorem ComesTo.mayEnd_of_ok {report : Report}
    (comes : ComesTo engine disk targets (.ok report) after)
    (distinct : ∀ groups, Plans engine disk targets groups → groups.flatten.Nodup) :
    MayEnd engine disk targets (.ok report) after := by
  rcases comes with ended | ran
  · exact ended
  · rcases run_eq_ok_iff.1 ran with ⟨groups, plans, carries⟩
    exact mayEnd_of_carries plans (distinct groups plans) carries

/-- In a project the run of files one after the other is no end of its own. -/
theorem ComesTo.mayEnd {result : Except Failure Report}
    (project : IsPlainProject disk engine.root base)
    (isSourceDirectory : IsSourceDirectory (Path.ofText engine.sourceDir))
    (comes : ComesTo engine disk targets result after) :
    MayEnd engine disk targets result after := by
  rcases comes with ended | ran
  · exact ended
  · have ended := run_mayEnd project isSourceDirectory targets
    rwa [ran] at ended

end Engine

end DistDirectives.Run
