import DistDirectives.Proofs.Run.Order

/-!
# Two policies for failures

A run stops at the first file that fails, or it notes failures and goes on. As long as no
file fails nothing tells the two apart: every way through the files under one policy is a
way under the other. So a run that stops succeeds exactly where one that goes on reports
no failure, and then they report the same and leave the same disk.

A target that is halted because of another one's failure has no failure of its own, and
fewer results than files. It does not make a run succeed: the failure that halts it is that
of some target (`passes_iff_firstFailure?_eq_none`).
-/

namespace DistDirectives.Run

open Disk (temporaryPlace IsPlainProject)
open Relation (ReflTransGen)

/-! ## Executions without a failure -/

theorem Passes.of_true {results : List Outcome} (passes : Passes true results) (stop : Bool) :
    Passes stop results := fun _ => passes rfl

/-- A report is without failures when all results are. -/
theorem errors_sorted_eq_nil_iff {results : List Outcome} {dry : Bool} :
    (({ dryRun := dry } : Report).merge (reportOf results)).sorted.errors = [] ↔
      Passes true results := by
  have sorted_nil (failures : List FileFailure) :
      (failures.mergeSort fun first second => !second.path.before first.path) = [] ↔
        failures = [] := by
    rw [← List.length_eq_zero_iff, List.length_mergeSort, List.length_eq_zero_iff]
  simp only [Report.merge, Report.sorted, List.nil_append, sorted_nil]
  constructor
  · intro none_failed _ outcome mem
    rcases outcome with ⟨dist, result⟩
    cases result with
    | ok result => exact ⟨result, rfl⟩
    | error error =>
        have failed := mem_errors_reportOf.2 ⟨dist, error, mem, rfl⟩
        rw [none_failed] at failed
        contradiction
  · intro passes
    rw [List.eq_nil_iff_forall_not_mem]
    intro failure mem
    obtain ⟨dist, error, resultMem, _⟩ := mem_errors_reportOf.1 mem
    rcases passes rfl _ resultMem with ⟨_, isOk⟩
    contradiction

/-- The agenda under a policy: whether failures stop it. -/
def Agenda.withStop (agenda : Agenda) (stop : Bool) : Agenda := { agenda with stopOnError := stop }

namespace Pool

variable {agenda : Agenda} {setting : Setting} {disk : Disk} {pool next : Pool} {dist : DistFile}

/-- What is noted stays noted. -/
theorem Step.log_isPrefix (step : Step agenda setting pool next) : pool.log <+: next.log := by
  cases step with
  | start => exact List.prefix_rfl
  | work => exact List.prefix_rfl
  | note => exact List.prefix_append _ _

theorem MayStart.withStop {stop : Bool} (may : MayStart agenda pool dist)
    (passes : Passes true pool.log) :
    MayStart (agenda.withStop stop) pool dist :=
  { may with running := passes.of_true stop }

theorem Step.withStop {stop : Bool} (step : Step agenda setting pool next)
    (passes : Passes true pool.log) : Step (agenda.withStop stop) setting pool next := by
  cases step with
  | start may => exact .start (may.withStop passes)
  | work come busy => exact .work come busy
  | note come unnoted => exact .note come unnoted

/-- Up to the first failure, the steps under one policy are steps under the other. -/
theorem steps_withStop {stop : Bool} (steps : ReflTransGen (Step agenda setting) pool next)
    (passes : Passes true next.log) :
    ReflTransGen (Step (agenda.withStop stop) setting) pool next := by
  induction steps with
  | refl => exact .refl
  | tail _ step ih =>
      obtain ⟨more, log_eq⟩ := step.log_isPrefix
      rw [← log_eq, passes_append] at passes
      exact (ih passes.1).tail (step.withStop passes.1)

theorem Executes.withStop (executes : Executes agenda setting disk pool)
    (passes : Passes true pool.log)
    (stop : Bool) : Executes (agenda.withStop stop) setting disk pool :=
  ⟨steps_withStop executes.1 passes, executes.2.drained,
    fun _ => executes.2.complete (passes.of_true agenda.stopOnError)⟩

end Pool

section

variable {setting : Setting} {disk : Disk} {base : Location} {agenda otherAgenda : Agenda}
  {pool otherPool : Pool} {clear : Prop}

/-- Two executions without a failure agree about every file, whatever the names are. -/
theorem Rests.result_eq_of_passes (rests : Rests agenda setting disk base clear pool)
    (others : Rests otherAgenda setting disk base clear otherPool) (passes : Passes true pool.log)
    (otherPasses : Passes true otherPool.log) (dist : DistFile)
    (result again : Except DiskError FileResult)
    (mem : (dist, result) ∈ pool.log) (otherMem : (dist, again) ∈ otherPool.log) :
    again = result := by
  obtain ⟨decision, warnings, decides, ends⟩ := rests.ends dist result mem
  obtain ⟨_, _, decidesAgain, endsAgain⟩ := others.ends dist again otherMem
  rcases decides.unique decidesAgain with ⟨rfl, rfl⟩
  rcases passes rfl _ mem with ⟨_, rfl⟩
  rcases otherPasses rfl _ otherMem with ⟨_, rfl⟩
  rw [ends.result_eq.2, endsAgain.result_eq.2]

/-- When names are clear, a failure cannot be avoided by another order. -/
theorem Rests.passes_of_passes (rests : Rests agenda setting disk base True pool)
    (others : Rests otherAgenda setting disk base True otherPool)
    (perm : otherAgenda.files.Perm agenda.files) (passes : Passes true pool.log) :
    Passes true otherPool.log := by
  rintro - ⟨dist, again⟩ otherMem
  have isNoted := rests.complete (passes.of_true _) dist (perm.mem_iff.1 (others.known _ otherMem))
  obtain ⟨result, mem⟩ := Pool.mem_noted_iff.1 isNoted
  rcases passes rfl _ mem with ⟨value, rfl⟩
  exact ⟨value, rests.result_eq others mem otherMem⟩

end

namespace Engine

variable {engine : Engine} {disk after : Disk} {base : Location} {targets : List Text}
  {groups : List (List DistFile)} {report : Report}

/-! ## Both policies -/

/-- The engine under a policy: whether failures stop its runs. -/
def withStopOnError (engine : Engine) (stop : Bool) : Engine :=
  { engine with options := { engine.options with stopOnError := stop } }

theorem plans_withStopOnError_iff {stop : Bool} :
    Plans (engine.withStopOnError stop) disk targets groups ↔ Plans engine disk targets groups := by
  constructor
  · intro plans
    cases plans with
    | noTarget read => exact .noTarget read
    | noSource read asked found => exact .noSource read asked found
    | files read asked found some expanded => exact .files read asked found some expanded
  · intro plans
    cases plans with
    | noTarget read => exact .noTarget read
    | noSource read asked found => exact .noSource read asked found
    | files read asked found some expanded => exact .files read asked found some expanded

theorem permits_withStopOnError_iff {stop : Bool} :
    Permits (engine.withStopOnError stop) groups ↔ Permits engine groups :=
  ⟨fun permits => ⟨permits.targets, permits.files⟩, fun permits => ⟨permits.targets, permits.files⟩⟩

/-- A way for a run to succeed without a failure is one under both policies. -/
theorem MayEnd.withStopOnError {stop : Bool}
    (ended : MayEnd (engine.withStopOnError stop) disk targets (.ok report) after)
    (none_failed : report.errors = []) (other : Bool) :
    MayEnd (engine.withStopOnError other) disk targets (.ok report) after := by
  cases ended with
  | @reported groups pool results plans permits executes passes order =>
      have allPass : Passes true pool.log := by
        intro _ outcome mem
        exact errors_sorted_eq_nil_iff.1 none_failed rfl outcome (order.mem_iff.2 mem)
      exact .reported
        (plans_withStopOnError_iff.2 (plans_withStopOnError_iff.1 plans))
        (permits_withStopOnError_iff.2 (permits_withStopOnError_iff.1 permits))
        (executes.withStop allPass other) (allPass.of_true other) order

/-- A run that failures stop reports none. -/
theorem MayEnd.errors_eq_nil (ended : MayEnd engine disk targets (.ok report) after)
    (stops : engine.options.stopOnError = true) : report.errors = [] := by
  cases ended with
  | reported _ _ _ passes order =>
      rw [errors_sorted_eq_nil_iff]
      exact fun _ outcome mem => passes stops outcome (order.mem_iff.1 mem)

/-- Two ways for a run to succeed without a failure are the same, whatever the policies. -/
theorem MayEnd.eq_of_errors_eq_nil (project : IsPlainProject disk engine.root base)
    (isSourceDirectory : IsSourceDirectory (Path.ofText engine.sourceDir))
    {other : Report} {last : Disk}
    (ended : MayEnd engine disk targets (.ok report) after) (none_failed : report.errors = [])
    (again : MayEnd engine disk targets (.ok other) last) (none_failed_again : other.errors = []) :
    other = report ∧ last = after := by
  cases ended with
  | @reported groups pool results plans _ executes _ order =>
      cases again with
      | @reported others otherPool otherResults otherPlans _ otherExecutes _ otherOrder =>
          have same := plans.unique otherPlans
          subst same
          rw [errors_sorted_eq_nil_iff] at none_failed none_failed_again
          have passes : Passes true pool.log :=
            fun _ outcome mem => none_failed rfl outcome (order.mem_iff.2 mem)
          have otherPasses : Passes true otherPool.log :=
            fun _ outcome mem => none_failed_again rfl outcome (otherOrder.mem_iff.2 mem)
          obtain ⟨ground, rests⟩ := rests_of_executes project isSourceDirectory plans executes
          obtain ⟨_, others⟩ := rests_of_executes project isSourceDirectory plans otherExecutes
          have noted := rests.noted_perm_of_passes ground (passes.of_true _)
          have otherNoted := others.noted_perm_of_passes ground (otherPasses.of_true _)
          have agree := rests.result_eq_of_passes others passes otherPasses
          have logs := rests.log_perm_of_agree others (.refl _) noted otherNoted agree
          constructor
          · exact (sorted_reportOf_eq_of_perm ((order.trans logs.symm).trans otherOrder.symm)
              ((rests.areOwn ground).perm order.symm) _ ⟨rfl, rfl⟩).symm
          · exact rests.disk_eq_of_agree others (.refl _) noted otherNoted agree

/-- An end of a run that failures stop, and an end of one that goes on, are the same if one
of them is without a failure. -/
structure Coincide (stopped collected : Except Failure Report × Disk) : Prop where
  succeeds_iff : (∃ report, stopped.1 = .ok report) ↔
    ∃ report, collected.1 = .ok report ∧ report.errors = []
  same : (∃ report, stopped.1 = .ok report) → collected = stopped

theorem run_withStopOnError_iff :
    (engine.withStopOnError true).run disk targets = (.ok report, after) ↔
      (engine.withStopOnError false).run disk targets = (.ok report, after) ∧
        report.errors = [] := by
  rw [run_eq_ok_iff, run_eq_ok_iff]
  constructor
  · rintro ⟨groups, plans, carries⟩
    have passes : Passes true (outcomes engine.setting disk groups.flatten) := carries.passes
    refine ⟨⟨groups, plans_withStopOnError_iff.2 (plans_withStopOnError_iff.1 plans), ?_⟩, ?_⟩
    · exact { carries with passes := passes.of_true false }
    · rw [carries.report_eq]
      exact errors_sorted_eq_nil_iff.2 passes
  · rintro ⟨⟨groups, plans, carries⟩, none_failed⟩
    refine ⟨groups, plans_withStopOnError_iff.2 (plans_withStopOnError_iff.1 plans), ?_⟩
    rw [carries.report_eq] at none_failed
    exact { carries with passes := errors_sorted_eq_nil_iff.1 none_failed }

theorem coincide_of_run (engine : Engine) (disk : Disk) (targets : List Text) :
    Coincide ((engine.withStopOnError true).run disk targets)
      ((engine.withStopOnError false).run disk targets) := by
  have stopped {report : Report}
      (succeeds : ((engine.withStopOnError true).run disk targets).1 = .ok report) :=
    run_withStopOnError_iff.1 (Prod.ext succeeds rfl :
      (engine.withStopOnError true).run disk targets = (.ok report, _))
  constructor
  · constructor
    · rintro ⟨report, succeeds⟩
      exact ⟨report, congrArg Prod.fst (stopped succeeds).1, (stopped succeeds).2⟩
    · rintro ⟨report, succeeds, none_failed⟩
      exact ⟨report,
        congrArg Prod.fst (run_withStopOnError_iff.2 ⟨Prod.ext succeeds rfl, none_failed⟩)⟩
  · rintro ⟨report, succeeds⟩
    rw [(stopped succeeds).1]
    exact Prod.ext succeeds.symm rfl

/-- When names are clear, an execution is without a failure under one policy if it is under
the other. -/
theorem passes_iff_of_clear (project : IsPlainProject disk engine.root base)
    (isSourceDirectory : IsSourceDirectory (Path.ofText engine.sourceDir))
    (plans : Plans engine disk targets groups)
    (clear : ∀ dist other, Expands engine disk targets dist → Expands engine disk targets other →
      other ≠ dist → other.path.segments ≠ temporaryPlace engine.writer dist.path.segments)
    {first second : Bool} {pool otherPool : Pool}
    (executes : Pool.Executes ((engine.agenda groups).withStop first) engine.setting disk pool)
    (otherExecutes : Pool.Executes
      ((engine.agenda groups).withStop second) engine.setting disk otherPool) :
    Passes true pool.log ↔ Passes true otherPool.log := by
  have ground := isGround_of_plans project isSourceDirectory plans
  have isClear := ground.isClear fun dist mem other otherMem =>
    clear dist other (plans.mem_flatten_iff.1 mem) (plans.mem_flatten_iff.1 otherMem)
  rw [← files_agenda] at ground isClear
  have rests {stop : Bool} {pool : Pool}
      (executes : Pool.Executes ((engine.agenda groups).withStop stop) engine.setting disk pool) :
      Rests ((engine.agenda groups).withStop stop) engine.setting disk base True pool :=
    executes.rests ground fun _ => isClear
  exact ⟨(rests executes).passes_of_passes (rests otherExecutes) (.refl _),
    (rests otherExecutes).passes_of_passes (rests executes) (.refl _)⟩

/-- When names are clear, every end under one policy coincides with every end under the
other. -/
theorem coincide_of_mayEnd (project : IsPlainProject disk engine.root base)
    (isSourceDirectory : IsSourceDirectory (Path.ofText engine.sourceDir))
    (clear : ∀ dist other, Expands engine disk targets dist → Expands engine disk targets other →
      other ≠ dist → other.path.segments ≠ temporaryPlace engine.writer dist.path.segments)
    {stopped collected : Except Failure Report × Disk}
    (stops : MayEnd (engine.withStopOnError true) disk targets stopped.1 stopped.2)
    (collects : MayEnd (engine.withStopOnError false) disk targets collected.1 collected.2) :
    Coincide stopped collected := by
  rcases stopped with ⟨result, after⟩
  rcases collected with ⟨otherResult, otherAfter⟩
  have succeeds_iff : (∃ report, result = .ok report) ↔
      ∃ report, otherResult = .ok report ∧ report.errors = [] := by
    constructor
    · rintro ⟨report, rfl⟩
      cases stops with
      | @reported groups pool results plans permits executes passes order =>
          have enginePlans := plans_withStopOnError_iff.1 plans
          have enginePermits := permits_withStopOnError_iff.1 permits
          obtain ⟨otherPool, otherExecutes, _, ⟨others, otherOrder, _, rfl⟩ | ⟨stopsToo, _⟩⟩ :=
            collects.exists_executes (plans_withStopOnError_iff.2 enginePlans)
              (permits_withStopOnError_iff.2 enginePermits)
          · have otherPasses :=
              (passes_iff_of_clear project isSourceDirectory enginePlans clear executes
              otherExecutes).1 passes
            exact ⟨_, rfl, errors_sorted_eq_nil_iff.2 fun _ outcome mem =>
              otherPasses rfl outcome (otherOrder.mem_iff.1 mem)⟩
          · contradiction
    · rintro ⟨report, rfl, none_failed⟩
      cases collects with
      | @reported groups pool results plans permits executes passes order =>
          have enginePlans := plans_withStopOnError_iff.1 plans
          have enginePermits := permits_withStopOnError_iff.1 permits
          have allPass : Passes true pool.log := fun _ outcome mem =>
            errors_sorted_eq_nil_iff.1 none_failed rfl outcome (order.mem_iff.2 mem)
          obtain ⟨otherPool, otherExecutes, _, ⟨_, _, _, rfl⟩ | ⟨_, dist, error, failed, _⟩⟩ :=
            stops.exists_executes (plans_withStopOnError_iff.2 enginePlans)
              (permits_withStopOnError_iff.2 enginePermits)
          · exact ⟨_, rfl⟩
          · have otherPasses :=
              (passes_iff_of_clear project isSourceDirectory enginePlans clear executes
              otherExecutes).1 allPass
            rcases otherPasses rfl _ failed with ⟨_, isOk⟩
            contradiction
  refine ⟨succeeds_iff, ?_⟩
  rintro ⟨report, rfl⟩
  obtain ⟨other, rfl, none_failed⟩ := succeeds_iff.1 ⟨report, rfl⟩
  have none_stopped := stops.errors_eq_nil rfl
  obtain ⟨rfl, rfl⟩ := @MayEnd.eq_of_errors_eq_nil (engine.withStopOnError false) _ _ _ _ _ project
    isSourceDirectory _ _ (stops.withStopOnError none_stopped false) none_stopped
      collects none_failed
  rfl

/-- Some target has a failure of its own as soon as any file fails. -/
theorem passes_iff_firstFailure?_eq_none {clear : Prop} {setting : Setting} {pool : Pool}
    (rests : Rests (engine.agenda groups) setting disk base clear pool) :
    Passes true pool.log ↔ ∀ target ∈ (engine.agenda groups).targets,
      firstFailure? target pool.log = none := by
  constructor
  · intro passes target _
    by_contra failed
    obtain ⟨⟨dist, error⟩, first⟩ := Option.ne_none_iff_exists'.1 failed
    rcases passes rfl _ (mem_of_firstFailure?_eq_some first).1 with ⟨_, isOk⟩
    contradiction
  · rintro none_failed - ⟨dist, result⟩ mem
    cases result with
    | ok result => exact ⟨result, rfl⟩
    | error error =>
        have distMem := rests.known _ mem
        rw [files_agenda] at distMem
        obtain ⟨target, targetMem, inside⟩ := @exists_target_of_mem engine groups dist distMem
        have first := none_failed target targetMem
        rw [firstFailure?, List.findSome?_eq_none_iff] at first
        have absent := first _ mem
        simp [inside] at absent

/-- A run that failures stop and one that goes on agree. Files one after the other: the first
succeeds if and only if the second reports no failure, and then their reports and their disks
are the same. Files in flight beside each other: the ways for the first to succeed are the
ways for the second to report no failure, and they all have the same report and disk; every
end of the first coincides with every end of the second when no expanded file bears the name
of another one's temporary file. And no file is left out in silence: once nothing is in
flight, either some target has a failure of its own, or every expanded file was processed. -/
theorem policies_agree (project : IsPlainProject disk engine.root base)
    (isSourceDirectory : IsSourceDirectory (Path.ofText engine.sourceDir)) (targets : List Text) :
    Coincide ((engine.withStopOnError true).run disk targets)
        ((engine.withStopOnError false).run disk targets) ∧
      (∀ report after, MayEnd (engine.withStopOnError true) disk targets (.ok report) after ↔
        MayEnd (engine.withStopOnError false) disk targets (.ok report) after ∧
          report.errors = []) ∧
      (∀ stopped collected : Report × Disk,
        MayEnd (engine.withStopOnError true) disk targets (.ok stopped.1) stopped.2 →
          MayEnd (engine.withStopOnError false) disk targets (.ok collected.1) collected.2 →
            collected.1.errors = [] → collected = stopped) ∧
      ((∀ dist other, Expands engine disk targets dist → Expands engine disk targets other →
          other ≠ dist → other.path.segments ≠ temporaryPlace engine.writer dist.path.segments) →
        ∀ stopped collected : Except Failure Report × Disk,
          MayEnd (engine.withStopOnError true) disk targets stopped.1 stopped.2 →
            MayEnd (engine.withStopOnError false) disk targets collected.1 collected.2 →
              Coincide stopped collected) ∧
      ∀ groups pool, Plans engine disk targets groups →
        Pool.Executes ((engine.withStopOnError true).agenda groups) engine.setting disk pool →
          ((∀ target ∈ (engine.agenda groups).targets, firstFailure? target pool.log = none) ↔
            ∀ dist, Expands engine disk targets dist → ∃ result,
              (dist, .ok result) ∈ pool.log) := by
  have stops_iff (report : Report) (after : Disk) :
      MayEnd (engine.withStopOnError true) disk targets (.ok report) after ↔
        MayEnd (engine.withStopOnError false) disk targets (.ok report) after ∧
          report.errors = [] := by
    constructor
    · intro ended
      have none_failed := ended.errors_eq_nil rfl
      exact ⟨ended.withStopOnError none_failed false, none_failed⟩
    · rintro ⟨ended, none_failed⟩
      exact ended.withStopOnError none_failed true
  refine ⟨coincide_of_run engine disk targets, stops_iff, ?_, ?_, ?_⟩
  · intro stopped collected stops collects none_failed
    obtain ⟨ended, none_stopped⟩ := (stops_iff _ _).1 stops
    obtain ⟨reports, disks⟩ :=
      @MayEnd.eq_of_errors_eq_nil (engine.withStopOnError false) _ _ _ _ _ project
      isSourceDirectory _ _ ended none_stopped collects none_failed
    exact Prod.ext reports disks
  · exact fun clear stopped collected stops collects =>
      coincide_of_mayEnd project isSourceDirectory clear stops collects
  · intro groups pool plans executes
    obtain ⟨ground, rests⟩ := @rests_of_executes _ (engine.withStopOnError true) _ _ _ project
      isSourceDirectory (plans_withStopOnError_iff.2 plans) _ executes
    have targets_eq :
        (engine.agenda groups).targets = ((engine.withStopOnError true).agenda groups).targets :=
      rfl
    rw [targets_eq, ← passes_iff_firstFailure?_eq_none rests]
    constructor
    · intro passes dist expands
      have isNoted := (rests.noted_perm_of_passes ground passes).mem_iff.2
        (by rw [files_agenda]; exact plans.mem_flatten_iff.2 expands)
      obtain ⟨result, mem⟩ := Pool.mem_noted_iff.1 isNoted
      rcases passes rfl _ mem with ⟨value, rfl⟩
      exact ⟨value, mem⟩
    · rintro processed - ⟨dist, result⟩ mem
      have distMem := rests.known _ mem
      rw [files_agenda] at distMem
      obtain ⟨value, valueMem⟩ := processed dist (plans.mem_flatten_iff.1 distMem)
      exact ⟨value, rests.eq_of_mem_log valueMem mem⟩

/-- A file of the project with three targets fails: a run that goes on reports this failure, and
no way for a run that stops is a success. -/
theorem policies_agree_mixed :
    ∃ report after,
      (smallEngine.withStopOnError false).run mixedDisk mixedTargets = (.ok report, after) ∧
      report.errors.map (·.path) = [(flatFile "dist-npm" "b.js").path] ∧
      ((smallEngine.withStopOnError true).run mixedDisk mixedTargets).1.isOk = false ∧
      ∀ stopped : Except Failure Report × Disk,
        MayEnd (smallEngine.withStopOnError true) mixedDisk mixedTargets stopped.1 stopped.2 →
          Coincide stopped (.ok report, after) ∧ ¬ ∃ success, stopped.1 = .ok success := by
  have plans : Plans smallEngine mixedDisk mixedTargets mixedGroups :=
    plans_mixed (by decide +kernel) (by decide +kernel)
  have clear : ∀ dist ∈ mixedGroups.flatten, ∀ other ∈ mixedGroups.flatten, other ≠ dist →
      other.path.segments ≠ temporaryPlace smallEngine.writer dist.path.segments := by
        decide +kernel
  have stops : ((smallEngine.withStopOnError true).run mixedDisk mixedTargets).1.isOk = false := by
    decide +kernel
  obtain ⟨report, after, ran⟩ := @exists_of_isOk _ _ _
    ((smallEngine.withStopOnError false).run mixedDisk mixedTargets) (by decide +kernel)
  have failed :
      (((smallEngine.withStopOnError false).run mixedDisk mixedTargets).1.map fun report =>
      report.errors.map (·.path)) = .ok [(flatFile "dist-npm" "b.js").path] := by decide +kernel
  rw [ran] at failed
  have failures : report.errors.map (·.path) = [(flatFile "dist-npm" "b.js").path] :=
    Except.ok.inj failed
  have ended := @run_mayEnd _ (smallEngine.withStopOnError false) _ isPlainProject_mixed
    small_isSourceDirectory mixedTargets
  rw [ran] at ended
  obtain ⟨_, _, _, ends, _⟩ :=
    policies_agree isPlainProject_mixed small_isSourceDirectory mixedTargets
  refine ⟨report, after, ran, failures, stops, fun stopped stoppedEnded => ?_⟩
  have coincide := ends (fun dist other expands otherExpands => clear dist
    (plans.mem_flatten_iff.2 expands) other (plans.mem_flatten_iff.2 otherExpands)) stopped
      _ stoppedEnded ended
  refine ⟨coincide, fun success => ?_⟩
  obtain ⟨_, same, none_failed⟩ := coincide.succeeds_iff.1 success
  cases same
  rw [none_failed] at failures
  exact List.cons_ne_nil _ _ failures.symm

end Engine

end DistDirectives.Run
