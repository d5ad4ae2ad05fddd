import DistDirectives.Proofs.Run.Endings

/-!
# Order does not matter

The files of a run can be put in any order, cut into batches of any size, and be in flight
beside each other in any number: each of them is processed once, the disk ends the same, and
so does the report, whose lists are sorted by paths that are all different. What makes the
difference are names alone: a file must not bear the name of another one's temporary file.
-/

namespace DistDirectives.Run

open Disk (temporaryPlace IsPlainProject)
open Relation (ReflTransGen)

/-! ## Sorted reports -/

theorem processed_reportOf (results : List Outcome) :
    (reportOf results).processed = results.flatMap fun outcome => (noted outcome).processed := by
  induction results with
  | nil => rfl
  | cons outcome others ih => rw [reportOf, Report.merge, ih, List.flatMap_cons]

theorem errors_reportOf (results : List Outcome) :
    (reportOf results).errors = results.flatMap fun outcome => (noted outcome).errors := by
  induction results with
  | nil => rfl
  | cons outcome others ih => rw [reportOf, Report.merge, ih, List.flatMap_cons]

theorem warnings_reportOf (results : List Outcome) :
    (reportOf results).warnings = (results.map fun outcome => (noted outcome).warnings).sum := by
  induction results with
  | nil => rfl
  | cons outcome others ih => rw [reportOf, Report.merge, ih, List.map_cons, List.sum_cons]

/-- Sorting by paths puts no path before a smaller one. -/
theorem pairwise_mergeSort {α : Type} {path : α → Path} (items : List α) :
    (items.mergeSort fun first second => !(path second).before (path first)).Pairwise
      fun first second => (!(path second).before (path first)) = true := by
  apply List.pairwise_mergeSort
  · intro first second third
    simp only [Path.before, Bool.not_eq_true', decide_eq_false_iff_not, List.not_lt]
    exact List.le_trans
  · intro first second
    simp only [Path.before, Bool.or_eq_true, Bool.not_eq_true',
      decide_eq_false_iff_not, List.not_lt]
    exact List.le_total _ _

/-- Lists with the same elements are sorted alike by paths that are all different. -/
theorem mergeSort_eq_of_perm {α : Type} {path : α → Path} {left right : List α}
    (perm : left.Perm right)
    (distinct : (left.map path).Nodup) :
    (left.mergeSort fun first second => !(path second).before (path first)) =
      right.mergeSort fun first second => !(path second).before (path first) := by
  refine List.Perm.eq_of_pairwise ?_ (pairwise_mergeSort left) (pairwise_mergeSort right)
    ((List.mergeSort_perm left _).trans (perm.trans (List.mergeSort_perm right _).symm))
  intro first second firstMem secondMem lower upper
  simp only [Path.before, Bool.not_eq_true', decide_eq_false_iff_not, List.not_lt] at lower upper
  rw [List.mem_mergeSort] at firstMem secondMem
  apply List.inj_on_of_nodup_map distinct firstMem (perm.mem_iff.2 secondMem)
  exact Path.ext_text (List.le_antisymm lower upper)

/-- Results of different files, each of which reports on its own path. -/
structure AreOwn (results : List Outcome) : Prop where
  distinct : (results.map fun outcome => outcome.1.path).Nodup
  own : ∀ dist result processed, (dist, Except.ok result) ∈ results →
    result.processed = some processed →
    processed.path = dist.path

theorem AreOwn.tail {outcome : Outcome} {others : List Outcome} (own : AreOwn (outcome :: others)) :
    AreOwn others :=
  ⟨(List.nodup_cons.1 own.distinct).2,
    fun dist result processed mem => own.own dist result processed (List.mem_cons_of_mem _ mem)⟩

theorem AreOwn.perm {results others : List Outcome} (own : AreOwn results)
    (perm : results.Perm others) :
    AreOwn others :=
  ⟨(perm.map _).nodup_iff.1 own.distinct,
    fun dist result processed mem => own.own dist result processed (perm.mem_iff.2 mem)⟩

/-- Every path of a report is that of a file. -/
theorem AreOwn.mem_paths {results : List Outcome} (own : AreOwn results) {path : Path}
    (mem : path ∈ (reportOf results).processed.map (·.path) ++
      (reportOf results).errors.map (·.path)) :
    path ∈ results.map fun outcome => outcome.1.path := by
  simp only [List.mem_append, List.mem_map] at mem ⊢
  rcases mem with ⟨processed, processedMem, rfl⟩ | ⟨failure, failureMem, rfl⟩
  · obtain ⟨dist, result, resultMem, reported⟩ := mem_processed_reportOf.1 processedMem
    exact ⟨_, resultMem, (own.own dist result processed resultMem reported).symm⟩
  · obtain ⟨dist, error, resultMem, rfl⟩ := mem_errors_reportOf.1 failureMem
    exact ⟨_, resultMem, rfl⟩

/-- No path is reported twice. -/
theorem AreOwn.nodup_paths {results : List Outcome} (own : AreOwn results) :
    ((reportOf results).processed.map (·.path) ++
      (reportOf results).errors.map (·.path)).Nodup := by
  induction results with
  | nil => exact List.nodup_nil
  | cons outcome others ih =>
      have later := ih own.tail
      have absent := fun mem => (List.nodup_cons.1 own.distinct).1 (own.tail.mem_paths mem)
      rcases outcome with ⟨dist, result⟩
      cases result with
      | error error =>
          simp only [reportOf, noted, Report.merge, List.nil_append, List.singleton_append,
            List.map_cons]
          exact List.nodup_middle.2 (List.nodup_cons.2 ⟨absent, later⟩)
      | ok result =>
          simp only [reportOf, noted, Report.merge, List.nil_append]
          cases reported : result.processed with
          | none => exact later
          | some processed =>
              have path_eq := own.own dist result processed (by simp) reported
              simp only [Option.toList_some, List.map_cons, List.cons_append, path_eq]
              exact List.nodup_cons.2 ⟨absent, later⟩

theorem sorted_reportOf_eq_of_perm {results others : List Outcome} (perm : results.Perm others)
    (own : AreOwn results) (start : Report) (fresh : start.processed = [] ∧ start.errors = []) :
    (start.merge (reportOf results)).sorted = (start.merge (reportOf others)).sorted := by
  have processed : (reportOf results).processed.Perm (reportOf others).processed := by
    rw [processed_reportOf, processed_reportOf]
    exact perm.flatMap_right _
  have errors : (reportOf results).errors.Perm (reportOf others).errors := by
    rw [errors_reportOf, errors_reportOf]
    exact perm.flatMap_right _
  have warnings : (reportOf results).warnings = (reportOf others).warnings := by
    rw [warnings_reportOf, warnings_reportOf]
    exact (perm.map _).sum_nat
  obtain ⟨distinctProcessed, distinctErrors, _⟩ := List.nodup_append.1 own.nodup_paths
  simp only [Report.merge, Report.sorted, fresh.1, fresh.2, List.nil_append, warnings,
    mergeSort_eq_of_perm processed distinctProcessed, mergeSort_eq_of_perm errors distinctErrors]

/-! ## Two executions -/

variable {setting : Setting} {disk : Disk} {base : Location} {agenda otherAgenda : Agenda}
  {pool otherPool : Pool} {dist : DistFile} {clear : Prop}

theorem IsGround.perm {files others : List DistFile} (ground : IsGround setting disk base files)
    (perm : files.Perm others) : IsGround setting disk base others := by
  refine ⟨⟨ground.project, ⟨?_, ?_⟩, ?_⟩, ground.isSourceDirectory⟩
  · exact fun dist mem => ground.apart.areDist dist (perm.mem_iff.2 mem)
  · exact ground.apart.distinct.perm perm Ne.symm
  · exact fun dist mem => ground.present dist (perm.mem_iff.2 mem)

theorem IsClear.perm {files others : List DistFile} (isClear : IsClear setting files)
    (perm : files.Perm others) : IsClear setting others :=
  fun dist mem other otherMem => isClear dist (perm.mem_iff.2 mem) other (perm.mem_iff.2 otherMem)

/-- No file bears the name of its own temporary file. -/
theorem IsGround.isClear {files : List DistFile} (ground : IsGround setting disk base files)
    (clear : ∀ dist ∈ files, ∀ other ∈ files, other ≠ dist →
      other.path.segments ≠ temporaryPlace setting.writer dist.path.segments) :
        IsClear setting files := by
  intro dist mem other otherMem
  by_cases same : other = dist
  · obtain ⟨front, last, _, segments⟩ := (ground.isDist mem).exists_front
    have plain := (ground.isDist mem).plain last (by simp [segments])
    rw [same, segments]
    exact (Disk.temporaryPlace_ne_self plain.ne_dots).symm
  · exact clear dist mem other otherMem same

theorem Ends.unique {decision : Decision} {warnings : Nat}
    {result again : Except DiskError FileResult}
    (first : Ends setting disk True dist warnings decision result)
    (second : Ends setting disk True dist warnings decision again) : again = result := by
  cases first with
  | finished answered done =>
      cases second with
      | finished again _ => rw [again, answered]
      | refused wet _ failed => cases (failed trivial).symm.trans (done trivial wet)
  | refused wet _ failed =>
      cases second with
      | finished _ done => cases (failed trivial).symm.trans (done trivial wet)
      | refused _ _ again => rw [Except.error.inj ((failed trivial).symm.trans (again trivial))]

/-- A file is as it was. -/
def IsUntouched (disk : Disk) (base : Location) (after : Disk) (dist : DistFile) : Prop :=
  after.get? (placeOf base dist) = disk.get? (placeOf base dist)

/-- A file that did not fail ends as its decision asks. -/
theorem Ends.result_eq {decision : Decision} {warnings : Nat} {result : FileResult}
    (ends : Ends setting disk clear dist warnings decision (.ok result)) :
    (∀ error, decision ≠ .refuse error) ∧ result = decision.result dist warnings := by
  cases ends with
  | finished answered staged => exact Decision.answer_eq_ok_iff.1 answered.symm

namespace Rests

variable (rests : Rests agenda setting disk base clear pool)

include rests

/-- A file has one result. -/
theorem eq_of_mem_log {result again : Except DiskError FileResult} (mem : (dist, result) ∈ pool.log)
    (againMem : (dist, again) ∈ pool.log) : again = result :=
  congrArg Prod.snd (List.inj_on_of_nodup_map rests.once againMem mem rfl)

/-- A file that failed is as it was. -/
theorem kept_of_error {error : DiskError} (mem : (dist, Except.error error) ∈ pool.log) :
    pool.disk.get? (placeOf base dist) = disk.get? (placeOf base dist) := by
  apply rests.kept dist (rests.known _ mem)
  intro result okMem
  have same := rests.eq_of_mem_log mem okMem
  contradiction

/-- Nothing is carried out in a dry run. -/
theorem isUntouched_of_dry (dry : setting.dryRun = true) (mem : dist ∈ agenda.files) :
    IsUntouched disk base pool.disk dist := by
  by_cases processed : ∃ result, (dist, Except.ok result) ∈ pool.log
  · rcases processed with ⟨result, logMem⟩
    obtain ⟨decision, warnings, decides⟩ := exists_decides setting disk dist
    rw [IsUntouched, rests.settled dist result logMem decision warnings decides,
      leaves.eq_def, if_pos dry]
  · exact rests.kept dist mem fun result logMem => processed ⟨result, logMem⟩

/-- Every file is processed once when nothing stopped the run. -/
theorem noted_perm_of_passes (ground : IsGround setting disk base agenda.files)
    (passes : Passes agenda.stopOnError pool.log) : pool.noted.Perm agenda.files := by
  rw [List.perm_ext_iff_of_nodup rests.once ground.nodup]
  intro dist
  constructor
  · intro mem
    obtain ⟨result, logMem⟩ := Pool.mem_noted_iff.1 mem
    exact rests.known _ logMem
  · exact rests.complete passes dist

/-- Every file is processed once when failures stop nothing. -/
theorem noted_perm (ground : IsGround setting disk base agenda.files)
    (goesOn : agenda.stopOnError = false) : pool.noted.Perm agenda.files :=
  rests.noted_perm_of_passes ground (by simp [Passes, goesOn])

theorem areOwn (ground : IsGround setting disk base agenda.files) : AreOwn pool.log := by
  constructor
  · have paths : (pool.log.map fun outcome => outcome.1.path) = pool.noted.map (·.path) := by
      rw [Pool.noted, List.map_map]
      rfl
    rw [paths]
    refine List.Nodup.map_on ?_ rests.once
    intro dist mem other otherMem same
    obtain ⟨_, logMem⟩ := Pool.mem_noted_iff.1 mem
    obtain ⟨_, otherLogMem⟩ := Pool.mem_noted_iff.1 otherMem
    exact ground.eq_of_path_eq (rests.known _ otherLogMem) (rests.known _ logMem) same
  · intro dist result processed mem reported
    obtain ⟨decision, warnings, _, ends⟩ := rests.ends dist _ mem
    rw [ends.result_eq.2, Decision.result, Option.map_eq_some_iff] at reported
    rcases reported with ⟨action, _, rfl⟩
    rfl

end Rests

section

variable (rests : Rests agenda setting disk base clear pool)
  (others : Rests otherAgenda setting disk base clear otherPool)
  (perm : otherAgenda.files.Perm agenda.files) (noted : pool.noted.Perm agenda.files)
  (otherNoted : otherPool.noted.Perm otherAgenda.files)
  (same : ∀ dist result again, (dist, result) ∈ pool.log → (dist, again) ∈ otherPool.log →
    again = result)

include rests others perm noted otherNoted same

/-- Two executions of all files that agree about each of them yield the same results, in some
order. -/
theorem Rests.log_perm_of_agree : otherPool.log.Perm pool.log := by
  rw [List.perm_ext_iff_of_nodup (List.Nodup.of_map _ others.once) (List.Nodup.of_map _ rests.once)]
  rintro ⟨dist, result⟩
  constructor
  · intro mem
    have isNoted : dist ∈ pool.noted :=
      noted.mem_iff.2 (perm.mem_iff.1 (otherNoted.mem_iff.1 (Pool.mem_noted_iff.2 ⟨result, mem⟩)))
    obtain ⟨again, againMem⟩ := Pool.mem_noted_iff.1 isNoted
    rwa [same dist again result againMem mem]
  · intro mem
    have isNoted : dist ∈ otherPool.noted :=
      otherNoted.mem_iff.2 (perm.mem_iff.2 (noted.mem_iff.1 (Pool.mem_noted_iff.2 ⟨result, mem⟩)))
    obtain ⟨again, againMem⟩ := Pool.mem_noted_iff.1 isNoted
    rwa [← same dist result again mem againMem]

/-- Two executions of all files that agree about each of them leave the same disk. -/
theorem Rests.disk_eq_of_agree : otherPool.disk = pool.disk := by
  have logs := rests.log_perm_of_agree others perm noted otherNoted same
  refine Disk.eq_of_get? (others.top.trans rests.top.symm) fun location => ?_
  by_cases own : ∃ dist ∈ agenda.files, location = placeOf base dist
  · rcases own with ⟨dist, mem, rfl⟩
    obtain ⟨result, logMem⟩ := Pool.mem_noted_iff.1 (noted.mem_iff.2 mem)
    cases result with
    | error error =>
        rw [rests.kept_of_error logMem, others.kept_of_error (logs.mem_iff.2 logMem)]
    | ok result =>
        obtain ⟨decision, warnings, decides⟩ := exists_decides setting disk dist
        rw [rests.settled dist result logMem decision warnings decides,
          others.settled dist result (logs.mem_iff.2 logMem) decision warnings decides]
  · rw [rests.elsewhere location fun dist mem here => own ⟨dist, mem, here⟩,
      others.elsewhere location fun dist mem here => own ⟨dist, perm.mem_iff.1 mem, here⟩]

end

section

variable (rests : Rests agenda setting disk base True pool)
  (others : Rests otherAgenda setting disk base True otherPool)

include rests others

theorem Rests.result_eq {result again : Except DiskError FileResult}
    (mem : (dist, result) ∈ pool.log)
    (otherMem : (dist, again) ∈ otherPool.log) : again = result := by
  obtain ⟨decision, warnings, decides, ends⟩ := rests.ends dist result mem
  obtain ⟨_, _, decidesAgain, endsAgain⟩ := others.ends dist again otherMem
  rcases decides.unique decidesAgain with ⟨rfl, rfl⟩
  exact ends.unique endsAgain

variable (ground : IsGround setting disk base agenda.files)
  (perm : otherAgenda.files.Perm agenda.files) (goesOn : agenda.stopOnError = false)
  (otherGoesOn : otherAgenda.stopOnError = false)

include ground perm goesOn otherGoesOn

/-- Two executions yield the same results, in some order. -/
theorem Rests.log_perm : otherPool.log.Perm pool.log :=
  rests.log_perm_of_agree others perm (rests.noted_perm ground goesOn)
    (others.noted_perm (ground.perm perm.symm) otherGoesOn)
    fun _ _ _ mem otherMem => rests.result_eq others mem otherMem

/-- Two executions leave the same disk. -/
theorem Rests.disk_eq : otherPool.disk = pool.disk :=
  rests.disk_eq_of_agree others perm (rests.noted_perm ground goesOn)
    (others.noted_perm (ground.perm perm.symm) otherGoesOn)
    fun _ _ _ mem otherMem => rests.result_eq others mem otherMem

end

/-! ## Runs -/

namespace Engine

variable {engine : Engine} {targets : List Text} {groups : List (List DistFile)} {report : Report}

/-- In a run that failures do not stop, the expanded files can be processed in any order, in
batches of any size and with any number of them in flight, and each is processed once. When
no expanded file bears the name of the temporary file of another one, the disk and the report
are the same for all of these ways, and are those of every run that succeeds. No way gets
stuck: from wherever files have come, they come to an end. -/
theorem executions_agree (project : IsPlainProject disk engine.root base)
    (isSourceDirectory : IsSourceDirectory (Path.ofText engine.sourceDir))
    (goesOn : engine.options.stopOnError = false) (plans : Plans engine disk targets groups)
    (clear : ∀ dist other, Expands engine disk targets dist → Expands engine disk targets other →
      other ≠ dist → other.path.segments ≠ temporaryPlace engine.writer dist.path.segments) :
    ∃ report after,
      (∀ agenda pool, agenda.files.Perm groups.flatten → agenda.stopOnError = false →
        Pool.Executes agenda engine.setting disk pool →
          pool.noted.Perm groups.flatten ∧ pool.disk = after ∧
            ∀ results, results.Perm pool.log →
              (({ dryRun := engine.options.dryRun } : Report).merge (reportOf results)).sorted =
                report) ∧
      (∀ agenda pool, agenda.files.Perm groups.flatten → 0 < agenda.concurrency →
        0 < agenda.targetsConcurrency →
          ReflTransGen (Pool.Step agenda engine.setting) { disk := disk } pool →
            ∃ last, ReflTransGen (Pool.Step agenda engine.setting) pool last ∧
              Pool.Finished agenda last) ∧
      (∀ result last, MayEnd engine disk targets (.ok result) last →
        result = report ∧ last = after) ∧
      ∀ result last, engine.run disk targets = (.ok result, last) →
        result = report ∧ last = after := by
  have ground := isGround_of_plans project isSourceDirectory plans
  have isClear : IsClear engine.setting groups.flatten :=
    ground.isClear fun dist mem other otherMem =>
    clear dist other (plans.mem_flatten_iff.1 mem) (plans.mem_flatten_iff.1 otherMem)
  have rests {agenda : Agenda} {pool : Pool} (perm : agenda.files.Perm groups.flatten)
      (executes : Pool.Executes agenda engine.setting disk pool) :
      Rests agenda engine.setting disk base True pool :=
    executes.rests (ground.perm perm.symm) fun _ => isClear.perm perm.symm
  have completes (agenda : Agenda) (pool : Pool) (perm : agenda.files.Perm groups.flatten)
      (filesPositive : 0 < agenda.concurrency) (targetsPositive : 0 < agenda.targetsConcurrency)
      (steps : ReflTransGen (Pool.Step agenda engine.setting) { disk := disk } pool) :
      ∃ last, ReflTransGen (Pool.Step agenda engine.setting) pool last ∧
        Pool.Finished agenda last :=
    Pool.exists_finished (perm.nodup_iff.2 ground.nodup) filesPositive targetsPositive
      (Pool.orderly_of_steps (Pool.orderly_start agenda disk) steps)
  -- the agenda of the run itself is as good as any other
  have engineFiles : (engine.agenda groups).files.Perm groups.flatten := by rw [files_agenda]
  obtain ⟨first, steps, finished⟩ := completes (engine.agenda groups) { disk := disk } engineFiles
    (engine.concurrency_agenda_pos groups) (engine.targetsConcurrency_agenda_pos groups) .refl
  have firstRests := rests engineFiles ⟨steps, finished⟩
  have engineGround := ground.perm engineFiles.symm
  have agree (agenda : Agenda) (pool : Pool) (perm : agenda.files.Perm groups.flatten)
      (agendaGoesOn : agenda.stopOnError = false)
      (executes : Pool.Executes agenda engine.setting disk pool) :
      pool.noted.Perm groups.flatten ∧ pool.disk = first.disk ∧
        ∀ results, results.Perm pool.log →
          (({ dryRun := engine.options.dryRun } : Report).merge (reportOf results)).sorted =
            (({ dryRun := engine.options.dryRun } : Report).merge (reportOf first.log)).sorted := by
    have poolRests := rests perm executes
    have perms := perm.trans engineFiles.symm
    refine ⟨(poolRests.noted_perm (ground.perm perm.symm) agendaGoesOn).trans perm, ?_, ?_⟩
    · exact firstRests.disk_eq poolRests engineGround perms goesOn agendaGoesOn
    · intro results order
      have logs := firstRests.log_perm poolRests engineGround perms goesOn agendaGoesOn
      exact (sorted_reportOf_eq_of_perm (order.trans logs).symm (firstRests.areOwn engineGround) _
        ⟨rfl, rfl⟩).symm
  have ends (result : Report) (last : Disk) (ended : MayEnd engine disk targets (.ok result) last) :
      result = (({ dryRun := engine.options.dryRun } : Report).merge (reportOf first.log)).sorted ∧
        last = first.disk := by
    cases ended with
    | @reported others pool results again _ executes _ order =>
        have perm : (engine.agenda others).files.Perm groups.flatten := by
          rw [files_agenda, plans.unique again]
        obtain ⟨_, disk_eq, reports⟩ := agree _ _ perm goesOn executes
        exact ⟨reports results order, disk_eq⟩
  refine ⟨_, first.disk, agree, completes, ends, fun result last ran => ?_⟩
  have ended := run_mayEnd project isSourceDirectory targets
  rw [ran] at ended
  exact ends result last ended

/-! ## A project with three targets -/

/-- A project with every way for a file to come: outputs to rewrite, one of them without the
permission to be read, an output that is blocked by a directory in the place of its temporary
file, and one to remove. -/
def mixedDisk : Disk :=
  let directory (names : List String) (disk : Disk) : Disk :=
    disk.store (smallLocation names) (.directory Node.directoryMode)
  let file (names : List String) (content : String) (disk : Disk) : Disk :=
    disk.store (smallLocation names) (.file (Utf8.encode content.toList) Node.fileMode)
  Disk.empty
    |> directory []
    |> directory ["src"]
    |> directory ["src", "libs"]
    |> directory ["src", "libs", "kit"]
    |> file ["src", "a.ts"] "x // <dler-remove-line>\ny\n"
    |> file ["src", "b.ts"] "x // <dler-remove-line>\ny\n"
    |> file ["src", "c.ts"] "// <dler-remove-file>\n"
    |> file ["src", "d.ts"] "x // <dler-remove-line>\ny\n"
    |> file ["src", "libs", "kit", "x.ts"] "x // <dler-remove-line>\ny\n"
    |> directory ["dist-jsr"]
    |> directory ["dist-jsr", "bin"]
    |> file ["dist-jsr", "bin", "a.js"] "old\n"
    |> directory ["dist-npm"]
    |> directory ["dist-npm", "bin"]
    |> file ["dist-npm", "bin", "a.js"] "old\n"
    |> file ["dist-npm", "bin", "b.js"] "old\n"
    |> directory ["dist-npm", "bin", ".b.js.1.tmp"]
    |> file ["dist-npm", "bin", "c.js"] "old\n"
    |>.store (smallLocation ["dist-npm", "bin", "d.js"]) (.file (Utf8.encode "old\n".toList) 0)
    |> directory ["dist-libs"]
    |> directory ["dist-libs", "kit"]
    |> directory ["dist-libs", "kit", "npm"]
    |> directory ["dist-libs", "kit", "npm", "bin"]
    |> file ["dist-libs", "kit", "npm", "bin", "x.js"] "old\n"

/-- Its sources. -/
def mixedSources : List SourceFile :=
  [("src/a.ts", "x // <dler-remove-line>\ny\n"), ("src/b.ts", "x // <dler-remove-line>\ny\n"),
    ("src/c.ts", "// <dler-remove-file>\n"), ("src/d.ts", "x // <dler-remove-line>\ny\n"),
    ("src/libs/kit/x.ts", "x // <dler-remove-line>\ny\n")].map fun source =>
      ⟨Path.ofText source.1.toList, source.2.toList⟩

/-- Its targets. -/
def mixedTargets : List Text := ["dist-jsr", "dist-npm", "dist-libs/kit"].map String.toList

/-- An output below a flat root. -/
def flatFile (target name : String) : DistFile :=
  { path := Path.ofText (target ++ "/bin/" ++ name).toList
    layout := .flat
    target := target.toList }

/-- The output of the library. -/
def kitFile : DistFile :=
  { path := Path.ofText "dist-libs/kit/npm/bin/x.js".toList
    layout := .library "kit".toList "npm".toList
    target := "dist-libs/kit".toList }

/-- What its targets are expanded into. -/
def mixedGroups : List (List DistFile) :=
  [[flatFile "dist-jsr" "a.js"],
    ["a.js", "b.js", "c.js", "d.js"].map (flatFile "dist-npm"), [kitFile]]

theorem plans_mixed {engine : Engine} {disk : Disk}
    (found : engine.sourcesOf disk = .ok mixedSources)
    (expanded : [Target.jsr, .npm, .library "kit".toList].mapM
      (Expansion.filesOf disk engine.root engine.sourceDir mixedSources) = .ok mixedGroups) :
    Plans engine disk mixedTargets mixedGroups := by
  have read : Target.readAll mixedTargets = .ok [.jsr, .npm, .library "kit".toList] := rfl
  exact .files read (by simp) found (by simp [mixedSources]) (mapM_eq_ok_iff.1 expanded)

theorem isPlainProject_mixed : IsPlainProject mixedDisk smallEngine.root (smallLocation []) :=
  @Disk.isPlainProject_of_holdsPlainTree _ _ _ Node.directoryMode (by decide +kernel)
    (by decide +kernel)

/-- All ways of processing the outputs of three targets agree, and one of them takes the outputs
from the last to the first, two at a time. -/
theorem executions_agree_mixed :
    ∃ report after, smallEngine.run mixedDisk mixedTargets = (.ok report, after) ∧
      report.errors.map (·.path) = [(flatFile "dist-npm" "b.js").path] ∧
      after.get? (smallLocation ["dist-npm", "bin", "a.js"]) =
        some (.file (Utf8.encode "y\n".toList) Node.fileMode) ∧
      after.get? (smallLocation ["dist-npm", "bin", "c.js"]) = none ∧
      (∀ agenda pool, agenda.files.Perm mixedGroups.flatten → agenda.stopOnError = false →
        Pool.Executes agenda smallEngine.setting mixedDisk pool →
          pool.noted.Perm mixedGroups.flatten ∧ pool.disk = after ∧
            ∀ results, results.Perm pool.log →
              (({ dryRun := false } : Report).merge (reportOf results)).sorted = report) ∧
      ∃ pool, Pool.Executes ⟨[[mixedGroups.flatten.reverse]], 2, 1, false⟩ smallEngine.setting
        mixedDisk pool := by
  have plans : Plans smallEngine mixedDisk mixedTargets mixedGroups :=
    plans_mixed (by decide +kernel) (by decide +kernel)
  have clear : ∀ dist ∈ mixedGroups.flatten, ∀ other ∈ mixedGroups.flatten, other ≠ dist →
      other.path.segments ≠ temporaryPlace smallEngine.writer dist.path.segments := by
        decide +kernel
  obtain ⟨report, after, ran⟩ :=
    @exists_of_isOk _ _ _ (smallEngine.run mixedDisk mixedTargets) (by decide +kernel)
  have failed : ((smallEngine.run mixedDisk mixedTargets).1.map fun report =>
      report.errors.map (·.path)) = .ok [(flatFile "dist-npm" "b.js").path] := by decide +kernel
  have rewritten : (smallEngine.run mixedDisk mixedTargets).2.get?
      (smallLocation ["dist-npm", "bin", "a.js"]) =
        some (.file (Utf8.encode "y\n".toList) Node.fileMode) := by decide +kernel
  have removed : (smallEngine.run mixedDisk mixedTargets).2.get?
      (smallLocation ["dist-npm", "bin", "c.js"]) = none := by decide +kernel
  rw [ran] at failed rewritten removed
  obtain ⟨_, _, agree, completes, -, sequential⟩ :=
    executions_agree isPlainProject_mixed small_isSourceDirectory rfl plans
      fun dist other expands otherExpands =>
        clear dist (plans.mem_flatten_iff.2 expands) other (plans.mem_flatten_iff.2 otherExpands)
  obtain ⟨rfl, rfl⟩ := sequential report after ran
  refine ⟨report, after, ran, Except.ok.inj failed, rewritten, removed, agree, ?_⟩
  have perm : (Agenda.files ⟨[[mixedGroups.flatten.reverse]], 2, 1, false⟩).Perm
      mixedGroups.flatten := by
    simp [Agenda.files]
  exact completes _ _ perm (Nat.zero_lt_succ 1) Nat.zero_lt_one .refl

end Engine

end DistDirectives.Run
