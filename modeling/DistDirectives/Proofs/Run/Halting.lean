import DistDirectives.Proofs.Run.Completion

/-!
# What a run that stops leaves behind

A run that stops at a file that fails leaves only whole steps behind: every file is as it was
or in its final state, and no temporary file remains, since whatever is in flight is brought
to its end. What had to wait for the failed file was never started, and what the failed file
had to wait for was processed.
-/

namespace DistDirectives

namespace Run

open Disk (IsPlainProject IsProject Rewrites)

/-! ## Plans that fail -/

/-- The sources or a distribution root cannot be listed or read. -/
def Failure.IsDiscovery (failure : Failure) : Prop := ∃ path error, failure = .discovery path error

variable {disk : Disk} {root : Path} {failure : Failure}

namespace Discovery

theorem isDiscovery_of_sourceAt {relative full : Path}
    (failed : sourceAt disk relative full = .error failure) : failure.IsDiscovery := by
  rw [sourceAt] at failed
  split at failed
  · contradiction
  · split at failed
    · cases failed
      exact ⟨_, _, rfl⟩
    · split at failed
      · contradiction
      · split at failed <;> contradiction

theorem isDiscovery_of_visit {exclusions : List Path}
    {descend : Path → Except Failure (List SourceFile)}
    (below : ∀ path, descend path = .error failure → failure.IsDiscovery) {entry : Disk.Entry}
    (failed : visit disk root exclusions descend entry = .error failure) : failure.IsDiscovery := by
  rw [visit] at failed
  split at failed
  · contradiction
  · split at failed
    · contradiction
    · split at failed
      · exact below _ failed
      · exact isDiscovery_of_sourceAt failed
      · contradiction

theorem isDiscovery_of_sweep {exclusions : List Path} {steps : Nat} {stack : List Disk.Entry}
    {found : List SourceFile}
    (failed : sweep disk root exclusions steps stack found = .error failure) :
    failure.IsDiscovery := by
  induction steps generalizing stack found with
  | zero =>
      cases stack with
      | nil => contradiction
      | cons entry stack =>
          cases failed
          exact ⟨_, _, rfl⟩
  | succ steps ih =>
      cases stack with
      | nil => contradiction
      | cons entry stack =>
          by_cases entered : IsEntered root exclusions entry
          · rw [sweep_of_isEntered entered] at failed
            split at failed
            · cases failed
              exact ⟨_, _, rfl⟩
            · exact ih failed
          · rw [sweep_of_not_isEntered entered fun _ => .ok []] at failed
            cases brought : visit disk root exclusions (fun _ => .ok []) entry with
            | error other =>
                rw [brought] at failed
                cases failed
                exact isDiscovery_of_visit (fun _ descended => by contradiction) brought
            | ok sources =>
                rw [brought] at failed
                exact ih failed

end Discovery

theorem isDiscovery_of_discover {sourceDir : Text} {exclusions : List Path}
    (failed : discover disk root sourceDir exclusions = .error failure) : failure.IsDiscovery := by
  rw [discover] at failed
  split at failed
  · cases failed
    exact ⟨_, _, rfl⟩
  · split at failed
    · rename_i refused
      cases failed
      rw [Discovery.listReversed] at refused
      split at refused
      · cases refused
        exact ⟨_, _, rfl⟩
      · contradiction
    · exact Discovery.isDiscovery_of_sweep failed

theorem isDiscovery_of_subdirectories {path : Path}
    (failed : Cache.subdirectories disk path = .error failure) : failure.IsDiscovery := by
  rw [Cache.subdirectories] at failed
  split at failed
  · contradiction
  · cases failed
    exact ⟨_, _, rfl⟩

namespace Expansion

theorem isDiscovery_of_librariesFiles {sourceDir label : Text} {sources : List SourceFile}
    {libraries : List Text}
    (failed : librariesFiles disk root sourceDir label sources libraries = .error failure) :
    failure.IsDiscovery := by
  induction libraries with
  | nil => contradiction
  | cons library libraries ih =>
      rw [librariesFiles] at failed
      split at failed
      · rename_i refusal listed
        cases failed
        exact isDiscovery_of_subdirectories listed
      · split at failed
        · rename_i refusal others
          cases failed
          exact ih others
        · contradiction

theorem isDiscovery_of_filesOf {sourceDir : Text} {sources : List SourceFile} {target : Target}
    (failed : filesOf disk root sourceDir sources target = .error failure) :
    failure.IsDiscovery := by
  have candidates : candidatesOf disk root sourceDir sources target = .error failure := by
    rw [filesOf] at failed
    cases found : candidatesOf disk root sourceDir sources target with
    | ok files => simp [found, Except.map] at failed
    | error other =>
        rw [found] at failed
        cases failed
        rfl
  rw [candidatesOf] at candidates
  split at candidates
  · split at candidates
    · cases candidates
      exact ⟨_, _, rfl⟩
    · contradiction
  · split at candidates
    · rename_i refusal listed
      cases candidates
      cases target with
      | library name => contradiction
      | npm => exact isDiscovery_of_subdirectories listed
      | jsr => exact isDiscovery_of_subdirectories listed
      | allLibraries => exact isDiscovery_of_subdirectories listed
    · exact isDiscovery_of_librariesFiles candidates

end Expansion

/-- No file is processed by a run whose plan fails, so that no file fails. -/
theorem Engine.isDiscovery_of_plan {engine : Engine} {accepted : List Target}
    (failed : engine.plan disk accepted = .error failure) : failure.IsDiscovery := by
  rw [plan] at failed
  simp only [Expansion.expandAll_eq
    (Cache.sound_fresh disk engine.root engine.options.exclude)] at failed
  cases found : discover disk engine.root engine.sourceDir
      (Cache.fresh engine.root engine.options.exclude).exclusions with
  | error refusal =>
      simp only [found, bind, Except.bind] at failed
      cases failed
      exact isDiscovery_of_discover found
  | ok sources =>
      simp only [found, bind, Except.bind] at failed
      split at failed
      · contradiction
      · obtain ⟨target, _, failedThere⟩ := exists_of_mapM_eq_error failed
        exact Expansion.isDiscovery_of_filesOf failedThere

/-! ## Whole steps -/

theorem Agenda.Precedes.mem_files {agenda : Agenda} {first later : DistFile}
    (precedes : agenda.Precedes first later) : later ∈ agenda.files := by
  rw [Agenda.files, List.mem_flatten]
  cases precedes with
  | batch targetMem split firstMem laterMem =>
      exact ⟨_, List.mem_flatten.2 ⟨_, targetMem, by simp [split]⟩, laterMem⟩
  | target single split firstMem laterMem =>
      obtain ⟨batch, batchMem, laterMem⟩ := List.mem_flatten.1 laterMem
      exact ⟨batch, List.mem_flatten.2 ⟨_, by simp [split], batchMem⟩, laterMem⟩

variable {setting : Setting} {base : Location} {agenda : Agenda} {pool : Pool} {dist : DistFile}
  {clear : Prop}

namespace Rests

variable (rests : Rests agenda setting disk base clear pool)

include rests

/-- What a failed file had to wait for was processed. -/
theorem isComplete_of_precedes (ground : IsGround setting disk base agenda.files)
    (wet : setting.dryRun = false) (stops : agenda.stopOnError = true) {error : DiskError}
    (failed : (dist, Except.error error) ∈ pool.log) {first : DistFile}
    (before : agenda.Precedes first dist) : IsComplete setting disk pool.disk first := by
  obtain ⟨result, logMem⟩ :=
    rests.ordered stops dist (Pool.mem_noted_iff.2 ⟨_, failed⟩) first before
  exact rests.isComplete_of_mem ground wet logMem

/-- What had to wait for a failed file was not started. -/
theorem isUntouched_of_precedes (stops : agenda.stopOnError = true) {error : DiskError}
    (failed : (dist, Except.error error) ∈ pool.log) {later : DistFile}
    (after : agenda.Precedes dist later) : IsUntouched disk base pool.disk later := by
  apply rests.kept later after.mem_files
  intro result logMem
  obtain ⟨_, processed⟩ :=
    rests.ordered stops later (Pool.mem_noted_iff.2 ⟨_, logMem⟩) dist after
  have same := rests.eq_of_mem_log failed processed
  contradiction

end Rests

/-! ## Runs -/

namespace Engine

variable {engine : Engine} {targets : List Text} {groups front behind : List (List DistFile)}
  {files : List DistFile} {first later : DistFile}

/-- A batch of a target waits for the batches before. -/
theorem precedes_of_batches (filesMem : files ∈ groups)
    (split : engine.schedule.batches files = front ++ behind) (firstMem : first ∈ front.flatten)
    (laterMem : later ∈ behind.flatten) : (engine.agenda groups).Precedes first later := by
  obtain ⟨batch, batchMem, inBatch⟩ := List.mem_flatten.1 laterMem
  obtain ⟨between, more, rfl⟩ := List.append_of_mem batchMem
  have nonempty : files.isEmpty = false := by
    rw [List.isEmpty_eq_false_iff, ← flatten_batches engine files, split]
    exact List.ne_nil_of_mem (List.mem_flatten.2 ⟨batch, by simp, inBatch⟩)
  rw [← List.append_assoc] at split
  refine .batch ?_ split (List.mem_flatten.2 ?_) inBatch
  · exact List.mem_map.2 ⟨files, List.mem_filter.2 ⟨filesMem, by simp [nonempty]⟩, rfl⟩
  · obtain ⟨earlier, earlierMem, firstMem⟩ := List.mem_flatten.1 firstMem
    exact ⟨earlier, by simp [earlierMem], firstMem⟩

/-- A target waits for the targets before when one target at a time is in flight. -/
theorem precedes_of_targets (single : engine.options.targetsConcurrency ≤ 1)
    (split : groups = front ++ behind) (firstMem : first ∈ front.flatten)
    (laterMem : later ∈ behind.flatten) : (engine.agenda groups).Precedes first later := by
  obtain ⟨files, filesMem, inFiles⟩ := List.mem_flatten.1 laterMem
  obtain ⟨between, more, rfl⟩ := List.append_of_mem filesMem
  have nonempty : files.isEmpty = false := by
    rw [List.isEmpty_eq_false_iff]
    exact List.ne_nil_of_mem inFiles
  have targets_eq : (engine.agenda groups).targets = (engine.agenda (front ++ between)).targets ++
      engine.schedule.batches files :: (engine.agenda more).targets := by
    simp [agenda, split, nonempty]
  have earlier : first ∈ (engine.agenda (front ++ between)).files := by
    rw [files_agenda, List.flatten_append]
    exact List.mem_append_left _ firstMem
  exact .target (Nat.max_le.2 ⟨single, Nat.le_refl 1⟩) targets_eq earlier (by rwa [flatten_batches])

/-- What a run leaves behind that stops at the file at a path: what was processed before was
carried out, unless the run was a dry one, and what had to wait was not started. -/
structure Halts (engine : Engine) (disk : Disk) (base : Location)
    (targets : List Text) (path : Path)
    (after : Disk) : Prop where
  /-- The file that failed is one of those that targets are expanded into, and is as it was. -/
  failed : ∃ dist, Expands engine disk targets dist ∧ dist.path = path ∧
    IsUntouched disk base after dist
  /-- No file is left between two states. -/
  whole : ∀ dist, Expands engine disk targets dist →
    IsUntouched disk base after dist ∨ IsComplete engine.setting disk after dist
  /-- Nothing else is touched, and no temporary file remains. -/
  elsewhere : ∀ location,
    (∀ dist, Expands engine disk targets dist → location ≠ placeOf base dist) →
    after.get? location = disk.get? location
  /-- In the target of the file that failed, the batches before were processed, and those behind
  were not started. -/
  batches : ∀ groups, Plans engine disk targets groups → ∀ files ∈ groups, ∀ earlier batch more,
    engine.schedule.batches files = earlier ++ batch :: more → path ∈ batch.map (·.path) →
      (engine.options.dryRun = false →
        ∀ dist ∈ earlier.flatten, IsComplete engine.setting disk after dist) ∧
      ∀ dist ∈ more.flatten, IsUntouched disk base after dist
  /-- So it is with targets, if one at a time is in flight. -/
  targets : engine.options.targetsConcurrency ≤ 1 → ∀ groups, Plans engine disk targets groups →
    ∀ front files behind, groups = front ++ files :: behind → path ∈ files.map (·.path) →
      (engine.options.dryRun = false →
        ∀ dist ∈ front.flatten, IsComplete engine.setting disk after dist) ∧
      ∀ dist ∈ behind.flatten, IsUntouched disk base after dist

theorem halts_of_failed (project : IsPlainProject disk engine.root base)
    (isSourceDirectory : IsSourceDirectory (Path.ofText engine.sourceDir))
    (plans : Plans engine disk targets groups)
    (executes : Pool.Executes (engine.agenda groups) engine.setting disk pool)
    (stops : engine.options.stopOnError = true) {error : DiskError}
    (logged : (dist, Except.error error) ∈ pool.log) :
    Halts engine disk base targets dist.path pool.disk := by
  obtain ⟨ground, rests⟩ := rests_of_executes project isSourceDirectory plans executes
  have known {other : DistFile} :
      other ∈ (engine.agenda groups).files ↔ other ∈ groups.flatten := by
    rw [files_agenda]
  have mem : dist ∈ (engine.agenda groups).files := rests.known _ logged
  constructor
  case failed =>
    exact ⟨dist, plans.mem_flatten_iff.1 (known.1 mem), rfl, rests.kept_of_error logged⟩
  case whole =>
    intro other expands
    exact rests.isUntouched_or_isComplete ground (known.2 (plans.mem_flatten_iff.2 expands))
  case elsewhere =>
    intro location away
    exact rests.elsewhere location fun other otherMem =>
      away other (plans.mem_flatten_iff.1 (known.1 otherMem))
  case batches =>
    intro others again files filesMem earlier batch more split pathMem
    rw [plans.unique again] at filesMem
    have distMem : dist ∈ batch := by
      refine ground.mem_of_path_mem mem (fun other otherMem => ?_) pathMem
      refine known.2 (List.mem_flatten.2 ⟨files, filesMem, ?_⟩)
      rw [← flatten_batches engine files, split]
      exact List.mem_flatten.2 ⟨batch, by simp, otherMem⟩
    refine ⟨fun wet first firstMem => ?_, fun later laterMem => ?_⟩
    · exact rests.isComplete_of_precedes ground wet stops logged
        (precedes_of_batches filesMem split firstMem (by simp [distMem]))
    · rw [← List.singleton_append, ← List.append_assoc] at split
      exact rests.isUntouched_of_precedes stops logged
        (precedes_of_batches filesMem split (by simp [distMem]) laterMem)
  case targets =>
    intro single others again front files behind split pathMem
    rw [plans.unique again] at split
    have distMem : dist ∈ files := by
      refine ground.mem_of_path_mem mem (fun other otherMem => ?_) pathMem
      exact known.2 (List.mem_flatten.2 ⟨files, by simp [split], otherMem⟩)
    refine ⟨fun wet first firstMem => ?_, fun later laterMem => ?_⟩
    · exact rests.isComplete_of_precedes ground wet stops logged
        (precedes_of_targets single split firstMem (by simp [distMem]))
    · rw [← List.singleton_append, ← List.append_assoc] at split
      exact rests.isUntouched_of_precedes stops logged
        (precedes_of_targets single split (by simp [distMem]) laterMem)

theorem halts_of_mayEnd (project : IsPlainProject disk engine.root base)
    (isSourceDirectory : IsSourceDirectory (Path.ofText engine.sourceDir)) {path : Path}
    {error : DiskError} {after : Disk}
    (ended : MayEnd engine disk targets (.error (.file path error)) after) :
    Halts engine disk base targets path after := by
  cases ended with
  | unplanned read asked planned =>
      obtain ⟨_, _, failed⟩ := isDiscovery_of_plan planned
      contradiction
  | failed plans permits executes stops targetMem first =>
      exact halts_of_failed project isSourceDirectory plans executes stops
        (mem_of_firstFailure?_eq_some first).1

/-- A run that stops at a file leaves only whole steps behind, however its files were in flight
beside each other, and so does the run of files one after the other. -/
theorem run_halts (project : IsPlainProject disk engine.root base)
    (isSourceDirectory : IsSourceDirectory (Path.ofText engine.sourceDir)) (path : Path)
    (error : DiskError) :
    (∀ after, MayEnd engine disk targets (.error (.file path error)) after →
        Halts engine disk base targets path after) ∧
      ((engine.run disk targets).1 = .error (.file path error) →
        Halts engine disk base targets path (engine.run disk targets).2) := by
  refine ⟨fun after => halts_of_mayEnd project isSourceDirectory, fun ran => ?_⟩
  have ended := run_mayEnd project isSourceDirectory targets
  rw [ran] at ended
  exact halts_of_mayEnd project isSourceDirectory ended

/-- The runs that stop at a failure, with one target and one file in a batch at a time. -/
def haltingEngine : Engine :=
  { smallEngine with options := { stopOnError := true, targetsConcurrency := 1, batchSize := 1 } }

/-- A run of three targets stops in the second one, at an output that cannot be replaced. What came
before it was processed, in its target and in the first one, and what comes behind it was not
started, in its target and in the third one. -/
theorem run_halts_mixed :
    ∃ error, (haltingEngine.run mixedDisk mixedTargets).1 =
        .error (.file (flatFile "dist-npm" "b.js").path error) ∧
      (∀ dist ∈ [flatFile "dist-jsr" "a.js", flatFile "dist-npm" "a.js"],
        IsComplete haltingEngine.setting
        mixedDisk (haltingEngine.run mixedDisk mixedTargets).2 dist) ∧
      ∀ dist ∈ [flatFile "dist-npm" "c.js", flatFile "dist-npm" "d.js", kitFile],
        IsUntouched mixedDisk (smallLocation [])
          (haltingEngine.run mixedDisk mixedTargets).2 dist := by
  have plans : Plans haltingEngine mixedDisk mixedTargets mixedGroups :=
    plans_mixed (by decide +kernel) (by decide +kernel)
  have failed : (haltingEngine.run mixedDisk mixedTargets).1 = .error (.file
      (flatFile "dist-npm" "b.js").path
      (.temporary "/w/dist-npm/bin/.b.js.1.tmp".toList .alreadyExists)) := by decide +kernel
  have project : IsPlainProject mixedDisk haltingEngine.root (smallLocation []) :=
    isPlainProject_mixed
  have isSourceDirectory : IsSourceDirectory (Path.ofText haltingEngine.sourceDir) :=
    small_isSourceDirectory
  have halts := (run_halts project isSourceDirectory _ _).2 failed
  have cut : haltingEngine.schedule.batches
      (["a.js", "b.js", "c.js", "d.js"].map (flatFile "dist-npm")) =
      [[flatFile "dist-npm" "a.js"]] ++ [flatFile "dist-npm" "b.js"] ::
        [[flatFile "dist-npm" "c.js"], [flatFile "dist-npm" "d.js"]] := by decide +kernel
  obtain ⟨before, behind⟩ := halts.batches _ plans _ (by simp [mixedGroups]) _ _ _ cut (by simp)
  obtain ⟨first, last⟩ := halts.targets (Nat.le_refl 1) _ plans [[flatFile "dist-jsr" "a.js"]]
    (["a.js", "b.js", "c.js", "d.js"].map (flatFile "dist-npm")) [[kitFile]] rfl (by simp)
  have firstMem : flatFile "dist-jsr" "a.js" ∈ [[flatFile "dist-jsr" "a.js"]].flatten := by simp
  have beforeMem : flatFile "dist-npm" "a.js" ∈ [[flatFile "dist-npm" "a.js"]].flatten := by simp
  refine ⟨_, failed, ?_, ?_⟩
  · rw [List.forall_mem_cons, List.forall_mem_singleton]
    exact ⟨first rfl _ firstMem, before rfl _ beforeMem⟩
  · rw [List.forall_mem_cons, List.forall_mem_cons, List.forall_mem_singleton]
    exact ⟨behind _ (by simp), behind _ (by simp), last _ (by simp)⟩

end Engine

end Run

end DistDirectives
