import DistDirectives.Proofs.Run.Halting

/-!
# Runs that are refused

A run knows everything before it writes anything. It is refused because of its list of targets,
which is read before the disk is, or because the sources or some distribution root cannot be
listed. In all these cases the disk is as it was, however many of the targets that come first have
files to change (`run_refuses`). The failures of the files that are processed later are of other
kinds, so a failure tells how far a run got.
-/

namespace DistDirectives

namespace Run

variable {disk after : Disk} {root : Path} {failure : Failure} {sourceDir : Text}
  {sources : List SourceFile} {setting : Setting}

/-! ## Targets that cannot be expanded -/

namespace Expansion

theorem librariesFiles_eq_error_iff {label : Text} {libraries : List Text} :
    librariesFiles disk root sourceDir label sources libraries = .error failure ↔
      FirstFails (registriesIn disk root) libraries failure := by
  induction libraries with
  | nil => simp [librariesFiles, FirstFails]
  | cons library libraries ih =>
      rw [librariesFiles, firstFails_cons_iff, ← ih]
      cases registriesIn disk root library with
      | error other => simp
      | ok registries =>
          cases librariesFiles disk root sourceDir label sources libraries <;> simp

/-- What a target cannot be expanded without: the root of a flat target, the directory of all
libraries, or the directory of a library that is asked for. -/
inductive Blocks (disk : Disk) (root : Path) (target : Target) : Failure → Prop
  | flat {flatRoot : Text} {error : DiskError} (flat : target.flatRoot? = some flatRoot)
      (refused : disk.requireDirectory (root.join flatRoot) = .error error) :
      Blocks disk root target (.discovery (root.join flatRoot) error)
  | libraries {failure : Failure} (nested : target.flatRoot? = none)
      (refused : librariesOf disk root target = .error failure) : Blocks disk root target failure
  | library {failure : Failure} {libraries : List Text} (nested : target.flatRoot? = none)
      (found : librariesOf disk root target = .ok libraries)
      (refused : FirstFails (registriesIn disk root) libraries failure) :
      Blocks disk root target failure

theorem filesOf_eq_error_iff {target : Target} :
    filesOf disk root sourceDir sources target = .error failure ↔
      Blocks disk root target failure := by
  have candidates : filesOf disk root sourceDir sources target = .error failure ↔
      candidatesOf disk root sourceDir sources target = .error failure := by
    rw [filesOf]
    cases candidatesOf disk root sourceDir sources target <;> simp [Except.map]
  rw [candidates, candidatesOf]
  constructor
  · intro failed
    split at failed
    · rename_i flatRoot flat
      split at failed
      · rename_i error refused
        cases failed
        exact .flat flat refused
      · contradiction
    · rename_i nested
      split at failed
      · rename_i refusal refused
        cases failed
        exact .libraries nested refused
      · rename_i libraries found
        exact .library nested found (librariesFiles_eq_error_iff.1 failed)
  · intro blocked
    cases blocked with
    | flat flat refused => simp only [flat, refused]
    | libraries nested refused => simp only [nested, refused]
    | library nested found refused =>
        simp only [nested, found]
        exact librariesFiles_eq_error_iff.2 refused

end Expansion

/-! ## Plans that fail -/

namespace Engine

open Expansion (filesOf Blocks)

/-- Why there is no plan for accepted targets: the walk of the sources fails, or some target is the
first that cannot be expanded. Without sources nothing is expanded. -/
inductive IsUnplanned (engine : Engine) (disk : Disk) (accepted : List Target) : Failure → Prop
  | walk {failure : Failure} (failed : engine.sourcesOf disk = .error failure) :
      IsUnplanned engine disk accepted failure
  | target {failure : Failure} {sources : List SourceFile} {front back : List Target}
      {target : Target}
      (found : engine.sourcesOf disk = .ok sources) (some : sources ≠ [])
      (split : accepted = front ++ target :: back)
      (earlier : ∀ other ∈ front, ∃ files,
        filesOf disk engine.root engine.sourceDir sources other = .ok files)
      (blocked : Blocks disk engine.root target failure) : IsUnplanned engine disk accepted failure

variable {engine : Engine} {accepted : List Target} {targets : List Text}
  {result : Except Failure Report}

theorem plan_eq_error_iff :
    engine.plan disk accepted = .error failure ↔ IsUnplanned engine disk accepted failure := by
  have discovered : discover disk engine.root engine.sourceDir
      (Cache.fresh engine.root engine.options.exclude).exclusions = engine.sourcesOf disk := rfl
  rw [plan]
  simp only [discovered,
    Expansion.expandAll_eq (Cache.sound_fresh disk engine.root engine.options.exclude)]
  constructor
  · intro failed
    cases found : engine.sourcesOf disk with
    | error refusal =>
        simp only [found, bind, Except.bind] at failed
        cases failed
        exact .walk found
    | ok sources =>
        simp only [found, bind, Except.bind] at failed
        split at failed
        · contradiction
        · rename_i some
          obtain ⟨front, target, back, split, earlier, fails⟩ := mapM_eq_error_iff.1 failed
          exact .target found (by simpa using some) split earlier
            (Expansion.filesOf_eq_error_iff.1 fails)
  · intro unplanned
    cases unplanned with
    | walk failed =>
        rw [failed]
        rfl
    | target found some split earlier blocked =>
        simp only [found, bind, Except.bind]
        rw [if_neg (by simpa using some), mapM_eq_error_iff]
        exact ⟨_, _, _, split, earlier, Expansion.filesOf_eq_error_iff.2 blocked⟩

end Engine

/-! ## Failures of processing -/

/-- The list of targets is refused. -/
def Failure.IsTarget (failure : Failure) : Prop := ∃ error, failure = .target error

/-- A distribution file cannot be processed. -/
def Failure.IsFile (failure : Failure) : Prop := ∃ path error, failure = .file path error

namespace Schedule

variable {state : State} {stopOnError : Bool}

/-- A file that is processed adds no failure but its own. -/
theorem isFile_step (before : ∀ failure ∈ state.failure, failure.IsFile) (dist : DistFile) :
    ∀ failure ∈ (step setting stopOnError state dist).failure, failure.IsFile := by
  rw [step]
  split
  · exact before
  · split
    · exact before
    · split
      · rintro failure ⟨⟩
        exact ⟨_, _, rfl⟩
      · exact before

theorem isFile_runBatch (before : ∀ failure ∈ state.failure, failure.IsFile)
    (batch : List DistFile) :
    ∀ failure ∈ (runBatch setting stopOnError state batch).failure, failure.IsFile := by
  induction batch generalizing state with
  | nil => exact before
  | cons dist batch ih => exact ih (isFile_step before dist)

theorem isFile_batches (before : ∀ failure ∈ state.failure, failure.IsFile)
    (batches : List (List DistFile)) :
    ∀ failure ∈ (batches.foldl (runBatch setting stopOnError) state).failure, failure.IsFile := by
  induction batches generalizing state with
  | nil => exact before
  | cons batch batches ih => exact ih (isFile_runBatch before batch)

/-- With files that can be counted, a target fails with one of them only. Its schedule goes on with
the same numbers. -/
theorem run_of_permitted {schedule next : Schedule} {files : List DistFile}
    {result : Except Failure Report}
    (permitted : schedule.concurrency ≤ Options.mostPermits)
    (ran : schedule.run setting disk files = (result, next, after)) :
    next.concurrency = schedule.concurrency ∧ ∀ failure, result = .error failure →
      failure.IsFile := by
  rw [run, if_neg (Nat.not_lt.2 permitted)] at ran
  simp only [Prod.mk.injEq] at ran
  obtain ⟨rfl, rfl, -⟩ := ran
  refine ⟨rfl, fun failure failed => ?_⟩
  have noted := @isFile_batches setting { disk := disk, halted := schedule.halted }
    schedule.stopOnError (by simp) (schedule.batches files)
  split at failed
  · rename_i cause found
    cases failed
    exact noted _ found
  · contradiction

end Schedule

namespace Engine

variable {engine : Engine} {accepted : List Target} {targets : List Text}
  {result : Except Failure Report}

theorem isFile_processAll {schedule : Schedule} {start : Report} {groups : List (List DistFile)}
    (permitted : schedule.concurrency ≤ Options.mostPermits)
    (processed : processAll setting schedule start disk groups = (.error failure, after)) :
    failure.IsFile := by
  induction groups generalizing schedule start disk with
  | nil => cases processed
  | cons files groups ih =>
      rw [processAll] at processed
      split at processed
      · rename_i ran
        exact ih ((Schedule.run_of_permitted permitted ran).1 ▸ permitted) processed
      · rename_i refusal _ last ran
        cases processed
        exact (Schedule.run_of_permitted permitted ran).2 _ rfl

/-! ## How far a run gets -/

/-- How a run with a plan can end. When more targets or files are to be in flight than can be
counted, it fails before a file is started. Otherwise it fails with one of the files only. -/
inductive EndsWithPlan (engine : Engine) (disk : Disk) (groups : List (List DistFile)) :
    Except Failure Report → Disk → Prop
  | crowded (some : groups ≠ [])
      (many : Options.mostPermits < max engine.options.targetsConcurrency 1) :
      EndsWithPlan engine disk groups (.error .crash) disk
  | choked (few : max engine.options.targetsConcurrency 1 ≤ Options.mostPermits)
      (some : groups.filter (!·.isEmpty) ≠ [])
      (many : Options.mostPermits < max engine.options.concurrency 1) :
      EndsWithPlan engine disk groups (.error .task) disk
  | processed {result : Except Failure Report} {after : Disk} (permits : Permits engine groups)
      (late : ∀ failure, result = .error failure → failure.IsFile) :
      EndsWithPlan engine disk groups result after

/-- The phases in which a run can end. Before a run has a plan it leaves the disk alone. -/
inductive EndsInPhase (engine : Engine) (disk : Disk) (targets : List Text) :
    Except Failure Report → Disk → Prop
  | refused {error : TargetError} (read : Target.readAll targets = .error error) :
      EndsInPhase engine disk targets (.error (.target error)) disk
  | unplanned {accepted : List Target} {failure : Failure}
      (read : Target.readAll targets = .ok accepted)
      (asked : accepted ≠ []) (planned : engine.plan disk accepted = .error failure) :
      EndsInPhase engine disk targets (.error failure) disk
  | planned {groups : List (List DistFile)} {result : Except Failure Report} {after : Disk}
      (plans : Plans engine disk targets groups)
        (ends : EndsWithPlan engine disk groups result after) :
      EndsInPhase engine disk targets result after

/-- The files of a plan that are processed one after the other lead to one of its ends. -/
theorem endsWithPlan_processAll {groups : List (List DistFile)} {start : Report}
    (few : max engine.options.targetsConcurrency 1 ≤ Options.mostPermits)
    (processed : processAll engine.setting engine.schedule start disk (groups.filter (!·.isEmpty)) =
      (.error failure, after)) : EndsWithPlan engine disk groups (.error failure) after := by
  by_cases empty : groups.filter (!·.isEmpty) = []
  · rw [empty] at processed
    cases processed
  by_cases many : Options.mostPermits < max engine.options.concurrency 1
  · have refused : Options.mostPermits < engine.schedule.concurrency := many
    rw [processAll_of_choked refused empty] at processed
    cases processed
    exact .choked few empty many
  · refine .processed ⟨fun _ => few, fun _ => Nat.not_lt.1 many⟩ fun other same => ?_
    cases same
    exact isFile_processAll (Nat.not_lt.1 many : engine.schedule.concurrency ≤ _) processed

/-- The run of files one after the other ends in a phase, whatever is on the disk. -/
theorem endsInPhase_run (engine : Engine) (disk : Disk) (targets : List Text) :
    EndsInPhase engine disk targets (engine.run disk targets).1 (engine.run disk targets).2 := by
  rcases ran : engine.run disk targets with ⟨result, after⟩
  cases result with
  | ok report =>
      obtain ⟨groups, plans, carries⟩ := run_eq_ok_iff.1 ran
      exact .planned plans (.processed ⟨carries.targetsPermitted, carries.filesPermitted⟩ (by simp))
  | error failure =>
      cases goes_of_run ran with
      | refused read => exact .refused read
      | unplanned read asked planned => exact .unplanned read asked planned
      | crowded plans some many => exact .planned plans (.crowded some many)
      | failed plans few processed => exact .planned plans (endsWithPlan_processAll few processed)

/-- So does every other way in which a run can end. -/
theorem MayEnd.endsInPhase (ended : MayEnd engine disk targets result after) :
    EndsInPhase engine disk targets result after := by
  cases ended with
  | refused read => exact .refused read
  | unplanned read asked planned => exact .unplanned read asked planned
  | crowded plans some many => exact .planned plans (.crowded some many)
  | choked plans few some many => exact .planned plans (.choked few some many)
  | reported plans permits => exact .planned plans (.processed permits (by simp))
  | failed plans permits =>
      refine .planned plans (.processed permits fun failure same => ?_)
      cases same
      exact ⟨_, _, rfl⟩

theorem endsInPhase_of_ended
    (ended : (result, after) = engine.run disk targets ∨ MayEnd engine disk targets result after) :
    EndsInPhase engine disk targets result after := by
  rcases ended with ran | ended
  · have phase := endsInPhase_run engine disk targets
    rwa [← ran] at phase
  · exact ended.endsInPhase

theorem EndsWithPlan.not_early {groups : List (List DistFile)}
    (ends : EndsWithPlan engine disk groups (.error failure) after) :
    ¬ failure.IsTarget ∧ ¬ failure.IsDiscovery := by
  cases ends with
  | crowded => exact ⟨by simp [Failure.IsTarget], by simp [Failure.IsDiscovery]⟩
  | choked => exact ⟨by simp [Failure.IsTarget], by simp [Failure.IsDiscovery]⟩
  | processed _ late =>
      obtain ⟨path, error, rfl⟩ := late _ rfl
      exact ⟨by simp [Failure.IsTarget], by simp [Failure.IsDiscovery]⟩

namespace EndsInPhase

/-- A target error says that the list of targets is refused, and how. -/
theorem target_iff (ended : EndsInPhase engine disk targets result after) (error : TargetError) :
    result = .error (.target error) ↔ Target.readAll targets = .error error := by
  constructor
  · rintro rfl
    cases ended with
    | refused read => exact read
    | unplanned _ _ planned =>
        obtain ⟨_, _, same⟩ := isDiscovery_of_plan planned
        cases same
    | planned _ ends => exact absurd ⟨error, rfl⟩ ends.not_early.1
  · intro read
    cases ended with
    | refused again =>
        rw [read] at again
        cases again
        rfl
    | unplanned again =>
        rw [read] at again
        contradiction
    | planned plans =>
        obtain ⟨_, again, _⟩ := plans.exists_read
        rw [read] at again
        contradiction

/-- A discovery error says that there is no plan, and why. -/
theorem discovery_iff (ended : EndsInPhase engine disk targets result after) (path : Path)
    (error : DiskError) :
    result = .error (.discovery path error) ↔
      ∃ accepted, Target.readAll targets = .ok accepted ∧ accepted ≠ [] ∧
        IsUnplanned engine disk accepted (.discovery path error) := by
  constructor
  · rintro rfl
    cases ended with
    | unplanned read asked planned => exact ⟨_, read, asked, plan_eq_error_iff.1 planned⟩
    | planned _ ends => exact absurd ⟨path, error, rfl⟩ ends.not_early.2
  · rintro ⟨accepted, read, asked, unplanned⟩
    have failed := plan_eq_error_iff.2 unplanned
    cases ended with
    | refused again =>
        rw [read] at again
        contradiction
    | unplanned again _ planned =>
        rw [read] at again
        cases again
        rw [failed] at planned
        cases planned
        rfl
    | planned plans =>
        obtain ⟨_, again, _⟩ := plans.exists_read
        rw [read] at again
        cases again
        rw [(plan_eq_ok_iff read asked).2 plans] at failed
        contradiction

/-- Neither error leaves a trace on the disk. -/
theorem disk_eq (ended : EndsInPhase engine disk targets (.error failure) after)
    (early : failure.IsTarget ∨ failure.IsDiscovery) : after = disk := by
  cases ended with
  | refused => rfl
  | unplanned => rfl
  | planned _ ends => exact (early.elim ends.not_early.1 ends.not_early.2).elim

end EndsInPhase

/-- A run fails with a target error exactly when its list of targets is refused, which has nothing
to do with the disk, the project or the options. It fails with a discovery error exactly when the
sources cannot be walked, or when some target is the first that cannot be expanded. In both cases
the disk is as it was. -/
theorem run_refuses
    (ended : (result, after) = engine.run disk targets ∨ MayEnd engine disk targets result after) :
    (∀ error, result = .error (.target error) ↔ Target.readAll targets = .error error) ∧
    (∀ path error, result = .error (.discovery path error) ↔
      ∃ accepted, Target.readAll targets = .ok accepted ∧ accepted ≠ [] ∧
        IsUnplanned engine disk accepted (.discovery path error)) ∧
    ∀ failure, result = .error failure → failure.IsTarget ∨ failure.IsDiscovery → after = disk := by
  have phase := endsInPhase_of_ended ended
  refine ⟨phase.target_iff, phase.discovery_iff, ?_⟩
  rintro failure rfl early
  exact phase.disk_eq early

/-- The second of two targets has no distribution root, so nothing is written although the file of
the first one is to be changed. -/
theorem run_refuses_pending :
    (smallEngine.run (smallDisk "old\n".toList) ["dist-npm".toList, "dist-jsr".toList]).1 =
        .error (.discovery (Path.ofText "/w/dist-jsr/bin".toList)
          (.at "/w/dist-jsr/bin".toList .notFound)) ∧
      (smallEngine.run (smallDisk "old\n".toList) ["dist-npm".toList, "dist-jsr".toList]).2 =
        smallDisk "old\n".toList ∧
      (smallEngine.run (smallDisk "old\n".toList) ["dist-npm".toList]).2 ≠
        smallDisk "old\n".toList := by
  have unplanned : IsUnplanned smallEngine (smallDisk "old\n".toList) [.npm, .jsr]
      (.discovery (smallEngine.root.join "dist-jsr/bin".toList)
        (.at "/w/dist-jsr/bin".toList .notFound)) := by
    have found : smallEngine.sourcesOf (smallDisk "old\n".toList) = .ok [smallSource] := by
      decide +kernel
    have expanded :
        Expansion.filesOf (smallDisk "old\n".toList) smallEngine.root smallEngine.sourceDir
        [smallSource] .npm = .ok [smallFile] := by decide +kernel
    have blocked : Expansion.Blocks (smallDisk "old\n".toList) smallEngine.root .jsr
        (.discovery (smallEngine.root.join "dist-jsr/bin".toList)
          (.at "/w/dist-jsr/bin".toList .notFound)) := .flat (by decide) (by decide +kernel)
    refine @IsUnplanned.target _ _ _ _ _ [.npm] [] .jsr found (by simp) rfl
      (fun other mem => ?_) blocked
    rw [List.mem_singleton.1 mem]
    exact ⟨_, expanded⟩
  have root_eq :
      smallEngine.root.join "dist-jsr/bin".toList = Path.ofText "/w/dist-jsr/bin".toList := by
    decide
  rw [root_eq] at unplanned
  obtain ⟨_, discovery_iff, untouched⟩ := @run_refuses (smallDisk "old\n".toList) _ smallEngine
    ["dist-npm".toList, "dist-jsr".toList] _ (.inl Prod.mk.eta)
  have read : Target.readAll ["dist-npm".toList, "dist-jsr".toList] = .ok [.npm, .jsr] := by decide
  have failed := (discovery_iff _ _).2 ⟨_, read, by simp, unplanned⟩
  exact ⟨failed, untouched _ failed (.inr ⟨_, _, rfl⟩), by decide +kernel⟩

end Engine

end Run

end DistDirectives
