import DistDirectives.Proofs.Run.Order

/-!
# Files in their final state

After a successful run every expanded file that did not fail is in the state that its base
bytes call for. The other files of the run have no influence on it, in whatever order and
however many at a time they come: they never touch a source, nor another distribution file.
So what a run leaves of a file that is computed from its source is decided by the sources
alone.
-/

namespace DistDirectives

/-- A file with some content stands at a path, or nothing does. -/
def Disk.Holds (disk : Disk) (path : Path) : Option Bytes → Prop
  | some content => disk.readBytes path = .ok content
  | none => disk.lookup path = .error .notFound

namespace Run

open Disk (IsPlainProject IsProject Rewrites)

variable {disk after : Disk} {base : Location} {setting : Setting} {agenda : Agenda} {pool : Pool}
  {dist : DistFile} {clear : Prop}

/-! ## Whole files -/

/-- A distribution file that was there holds, at its path, what its location holds. -/
theorem holds_of_holdsContent {root path : Path} (project : IsProject disk root base)
    (rewrites : Rewrites disk after) (isDist : IsDistPath path)
    (isFile : disk.isFile (root.join path.text) = true) {content : Option Bytes}
    (held : HoldsContent after (base ++ path.segments) content) :
    after.Holds (root.join path.text) content := by
  have spells := isDist.spells root
  have projectAfter := rewrites.isProject project
  rcases (project.isFile_iff spells).1 isFile with ⟨fits, bytes, mode, before⟩
  have fitsAfter := rewrites.sameDirectories.fits fits
  cases content with
  | some content => exact (projectAfter.readBytes_eq_ok_iff spells).2 ⟨fitsAfter, held⟩
  | none =>
      rcases isDist.exists_front with ⟨front, last, _, segments⟩
      rw [segments] at spells fitsAfter before held
      obtain ⟨outerMode, outer⟩ := project.tree.outer front last _ (by rwa [List.append_assoc])
      exact projectAfter.lookup_eq_notFound spells fitsAfter
        ⟨outerMode, rewrites.directory_iff.2 outer⟩ held

/-- A file is in the state that its base bytes call for. -/
def IsComplete (setting : Setting) (disk after : Disk) (dist : DistFile) : Prop :=
  ∃ bytes, baseBytes setting disk dist.path = .ok bytes ∧
    after.Holds (setting.root.join dist.path.text) (finalContent dist.path bytes)

/-- What a decision leaves is what the base bytes call for. -/
theorem exists_holdsContent_of_leaves (project : IsProject disk setting.root base)
    (isDist : IsDistPath dist.path) (wet : setting.dryRun = false) {decision : Decision}
    {warnings : Nat}
    (decides : Decides setting disk dist decision warnings)
    (accepted : ∀ error, decision ≠ .refuse error)
    {after : Disk} (rights : after.privileged = disk.privileged)
    (left : after.get? (placeOf base dist) = leaves setting disk base dist decision) :
    ∃ bytes, baseBytes setting disk dist.path = .ok bytes ∧
      HoldsContent after (placeOf base dist) (finalContent dist.path bytes) := by
  obtain ⟨current, bytes, read, basis, rfl, -⟩ := decides.exists_read accepted
  obtain ⟨front, last, segments, file⟩ := isDist.holdsFile project read
  refine ⟨bytes, basis, ?_⟩
  rw [leaves.eq_def, if_neg (by simp [wet]), decisionOf] at left
  cases final : finalContent dist.path bytes with
  | none =>
      rw [final] at left
      exact left
  | some content =>
      rw [final, decisionFor] at left
      by_cases same : content = current
      · rw [if_pos same] at left
        exact same ▸ holdsContent_congr (held_of_readBytes project isDist read) rights left
      · rw [if_neg same] at left
        exact ⟨_, left, by rw [Disk.permits_congr rights, file.permits_replacementMode]⟩

namespace Rests

variable (rests : Rests agenda setting disk base clear pool)

include rests

variable (ground : IsGround setting disk base agenda.files)

include ground

/-- A file that did not fail is in its final state. -/
theorem holdsContent_of_mem (wet : setting.dryRun = false) {result : FileResult}
    (logMem : (dist, Except.ok result) ∈ pool.log) :
    disk.HoldsReadable (placeOf base dist) ∧ ∃ bytes, baseBytes setting disk dist.path = .ok bytes ∧
      HoldsContent pool.disk (placeOf base dist) (finalContent dist.path bytes) := by
  have isDist := ground.isDist (rests.known _ logMem)
  obtain ⟨decision, warnings, decides, ends⟩ := rests.ends dist _ logMem
  have accepted := ends.result_eq.1
  obtain ⟨current, bytes, read, -⟩ := decides.exists_read accepted
  refine ⟨⟨current, held_of_readBytes ground.project isDist read⟩, ?_⟩
  exact exists_holdsContent_of_leaves ground.project isDist wet decides accepted
    (Disk.privileged_of_background rests.top)
      (rests.settled dist result logMem decision warnings decides)

/-- Nothing but files was rewritten or removed. -/
theorem rewrites : Rewrites disk pool.disk := by
  refine ⟨Disk.privileged_of_background rests.top, fun location => ?_⟩
  by_cases own : ∃ dist ∈ agenda.files, location = placeOf base dist
  · rcases own with ⟨dist, mem, rfl⟩
    by_cases processed : ∃ result, (dist, Except.ok result) ∈ pool.log
    · rcases processed with ⟨result, logMem⟩
      cases dry : setting.dryRun with
      | true => exact .inl (rests.isUntouched_of_dry dry mem)
      | false =>
          obtain ⟨readable, bytes, _, held⟩ := rests.holdsContent_of_mem ground dry logMem
          refine .inr ⟨readable, ?_⟩
          cases final : finalContent dist.path bytes with
          | none => exact .inl (by rwa [final] at held)
          | some content => exact .inr ⟨content, by rwa [final] at held⟩
    · exact .inl (rests.kept dist mem fun result logMem => processed ⟨result, logMem⟩)
  · exact .inl (rests.elsewhere location fun dist mem here => own ⟨dist, mem, here⟩)

theorem isComplete_of_mem (wet : setting.dryRun = false) {result : FileResult}
    (logMem : (dist, Except.ok result) ∈ pool.log) : IsComplete setting disk pool.disk dist := by
  have mem := rests.known _ logMem
  obtain ⟨_, bytes, basis, held⟩ := rests.holdsContent_of_mem ground wet logMem
  exact ⟨bytes, basis,
    holds_of_holdsContent ground.project (rests.rewrites ground) (ground.isDist mem)
    (ground.present dist mem) held⟩

/-- A file was processed, or is as it was. -/
theorem isUntouched_or_isComplete (mem : dist ∈ agenda.files) :
    IsUntouched disk base pool.disk dist ∨ IsComplete setting disk pool.disk dist := by
  by_cases processed : ∃ result, (dist, Except.ok result) ∈ pool.log
  · rcases processed with ⟨result, logMem⟩
    cases dry : setting.dryRun with
    | true => exact .inl (rests.isUntouched_of_dry dry mem)
    | false => exact .inr (rests.isComplete_of_mem ground dry logMem)
  · exact .inl (rests.kept dist mem fun result logMem => processed ⟨result, logMem⟩)

end Rests

/-! ## Successful runs -/

/-- No failure of a report is about a path. -/
def Report.Spares (report : Report) (path : Path) : Prop :=
  ∀ failure ∈ report.errors, failure.path ≠ path

namespace Engine

variable {engine : Engine} {targets : List Text} {report : Report}

/-- A file that a successful run does not report as failed was processed. -/
theorem isComplete_of_spares (project : IsPlainProject disk engine.root base)
    (isSourceDirectory : IsSourceDirectory (Path.ofText engine.sourceDir))
    (wet : engine.options.dryRun = false) (ended : MayEnd engine disk targets (.ok report) after)
    (expands : Expands engine disk targets dist) (spared : report.Spares dist.path) :
    IsComplete engine.setting disk after dist := by
  cases ended with
  | @reported groups pool results plans permits executes passes order =>
      obtain ⟨ground, rests⟩ := rests_of_executes project isSourceDirectory plans executes
      have mem : dist ∈ (engine.agenda groups).files := by
        rw [files_agenda]
        exact plans.mem_flatten_iff.2 expands
      obtain ⟨result, logMem⟩ := Pool.mem_noted_iff.1 (rests.complete passes dist mem)
      cases result with
      | error error =>
          exact absurd rfl (spared _ ((mem_errors_of_perm order).2 ⟨dist, error, logMem, rfl⟩))
      | ok result => exact rests.isComplete_of_mem ground wet logMem

/-- Two runs that expand a file have the same candidates for its source, if their projects have the
same source tree. -/
theorem Expands.sameCandidates {other : Disk} {otherBase : Location}
    (expands : Expands engine disk targets dist)
    (otherExpands : Expands engine other targets dist)
    (project : IsPlainProject disk engine.root base)
    (otherProject : IsPlainProject other engine.root otherBase)
    (isSourceDirectory : IsSourceDirectory (Path.ofText engine.sourceDir))
    (tree : SameSourceTree (Path.ofText engine.sourceDir) disk base other otherBase) :
    SameCandidates engine.setting disk base other otherBase dist.path := by
  have isDist := expands.isDist project (leadsToPlainTree project isSourceDirectory)
  intro source mem
  obtain ⟨place, spells⟩ :=
    @spells_of_mem_reverse engine.setting dist.path isSourceDirectory isDist source mem
  have segments := spells.segments
  rw [Path.segments_join, Path.ofText_text, List.append_cancel_left_eq] at segments
  refine ⟨_, spells, ⟨?_, tree place⟩⟩
  have searches := expands.maySearch project isSourceDirectory mem
  have otherSearches := otherExpands.maySearch otherProject isSourceDirectory mem
  rw [segments] at searches otherSearches
  exact iff_of_true otherSearches searches

/-- After a successful run, whatever way its files took, every file that was expanded and did
not fail is in the state that its base bytes call for. So in two projects with the same source
tree, a file that both of them expand ends the same, whatever it held before, if its base bytes
come from a source. -/
theorem run_settles (project : IsPlainProject disk engine.root base)
    (isSourceDirectory : IsSourceDirectory (Path.ofText engine.sourceDir))
    (wet : engine.options.dryRun = false) (comes : ComesTo engine disk targets (.ok report) after)
    (expands : Expands engine disk targets dist) (spared : report.Spares dist.path) :
    (∃ bytes, baseBytes engine.setting disk dist.path = .ok bytes ∧
      after.Holds (engine.root.join dist.path.text) (finalContent dist.path bytes)) ∧
    ∀ other otherAfter otherBase otherReport,
      IsPlainProject other engine.root otherBase →
      SameSourceTree (Path.ofText engine.sourceDir) disk base other otherBase →
      ComesTo engine other targets (.ok otherReport) otherAfter →
      Expands engine other targets dist → otherReport.Spares dist.path →
      engine.options.copyFreshFromSource = true →
      resolveSource disk engine.root engine.sourceDir dist.path ≠ none →
      ∃ content, after.Holds (engine.root.join dist.path.text) content ∧
        otherAfter.Holds (engine.root.join dist.path.text) content := by
  obtain ⟨bytes, basis, held⟩ := isComplete_of_spares project isSourceDirectory wet
    (comes.mayEnd project isSourceDirectory) expands spared
  refine ⟨⟨bytes, basis, held⟩, ?_⟩
  intro other otherAfter otherBase otherReport otherProject tree otherComes otherExpands
    otherSpared fresh resolves
  obtain ⟨otherBytes, otherBasis, otherHeld⟩ :=
    isComplete_of_spares otherProject isSourceDirectory wet
    (otherComes.mayEnd otherProject isSourceDirectory) otherExpands otherSpared
  have isDist := expands.isDist project (leadsToPlainTree project isSourceDirectory)
  have candidates :=
    expands.sameCandidates otherExpands project otherProject isSourceDirectory tree
  have same :=
    @baseBytes_unique engine.setting _ _ _ _ _ project.toIsProject otherProject.toIsProject
    isDist candidates (.inl ⟨fresh, resolves⟩) _ _ basis otherBasis
  subst same
  exact ⟨_, held, otherHeld⟩

/-- In the small project the first output is in its final state after a run, and the content
that it had before does not matter. -/
theorem run_settles_small :
    (∃ bytes, baseBytes smallEngine.setting (smallDisk "old\n".toList) smallFile.path = .ok bytes ∧
      (smallEngine.run (smallDisk "old\n".toList) ["dist-npm".toList]).2.Holds
        (smallEngine.root.join smallFile.path.text) (finalContent smallFile.path bytes)) ∧
    ∃ content,
      (smallEngine.run (smallDisk "old\n".toList) ["dist-npm".toList]).2.Holds
        (smallEngine.root.join smallFile.path.text) content ∧
      (smallEngine.run (smallDisk "new\n".toList) ["dist-npm".toList]).2.Holds
        (smallEngine.root.join smallFile.path.text) content := by
  have small : IsSmall (smallDisk "old\n".toList) := by decide +kernel
  have other : IsSmall (smallDisk "new\n".toList) := by decide +kernel
  have spared : smallReport.Spares smallFile.path := by simp [Report.Spares, smallReport]
  have resolves : resolveSource (smallDisk "old\n".toList) smallEngine.root smallEngine.sourceDir
      smallFile.path ≠ none := by decide +kernel
  have tree : SameSourceTree (Path.ofText smallEngine.sourceDir) (smallDisk "old\n".toList)
      (smallLocation []) (smallDisk "new\n".toList) (smallLocation []) := by
    intro place
    have segments : (Path.ofText smallEngine.sourceDir).segments = ["src".toList] := by decide
    have apart : "src".toList ≠ "dist-npm".toList := by decide
    have outside : smallLocation [] ++ ("src".toList :: place) ≠
        smallLocation ["dist-npm", "bin", "a.js"] := by
      intro same
      simp only [smallLocation, List.map_cons, List.cons_append, List.nil_append, List.map_nil,
        List.cons.injEq] at same
      exact apart same.2.1
    have unchanged (output : Text) :
        (smallDisk output).get? (smallLocation [] ++ ("src".toList :: place)) =
          smallTree.get? (smallLocation [] ++ ("src".toList :: place)) := by
      rw [smallDisk, Disk.get?_store _ (by simp [smallLocation]), if_neg outside]
    rw [segments, List.singleton_append, unchanged, unchanged]
  have settles := run_settles small.isPlainProject small_isSourceDirectory rfl (.inr small.run_eq)
    small.expands spared
  exact ⟨settles.1,
    settles.2 _ _ _ _ other.isPlainProject tree (.inr other.run_eq) other.expands spared rfl
    resolves⟩

end Engine

end Run

end DistDirectives
