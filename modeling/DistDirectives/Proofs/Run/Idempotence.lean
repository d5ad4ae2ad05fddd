import DistDirectives.Proofs.Run.Completion
import DistDirectives.Proofs.Run.Policy

/-!
# A second run changes nothing

The files that a first run leaves are in their final state, and what that state is depends
on the sources only, which the run left alone. So a second run discovers the same sources,
expands the same candidates as far as they still exist, and finds nothing to do, even when
the final content mentions directives itself. None of this depends on the ways that the
files of the two runs take.
-/

namespace DistDirectives.Run

open Disk (IsProject IsPlainProject HasPlainNames Spells Rewrites LeadsToPlainTree)
open DistDirectives.Path (IsPlainName)

variable {setting : Setting} {disk after : Disk} {root : Path} {base : Location} {sourceDir : Text}
  {sources : List SourceFile} {files : List DistFile}

/-! ## Expansion after files were rewritten -/

theorem requireDirectory_of_rewrites (project : IsProject disk root base)
    (rewrites : Rewrites disk after)
    {path : Path} {names : List Text} (spells : Spells root path names)
    (required : disk.requireDirectory path = .ok ()) : after.requireDirectory path = .ok () := by
  rcases (project.requireDirectory_eq_ok_iff spells).1 required with ⟨fits, mode, directory⟩
  exact ((rewrites.isProject project).requireDirectory_eq_ok_iff spells).2
    ⟨rewrites.sameDirectories.fits fits, mode, rewrites.directory_iff.2 directory⟩

theorem subdirectories_of_rewrites (project : IsProject disk root base)
    (rewrites : Rewrites disk after)
    {path : Path} {place names : List Text} (spells : Spells root path place)
    (listed : Cache.subdirectories disk path = .ok names) :
    Cache.subdirectories after path = .ok names := by
  obtain ⟨fits, ⟨mode, directory, permitted⟩, rfl⟩ :=
    (project.listDirectories_eq_ok_iff spells).1 (subdirectories_eq_ok_iff.1 listed)
  rw [subdirectories_eq_ok_iff, (rewrites.isProject project).listDirectories_eq_ok_iff spells]
  refine ⟨rewrites.sameDirectories.fits fits,
    ⟨mode, rewrites.directory_iff.2 directory, (rewrites.permits mode).trans permitted⟩, ?_⟩
  exact (Disk.directoryNames_congr fun name => by simp only [rewrites.directory_iff]).symm

namespace Expansion

theorem librariesFiles_of_rewrites (project : IsProject disk root base)
    (rewrites : Rewrites disk after) {label : Text} {libraries : List Text}
    (plain : ∀ library ∈ libraries, IsPlainName library)
    (found : librariesFiles disk root sourceDir label sources libraries = .ok files) :
    librariesFiles after root sourceDir label sources libraries = .ok files := by
  induction libraries generalizing files with
  | nil => exact found
  | cons library libraries ih =>
      rw [librariesFiles] at found ⊢
      cases listed : registriesIn disk root library with
      | error failure => simp [listed] at found
      | ok registries =>
          have listedAfter : registriesIn after root library = .ok registries :=
            subdirectories_of_rewrites project rewrites
              ((spells_librariesDirectory root).join (plain library (by simp))) listed
          cases others : librariesFiles disk root sourceDir label sources libraries with
          | error failure => simp [listed, others] at found
          | ok more =>
              rw [listedAfter, ih (fun other mem => plain other (by simp [mem])) others]
              simpa [listed, others] using found

theorem spells_flatRoot {target : Target} {flatRoot : Text}
    (flat : target.flatRoot? = some flatRoot) :
    Spells root (root.join flatRoot) (Path.ofText flatRoot).segments := by
  obtain ⟨top, known, -, -, -, segments⟩ := exists_top_of_flatRoot flat
  refine ⟨Path.segments_join _ _, Disk.descends_of_plain fun name mem => ?_⟩
  rw [segments, List.mem_cons, List.mem_singleton] at mem
  rcases mem with rfl | rfl
  · exact isPlainName_of_mem_distDirectories known
  · exact isPlainName_outputDirectory

theorem librariesOf_of_rewrites (project : IsPlainProject disk root base)
    (rewrites : Rewrites disk after) {target : Target} (proper : target.IsProper)
    (nested : target.flatRoot? = none) {libraries : List Text}
    (found : librariesOf disk root target = .ok libraries) :
    librariesOf after root target = .ok libraries ∧ ∀ library ∈ libraries, IsPlainName library := by
  cases target with
  | npm => contradiction
  | jsr => contradiction
  | library name =>
      cases found
      refine ⟨rfl, fun library mem => ?_⟩
      rw [List.mem_singleton.1 mem]
      exact proper.isPlainName
  | allLibraries =>
      exact ⟨subdirectories_of_rewrites project.toIsProject rewrites
        (spells_librariesDirectory root) found,
        fun library => isPlainName_of_mem_librariesIn project.toIsProject project.plain found⟩

/-- A target has the same candidates after files were rewritten or removed. -/
theorem candidatesOf_of_rewrites (project : IsPlainProject disk root base)
    (rewrites : Rewrites disk after) {target : Target} (proper : target.IsProper)
    (found : candidatesOf disk root sourceDir sources target = .ok files) :
    candidatesOf after root sourceDir sources target = .ok files := by
  rw [candidatesOf] at found ⊢
  cases flat : target.flatRoot? with
  | some flatRoot =>
      simp only [flat] at found ⊢
      cases required : disk.requireDirectory (root.join flatRoot) with
      | error error => simp [required] at found
      | ok =>
          rw [requireDirectory_of_rewrites project.toIsProject rewrites
            (spells_flatRoot flat) required]
          rwa [required] at found
  | none =>
      simp only [flat] at found ⊢
      cases listed : librariesOf disk root target with
      | error failure => simp [listed] at found
      | ok libraries =>
          obtain ⟨listedAfter, plain⟩ := librariesOf_of_rewrites project rewrites proper flat listed
          rw [listed] at found
          rw [listedAfter]
          exact librariesFiles_of_rewrites project.toIsProject rewrites plain found

/-- A target is expanded into those of its files that still exist. -/
theorem filesOf_of_rewrites (project : IsPlainProject disk root base)
    (rewrites : Rewrites disk after)
    (stand : ∀ source ∈ sources, ∃ place, place ≠ [] ∧
      Mapping.StandsIn source.path (Path.ofText sourceDir) place)
    {target : Target} (proper : target.IsProper)
    (found : filesOf disk root sourceDir sources target = .ok files) :
    filesOf after root sourceDir sources target =
      .ok (files.filter fun file => after.isFile (root.join file.path.text)) := by
  rcases filesOf_eq_ok_iff.1 found with ⟨candidates, all, rfl⟩
  refine filesOf_eq_ok_iff.2 ⟨candidates, candidatesOf_of_rewrites project rewrites proper all, ?_⟩
  rw [existing, existing, List.filter_filter]
  apply List.filter_congr
  intro file mem
  obtain ⟨_, source, sourceMem, candidate⟩ :=
    exists_of_mem_candidatesOf all (mem_of_mem_distinct mem).1
  obtain ⟨place, nonempty, stands⟩ := stand source sourceMem
  have isDist := (isOutput_of_isCandidate project.toIsProject project.plain proper stands nonempty
    candidate).isDist
  -- no file was created
  rw [Bool.eq_iff_iff, Bool.and_eq_true, and_iff_left_iff_imp]
  intro still
  have spells := isDist.spells root
  obtain ⟨fits, content, mode, held⟩ :=
    ((rewrites.isProject project.toIsProject).isFile_iff spells).1 still
  rw [project.isFile_iff spells]
  refine ⟨rewrites.sameDirectories.symm.fits fits, ?_⟩
  rcases rewrites.held held with same | ⟨file, _⟩
  · exact ⟨content, mode, same⟩
  · exact file

end Expansion

/-! ## Files in their final state -/

/-- A run leaves the sources as they were. -/
theorem sameSources_afterEach (project : IsProject disk setting.root base)
    (isSourceDirectory : IsSourceDirectory (Path.ofText setting.sourceDir)) (apart : AreApart files)
    (wet : setting.dryRun = false) :
    SameSources (Path.ofText setting.sourceDir) disk base (afterEach setting disk files) base := by
  obtain ⟨rewrites, elsewhere⟩ := afterEach_frame project apart.areDist wet
  refine fun place => rewrites.sameDirectories.sameAt (elsewhere _ fun dist mem same => ?_)
  rw [List.append_cancel_left_eq] at same
  exact isSourceDirectory.ne_segments (apart.areDist dist mem) place same

section

variable {agenda : Agenda} {pool : Pool} {clear : Prop} {dist : DistFile}

/-- An execution leaves the sources as they were. -/
theorem Rests.sameSources (rests : Rests agenda setting disk base clear pool)
    (ground : IsGround setting disk base agenda.files) :
    SameSources (Path.ofText setting.sourceDir) disk base pool.disk base :=
  fun place => (rests.rewrites ground).sameDirectories.sameAt (rests.elsewhere _ fun _ mem =>
    ground.isSourceDirectory.ne_placeOf (ground.isDist mem) place)

/-- A file that was processed, is computed from its source and is still there is to be kept. -/
theorem Rests.exists_decides_keep (rests : Rests agenda setting disk base clear pool)
    (ground : IsGround setting disk base agenda.files) (wet : setting.dryRun = false)
    (fresh : setting.fresh = true)
    (resolves : resolveSource disk setting.root setting.sourceDir dist.path ≠ none)
    {result : FileResult} (logMem : (dist, Except.ok result) ∈ pool.log)
    (still : pool.disk.isFile (setting.root.join dist.path.text) = true) :
    ∃ warnings, Decides setting pool.disk dist .keep warnings := by
  have isDist := ground.isDist (rests.known _ logMem)
  have rewrites := rests.rewrites ground
  have projectAfter := rewrites.isProject ground.project
  have spells := isDist.spells setting.root
  obtain ⟨_, bytes, basis, held⟩ := rests.holdsContent_of_mem ground wet logMem
  rw [← baseBytes_congr ground.project projectAfter rewrites.rights isDist
    ((rests.sameSources ground).sameCandidates ground.isSourceDirectory isDist)
    (.inl ⟨fresh, resolves⟩)] at basis
  obtain ⟨fits, content, mode, file⟩ := (projectAfter.isFile_iff spells).1 still
  cases final : finalContent dist.path bytes with
  | none =>
      rw [final, HoldsContent, placeOf, file] at held
      contradiction
  | some other =>
      rw [final] at held
      have read := (projectAfter.readBytes_eq_ok_iff spells).2 ⟨fits, held⟩
      have decides := Decides.judged read basis
      rw [decisionOf, final, decisionFor, if_pos rfl] at decides
      exact ⟨_, decides⟩

/-- Files that are all to be kept are left alone, and nothing is reported of them. -/
theorem Rests.silent (rests : Rests agenda setting disk base clear pool)
    (keep : ∀ dist ∈ agenda.files, ∃ warnings, Decides setting disk dist .keep warnings) :
    pool.disk = disk ∧
      ∀ dist result, (dist, result) ∈ pool.log →
        ∃ warnings, result = .ok { warnings := warnings } := by
  constructor
  · refine Disk.eq_of_get? rests.top fun location => ?_
    by_cases own : ∃ dist ∈ agenda.files, location = placeOf base dist
    · rcases own with ⟨dist, mem, rfl⟩
      by_cases processed : ∃ result, (dist, Except.ok result) ∈ pool.log
      · obtain ⟨result, logMem⟩ := processed
        obtain ⟨warnings, decides⟩ := keep dist mem
        rw [rests.settled dist result logMem _ _ decides, leaves.eq_def]
        split <;> rfl
      · exact rests.kept dist mem fun result logMem => processed ⟨result, logMem⟩
    · exact rests.elsewhere location fun dist mem here => own ⟨dist, mem, here⟩
  · intro dist result logMem
    obtain ⟨decision, warnings, decides, ends⟩ := rests.ends dist result logMem
    obtain ⟨_, kept⟩ := keep dist (rests.known _ logMem)
    obtain ⟨rfl, -⟩ := kept.unique decides
    cases ends with
    | finished answered => exact ⟨warnings, answered⟩
    | refused _ acts => exact absurd rfl acts

end

/-! ## Runs again -/

namespace Engine

variable {engine : Engine} {targets : List Text} {report : Report} {groups : List (List DistFile)}

/-- The groups of files, as far as the files are still there. -/
def remaining (engine : Engine) (disk : Disk) (groups : List (List DistFile)) :
    List (List DistFile) :=
  groups.map fun files => files.filter fun file => disk.isFile (engine.root.join file.path.text)

theorem mem_flatten_remaining {dist : DistFile} :
    dist ∈ (engine.remaining after groups).flatten ↔
      dist ∈ groups.flatten ∧ after.isFile (engine.root.join dist.path.text) = true := by
  simp only [remaining, List.mem_flatten, List.mem_map]
  constructor
  · rintro ⟨_, ⟨files, filesMem, rfl⟩, mem⟩
    rcases List.mem_filter.1 mem with ⟨distMem, still⟩
    exact ⟨⟨files, filesMem, distMem⟩, still⟩
  · rintro ⟨⟨files, filesMem, distMem⟩, still⟩
    exact ⟨_, ⟨files, filesMem, rfl⟩, List.mem_filter.2 ⟨distMem, still⟩⟩

/-- A run on a disk with the same sources discovers the same sources. -/
theorem sourcesOf_of_rewrites (project : IsPlainProject disk engine.root base)
    (isSourceDirectory : IsSourceDirectory (Path.ofText engine.sourceDir))
    (rewrites : Rewrites disk after)
    (same : SameSources (Path.ofText engine.sourceDir) disk base after base)
    (found : engine.sourcesOf disk = .ok sources) : engine.sourcesOf after = .ok sources := by
  have spells := isSourceDirectory.spells engine.root
  have required := (exists_sourcesBelow_of_discover found).1
  have below := project.toIsProject.child spells required
  have belowAfter := (rewrites.isProject project.toIsProject).child spells
    (requireDirectory_of_rewrites project.toIsProject rewrites spells required)
  refine discover_congr below belowAfter (project.plain.child _) rewrites.rights
    (fun names => ?_) found
  rw [List.append_assoc]
  exact (same names).held

/-- A run is planned again with the files that are still there. -/
theorem Plans.again (plans : Plans engine disk targets groups)
    (project : IsPlainProject disk engine.root base)
    (isSourceDirectory : IsSourceDirectory (Path.ofText engine.sourceDir))
    (rewrites : Rewrites disk after)
    (same : SameSources (Path.ofText engine.sourceDir) disk base after base) :
    Plans engine after targets (engine.remaining after groups) := by
  have sourcesAgain (sources : List SourceFile) :=
    @sourcesOf_of_rewrites disk after base sources engine project isSourceDirectory rewrites same
  cases plans with
  | noTarget read => exact .noTarget read
  | noSource read asked found => exact .noSource read asked (sourcesAgain _ found)
  | files read asked found some expanded =>
      refine .files read asked (sourcesAgain _ found) some (List.forall₂_map_right_iff.2 ?_)
      have stand := stand_of_sourcesOf (leadsToPlainTree project isSourceDirectory) found
      have proper := (Target.accepted_of_readAll read).proper
      exact forall₂_imp_of_mem expanded fun target mem files expansion =>
        Expansion.filesOf_of_rewrites project rewrites stand (proper target mem) expansion

/-- What could be counted can still be counted when files are gone. -/
theorem Permits.again (permits : Permits engine groups) (after : Disk) :
    Permits engine (engine.remaining after groups) := by
  constructor
  · refine fun some => permits.targets fun none_left => some ?_
    rw [none_left]
    rfl
  · intro some
    obtain ⟨files, mem⟩ := List.exists_mem_of_ne_nil _ some
    rcases List.mem_filter.1 mem with ⟨filesMem, nonempty⟩
    rcases List.mem_map.1 filesMem with ⟨group, groupMem, rfl⟩
    refine permits.files (List.ne_nil_of_mem (List.mem_filter.2 ⟨groupMem, ?_⟩))
    cases group with
    | nil => simp at nonempty
    | cons dist more => rfl

/-- A run whose files are all to be kept succeeds, reports nothing and changes nothing, whatever
way it takes. -/
theorem MayEnd.silent {result : Except Failure Report}
    (project : IsPlainProject disk engine.root base)
    (isSourceDirectory : IsSourceDirectory (Path.ofText engine.sourceDir))
    (plans : Plans engine disk targets groups) (permits : Permits engine groups)
    (keep : ∀ dist ∈ groups.flatten, ∃ warnings, Decides engine.setting disk dist .keep warnings)
    (ended : MayEnd engine disk targets result after) :
    after = disk ∧ ∃ report, result = .ok report ∧ report.processed = [] ∧ report.errors = [] := by
  obtain ⟨pool, executes, rfl, ending⟩ := ended.exists_executes plans permits
  obtain ⟨ground, rests⟩ := rests_of_executes project isSourceDirectory plans executes
  obtain ⟨unchanged, silent⟩ := rests.silent (by rwa [files_agenda])
  refine ⟨unchanged, ?_⟩
  rcases ending with ⟨results, order, _, rfl⟩ | ⟨_, dist, error, failed, _⟩
  · refine ⟨_, rfl, ?_, ?_⟩
    · apply List.eq_nil_iff_forall_not_mem.2
      intro processed mem
      obtain ⟨dist, result, logMem, noted⟩ := (mem_processed_of_perm order).1 mem
      obtain ⟨warnings, same⟩ := silent dist _ logMem
      cases same
      contradiction
    · apply List.eq_nil_iff_forall_not_mem.2
      intro failure mem
      obtain ⟨dist, error, logMem, _⟩ := (mem_errors_of_perm order).1 mem
      obtain ⟨warnings, same⟩ := silent dist _ logMem
      contradiction
  · obtain ⟨warnings, same⟩ := silent dist _ failed
    contradiction

/-- After a run without failures in which every file had a source, the same run succeeds
again, with nothing to do. Neither the way that the first run took matters nor the way that
the second one takes. -/
theorem run_again (project : IsPlainProject disk engine.root base)
    (isSourceDirectory : IsSourceDirectory (Path.ofText engine.sourceDir))
    (fresh : engine.options.copyFreshFromSource = true) (wet : engine.options.dryRun = false)
    (resolves : ∀ dist, Expands engine disk targets dist →
      resolveSource disk engine.root engine.sourceDir dist.path ≠ none)
    (comes : ComesTo engine disk targets (.ok report) after) (clean : report.errors = []) :
    ∃ second, engine.run after targets = (.ok second, after) ∧
      second.processed = [] ∧ second.errors = [] ∧
      ∀ result last, MayEnd engine after targets result last →
        result = .ok second ∧ last = after := by
  have ended := comes.mayEnd project isSourceDirectory
  cases ended with
  | @reported groups pool results plans permits executes _ order =>
      obtain ⟨ground, rests⟩ := rests_of_executes project isSourceDirectory plans executes
      have passes : Passes true pool.log := fun _ outcome mem =>
        errors_sorted_eq_nil_iff.1 clean rfl outcome (order.mem_iff.2 mem)
      have rewrites := rests.rewrites ground
      have projectAfter := rewrites.isPlainProject project
      have plansAgain := plans.again project isSourceDirectory rewrites (rests.sameSources ground)
      have keep (dist : DistFile) (mem : dist ∈ (engine.remaining pool.disk groups).flatten) :
          ∃ warnings, Decides engine.setting pool.disk dist .keep warnings := by
        obtain ⟨distMem, still⟩ := mem_flatten_remaining.1 mem
        obtain ⟨result, logMem⟩ := Pool.mem_noted_iff.1
          ((rests.noted_perm_of_passes ground (passes.of_true _)).mem_iff.2 (by rwa [files_agenda]))
        obtain ⟨value, rfl⟩ := passes rfl _ logMem
        exact rests.exists_decides_keep ground wet fresh
          (resolves dist (plans.mem_flatten_iff.1 distMem))
          logMem still
      have silent {result : Except Failure Report} {last : Disk}
          (again : MayEnd engine pool.disk targets result last) :=
        again.silent projectAfter isSourceDirectory plansAgain (permits.again _) keep
      have ran := run_mayEnd projectAfter isSourceDirectory targets
      obtain ⟨unchanged, second, succeeds, none_processed, none_failed⟩ := silent ran
      rw [succeeds, unchanged] at ran
      refine ⟨second, Prod.ext succeeds unchanged, none_processed, none_failed,
        fun result last again => ?_⟩
      obtain ⟨rfl, other, rfl, _, none_failed_again⟩ := silent again
      obtain ⟨rfl, -⟩ := ran.eq_of_errors_eq_nil projectAfter isSourceDirectory none_failed again
        none_failed_again
      exact ⟨rfl, rfl⟩

/-- A second run of the small project has nothing to do. -/
theorem run_again_small :
    ∃ second, smallEngine.run (smallEngine.run (smallDisk "old\n".toList) ["dist-npm".toList]).2
        ["dist-npm".toList] =
        (.ok second, (smallEngine.run (smallDisk "old\n".toList) ["dist-npm".toList]).2) ∧
      second.processed = [] ∧ second.errors = [] := by
  have small : IsSmall (smallDisk "old\n".toList) := by decide +kernel
  obtain ⟨second, ran, none_processed, none_failed, _⟩ := run_again small.isPlainProject
    small_isSourceDirectory rfl rfl (fun dist expands => by
      rw [small.eq_of_expands expands]
      decide +kernel) (.inr small.run_eq) rfl
  exact ⟨second, ran, none_processed, none_failed⟩

end Engine

end DistDirectives.Run
