import DistDirectives.Proofs.Run.Order

/-!
# No file is scheduled twice

Whatever is on the disk, and whatever sources are given, a candidate of a target lies in the
area of the target: names of sources and of registries only ever extend a path. The areas
of the targets of an accepted list are apart, and for one target a path counts once. So
no two files in flight have the same path, and a report names every path once, in one of
its lists, which are put in the order of paths.
-/

namespace DistDirectives.Run

open Relation (ReflTransGen)

/-! ## Areas of targets -/

namespace Expansion

variable {disk : Disk} {cache : Cache} {sourceDir label : Text} {sources : List SourceFile}

theorem librariesDirectory_isPrefix (library registry file : Text) :
    [Target.librariesDirectory] <+:
      ((Mapping.libraryRoot library registry).join file).segments := by
  have top : (Path.ofText Target.librariesDirectory).segments = [Target.librariesDirectory] := by
    decide
  simp only [Mapping.libraryRoot, Path.segments_join, top, List.append_assoc]
  exact List.prefix_append _ _

theorem library_isPrefix {library : Text} (proper : Path.IsSegment library) (registry file : Text) :
    [Target.librariesDirectory, library] <+:
      ((Mapping.libraryRoot library registry).join file).segments := by
  have top : (Path.ofText Target.librariesDirectory).segments = [Target.librariesDirectory] := by
    decide
  simp only [Mapping.libraryRoot, Path.segments_join, Path.segments_ofText_segment proper, top,
    List.append_assoc]
  exact List.prefix_append [Target.librariesDirectory, library] _

theorem exists_of_mem_libraryCandidates {library : Text} {registries : List Text} {file : DistFile}
    (mem : file ∈ libraryCandidates sourceDir label library registries sources) :
    ∃ registry place, file.path = (Mapping.libraryRoot library registry).join place := by
  rw [libraryCandidates, List.mem_flatMap] at mem
  rcases mem with ⟨source, _, mem⟩
  rcases List.mem_map.1 mem with ⟨candidate, candidateMem, rfl⟩
  rw [Mapping.forwardLibrary] at candidateMem
  split at candidateMem
  · contradiction
  rcases List.mem_flatMap.1 candidateMem with ⟨registry, _, candidateMem⟩
  rcases List.mem_map.1 candidateMem with ⟨place, _, rfl⟩
  exact ⟨registry, place, rfl⟩

/-- Whatever a cache remembers, a candidate in several libraries lies in one of them. -/
theorem exists_of_mem_allCandidates {libraries : List Text} {files : List DistFile}
    (found : (allCandidates disk sourceDir label sources libraries cache).1 = .ok files)
    {file : DistFile} (mem : file ∈ files) :
    ∃ library ∈ libraries, ∃ registry place,
      file.path = (Mapping.libraryRoot library registry).join place := by
  induction libraries generalizing cache files with
  | nil =>
      cases found
      contradiction
  | cons library libraries ih =>
      rw [allCandidates] at found
      split at found
      · contradiction
      split at found
      · contradiction
      rename_i registries _ _ _ more _ others
      cases found
      rcases List.mem_append.1 mem with here | later
      · obtain ⟨registry, place, path_eq⟩ := exists_of_mem_libraryCandidates here
        exact ⟨library, by simp, registry, place, path_eq⟩
      · obtain ⟨other, otherMem, rest⟩ := ih (congrArg Prod.fst others) later
        exact ⟨other, by simp [otherMem], rest⟩

theorem isPrefix_of_mem_flatCandidates {flatRoot : Text} {file : DistFile}
    (mem : file ∈ flatCandidates sourceDir flatRoot label sources) :
    (Path.ofText flatRoot).segments <+: file.path.segments := by
  rw [flatCandidates, List.mem_flatMap] at mem
  rcases mem with ⟨source, _, mem⟩
  rcases List.mem_map.1 mem with ⟨path, pathMem, rfl⟩
  rw [Mapping.forwardFlat] at pathMem
  split at pathMem
  · contradiction
  rcases List.mem_map.1 pathMem with ⟨output, _, rfl⟩
  rw [Path.segments_join]
  exact List.prefix_append _ _

/-- Every candidate of a target lies in its area. -/
theorem area_isPrefix_of_mem_candidates {target : Target} (proper : target.IsProper)
    {files : List DistFile}
    (found : (candidates disk cache sourceDir target sources).1 = .ok files) {file : DistFile}
    (mem : file ∈ files) : target.area <+: file.path.segments := by
  unfold candidates at found
  cases target with
  | npm =>
      simp only [Target.flatRoot?] at found
      split at found
      · contradiction
      cases found
      have area : Target.npm.area <+:
          (Path.ofText (Target.npmDirectory ++ "/bin".toList)).segments := by decide
      exact area.trans (isPrefix_of_mem_flatCandidates mem)
  | jsr =>
      simp only [Target.flatRoot?] at found
      split at found
      · contradiction
      cases found
      have area : Target.jsr.area <+:
          (Path.ofText (Target.jsrDirectory ++ "/bin".toList)).segments := by decide
      exact area.trans (isPrefix_of_mem_flatCandidates mem)
  | library name =>
      obtain ⟨library, isName, registry, place, path_eq⟩ := exists_of_mem_allCandidates found mem
      rw [path_eq, List.mem_singleton.1 isName]
      exact library_isPrefix proper.isPlainName.toIsSegment registry place
  | allLibraries =>
      simp only [Target.flatRoot?] at found
      split at found
      · contradiction
      obtain ⟨library, _, registry, place, path_eq⟩ := exists_of_mem_allCandidates found mem
      rw [path_eq]
      exact librariesDirectory_isPrefix library registry place

theorem expand_eq_ok {target : Target} {files : List DistFile}
    (found : (expand disk cache sourceDir target sources).1 = .ok files) :
    ∃ found, (candidates disk cache sourceDir target sources).1 = .ok found ∧
      ∃ present, files = (distinct [] found).filter present := by
  rw [expand] at found
  split at found
  · contradiction
  rename_i all after candidates_eq
  cases found
  exact ⟨all, congrArg Prod.fst candidates_eq, _, rfl⟩

/-- The files of a target have different paths, in its area. -/
theorem pairwise_expand {target : Target} (proper : target.IsProper) {files : List DistFile}
    (found : (expand disk cache sourceDir target sources).1 = .ok files) :
    (files.Pairwise fun left right => left.path ≠ right.path) ∧
      ∀ file ∈ files, target.area <+: file.path.segments := by
  obtain ⟨all, candidates_eq, present, rfl⟩ := expand_eq_ok found
  refine ⟨(pairwise_distinct [] all).filter _, fun file mem => ?_⟩
  exact area_isPrefix_of_mem_candidates proper candidates_eq
    (mem_of_mem_distinct (List.mem_filter.1 mem).1).1

/-- No path is expanded twice for the targets of an accepted list, whatever is remembered when
each of them is expanded. -/
theorem nodup_of_accepted {targets : List Target} (accepted : Target.Accepted targets)
    {groups : List (List DistFile)}
    (found : List.Forall₂ (fun target files =>
      ∃ cache, (expand disk cache sourceDir target sources).1 = .ok files) targets groups) :
    (groups.flatten.map (·.path)).Nodup := by
  rw [List.Nodup, List.pairwise_map, List.pairwise_flatten]
  constructor
  · intro files mem
    obtain ⟨target, targetMem, cache, expanded⟩ := exists_of_mem_forall₂ found mem
    exact (pairwise_expand (accepted.proper target targetMem) expanded).1
  · have differ : targets.Pairwise fun target other =>
        target ∈ targets ∧ other ∈ targets ∧ target ≠ other :=
      accepted.nodup.imp_of_mem fun mem otherMem differ => ⟨mem, otherMem, differ⟩
    refine pairwise_of_forall₂ found differ ?_
    rintro target other files others ⟨mem, otherMem, differ⟩ ⟨cache, expanded⟩
      ⟨otherCache, otherExpanded⟩
      file fileMem otherFile otherFileMem same
    have inside := (pairwise_expand (accepted.proper target mem) expanded).2 file fileMem
    have otherInside := (pairwise_expand (accepted.proper other otherMem) otherExpanded).2 otherFile
      otherFileMem
    exact differ (accepted.eq_of_area_isPrefix mem otherMem inside (same ▸ otherInside))

end Expansion

/-! ## Reports -/

/-- A report whose lists are in the order of paths and that names no path twice, neither in
one list nor in both. -/
structure Report.IsStrict (report : Report) : Prop where
  processed : report.processed.Pairwise fun first second => first.path.before second.path = true
  errors : report.errors.Pairwise fun first second => first.path.before second.path = true
  apart : ∀ processed ∈ report.processed, ∀ failure ∈ report.errors, processed.path ≠ failure.path

/-- Sorting puts paths that are all different in a strict order. -/
theorem pairwise_before_mergeSort {α : Type} {path : α → Path} {items : List α}
    (distinct : (items.map path).Nodup) :
    (items.mergeSort fun first second => !(path second).before (path first)).Pairwise
      fun first second => (path first).before (path second) = true := by
  have differ : (items.mergeSort fun first second => !(path second).before (path first)).Pairwise
      fun first second => path first ≠ path second := by
    rw [← List.pairwise_map (f := path) (R := (· ≠ ·))]
    exact (((List.mergeSort_perm items _).map path).nodup_iff).2 distinct
  refine (pairwise_mergeSort items).imp₂ ?_ differ
  intro first second le ne
  simp only [Path.before, Bool.not_eq_true', decide_eq_false_iff_not, List.not_lt,
    decide_eq_true_eq] at le ⊢
  exact (List.le_iff_lt_or_eq.1 le).resolve_right fun same => ne (Path.ext_text same)

/-- The report of results of different files. -/
theorem AreOwn.isStrict {results : List Outcome} (own : AreOwn results) (dryRun : Bool) :
    (({ dryRun := dryRun } : Report).merge (reportOf results)).sorted.IsStrict := by
  obtain ⟨processed, errors, apart⟩ := List.nodup_append.1 own.nodup_paths
  refine ⟨pairwise_before_mergeSort processed, pairwise_before_mergeSort errors, ?_⟩
  intro changed changedMem failure failureMem
  simp only [Report.sorted, Report.merge, List.nil_append,
    List.mem_mergeSort] at changedMem failureMem
  exact apart _ (List.mem_map_of_mem changedMem) _ (List.mem_map_of_mem failureMem)

/-! ## Files report on themselves -/

/-- The result of a file that was carried out is that of some decision about it. -/
theorem exists_decision_of_advance {setting : Setting} {dist : DistFile} {disk : Disk}
    {phase : Phase}
    (busy : phase.isDone = false) {result : FileResult}
    (done : (advance setting dist disk phase).1 = .done (.ok result)) :
    ∃ decision warnings, result = Decision.result decision dist warnings := by
  cases phase with
  | done _ => contradiction
  | begun =>
      simp only [advance] at done
      split at done
      · cases done
      · split at done <;> cases done
  | searching current candidates =>
      cases candidates with
      | nil => contradiction
      | cons candidate others =>
          simp only [advance] at done
          split at done <;> cases done
  | fetching current source =>
      simp only [advance] at done
      split at done <;> cases done
  | decided decision warnings =>
      simp only [advance] at done
      split at done
      · rw [Phase.done.injEq, Decision.answer_eq_ok_iff] at done
        exact ⟨decision, warnings, done.2⟩
      cases decision with
      | refuse error => cases done
      | keep =>
          cases done
          exact ⟨.keep, warnings, rfl⟩
      | remove =>
          simp only at done
          split at done
          · cases done
          · cases done
            exact ⟨.remove, warnings, rfl⟩
      | write content =>
          simp only at done
          split at done <;> cases done
  | moving temporary file warnings =>
      simp only [advance] at done
      split at done
      · cases done
      · cases done
        exact ⟨.write [], warnings, rfl⟩

theorem path_eq_of_result {decision : Decision} {dist : DistFile} {warnings : Nat}
    {processed : ProcessedFile}
    (reported : (decision.result dist warnings).processed = some processed) :
    processed.path = dist.path := by
  rw [Decision.result, Option.map_eq_some_iff] at reported
  rcases reported with ⟨action, _, rfl⟩
  rfl

namespace Pool

variable {agenda : Agenda} {setting : Setting} {disk : Disk} {pool next : Pool}

/-- Files that are done report on themselves. -/
def IsCandid (pool : Pool) : Prop :=
  ∀ dist result, pool.phase dist = some (.done (.ok result)) →
    ∃ decision warnings, result = Decision.result decision dist warnings

theorem IsCandid.put {dist : DistFile} {there : Phase × Disk} (candid : pool.IsCandid)
    (own : ∀ result, there.1 = .done (.ok result) →
      ∃ decision warnings, result = Decision.result decision dist warnings) :
    (pool.put dist there).IsCandid := by
  intro other result done
  by_cases same : other = dist
  · subst same
    rw [put_phase_self] at done
    exact own result (Option.some.inj done)
  · rw [pool.put_phase_of_ne there same] at done
    exact candid other result done

theorem IsCandid.step (candid : pool.IsCandid) (step : Step agenda setting pool next) :
    next.IsCandid := by
  cases step with
  | start => exact candid.put fun _ done => nomatch done
  | work come busy => exact candid.put fun _ done => exists_decision_of_advance busy done
  | note => exact candid

theorem isCandid_of_steps (candid : pool.IsCandid)
    (steps : ReflTransGen (Step agenda setting) pool next) : next.IsCandid := by
  induction steps with
  | refl => exact candid
  | tail _ step ih => exact ih.step step

/-- Whatever is on the disk, files with different paths leave results of their own. -/
theorem areOwn_of_steps (steps : ReflTransGen (Step agenda setting) { disk := disk } pool)
    (distinct : (agenda.files.map (·.path)).Nodup) : AreOwn pool.log := by
  have orderly := orderly_of_steps (orderly_start agenda disk) steps
  have candid : pool.IsCandid := isCandid_of_steps (fun _ _ done => by cases done) steps
  constructor
  · have paths : (pool.log.map fun outcome => outcome.1.path) = pool.noted.map (·.path) := by
      rw [Pool.noted, List.map_map]
      rfl
    rw [paths]
    refine List.Nodup.map_on (fun dist mem other otherMem same => ?_) orderly.once
    have known {file : DistFile} (isNoted : file ∈ pool.noted) : file ∈ agenda.files := by
      obtain ⟨result, _, come⟩ := orderly.started_of_mem_noted isNoted
      exact orderly.known file (by simp [come])
    exact List.inj_on_of_nodup_map distinct (known mem) (known otherMem) same
  · intro dist result processed mem reported
    obtain ⟨decision, warnings, rfl⟩ := candid dist result (orderly.logged _ mem)
    exact path_eq_of_result reported

end Pool

/-! ## Runs -/

namespace Engine

variable {engine : Engine} {disk after : Disk} {written : List Text} {groups : List (List DistFile)}

/-- The files of a plan have different paths. -/
theorem Plans.nodup_paths (plans : Plans engine disk written groups) :
    (groups.flatten.map (·.path)).Nodup := by
  cases plans with
  | noTarget => exact List.nodup_nil
  | noSource => exact List.nodup_nil
  | @files accepted sources _ read _ _ _ expanded =>
      apply Expansion.nodup_of_accepted (Target.accepted_of_readAll read)
      refine expanded.imp fun target files found => ?_
      have sound := Cache.sound_fresh disk engine.root engine.options.exclude
      exact ⟨_, (Expansion.expand_eq sound target).1.trans found⟩

theorem MayEnd.isStrict {report : Report} (ended : MayEnd engine disk written (.ok report) after) :
    report.IsStrict := by
  cases ended with
  | @reported groups pool results plans _ executes _ order =>
      have own : AreOwn pool.log :=
        Pool.areOwn_of_steps executes.1 (by rw [files_agenda]; exact plans.nodup_paths)
      exact (own.perm order.symm).isStrict engine.options.dryRun

/-- No file is scheduled twice. On any disk, from any sources and with anything remembered, the
targets of an accepted list are expanded to paths that are all different. So every report
of a run, however its files were in flight, has its lists in the strict order of paths, and
no path is in both. -/
theorem no_path_twice (engine : Engine) (disk : Disk) {written : List Text} {targets : List Target}
    (read : Target.readAll written = .ok targets) :
    (∀ sourceDir sources groups, List.Forall₂ (fun target files =>
        ∃ cache, (expand disk cache sourceDir target sources).1 = .ok files) targets groups →
      (groups.flatten.map (·.path)).Nodup) ∧
      (∀ report after, engine.run disk written = (.ok report, after) → report.IsStrict) ∧
      ∀ report after, MayEnd engine disk written (.ok report) after → report.IsStrict := by
  refine ⟨?_, ?_, fun report after ended => ended.isStrict⟩
  · intro sourceDir sources groups expanded
    exact Expansion.nodup_of_accepted (Target.accepted_of_readAll read) expanded
  · intro report after ran
    rcases run_eq_ok_iff.1 ran with ⟨groups, plans, carries⟩
    exact (mayEnd_of_carries plans (List.Nodup.of_map _ plans.nodup_paths) carries).isStrict

/-- A project of two libraries. -/
def libraryDisk : Disk :=
  let directory (names : List String) (disk : Disk) : Disk :=
    disk.store (smallLocation names) (.directory Node.directoryMode)
  let file (names : List String) (content : String) (disk : Disk) : Disk :=
    disk.store (smallLocation names) (.file (Utf8.encode content.toList) Node.fileMode)
  Disk.empty
    |> directory []
    |> directory ["src"]
    |> directory ["src", "libs"]
    |> directory ["src", "libs", "kit"]
    |> file ["src", "libs", "kit", "x.ts"] "x // <dler-remove-line>\ny\n"
    |> directory ["src", "libs", "sdk"]
    |> file ["src", "libs", "sdk", "x.ts"] "x // <dler-remove-line>\ny\n"
    |> directory ["dist-libs"]
    |> directory ["dist-libs", "kit"]
    |> directory ["dist-libs", "kit", "npm"]
    |> directory ["dist-libs", "kit", "npm", "bin"]
    |> file ["dist-libs", "kit", "npm", "bin", "x.js"] "old\n"
    |> directory ["dist-libs", "sdk"]
    |> directory ["dist-libs", "sdk", "npm"]
    |> directory ["dist-libs", "sdk", "npm", "bin"]
    |> file ["dist-libs", "sdk", "npm", "bin", "x.js"] "old\n"

/-- The source of a library. -/
def librarySource (library : String) : SourceFile :=
  ⟨Path.ofText ("src/libs/" ++ library ++ "/x.ts").toList, "x // <dler-remove-line>\ny\n".toList⟩

/-- The output of a library, for the target of this library. -/
def libraryFile (library : String) : DistFile :=
  { path := Path.ofText ("dist-libs/" ++ library ++ "/npm/bin/x.js").toList
    layout := .library library.toList "npm".toList
    target := ("dist-libs/" ++ library).toList }

/-- The output of both libraries is scheduled once, and reported in a strict order. -/
theorem no_path_twice_libraries :
    ((smallEngine.plan libraryDisk [.library "sdk".toList, .library "kit".toList]) =
        .ok [[libraryFile "sdk"], [libraryFile "kit"]]) ∧
      ([[libraryFile "sdk"], [libraryFile "kit"]].flatten.map (·.path)).Nodup ∧
      ∃ report after,
        smallEngine.run libraryDisk ["dist-libs/sdk".toList, "dist-libs/kit".toList] =
          (.ok report, after) ∧
          report.IsStrict := by
  have read : Target.readAll ["dist-libs/sdk".toList, "dist-libs/kit".toList] =
      .ok [.library "sdk".toList, .library "kit".toList] := rfl
  obtain ⟨distinct, strict, _⟩ := no_path_twice smallEngine libraryDisk read
  have expanded : ∀ library ∈ ["sdk", "kit"],
      (expand libraryDisk (Cache.fresh smallEngine.root []) smallEngine.sourceDir
        (.library library.toList)
        [librarySource "kit", librarySource "sdk"]).1 = .ok [libraryFile library] := by
          decide +kernel
  obtain ⟨report, after, ran⟩ := @exists_of_isOk _ _ _
    (smallEngine.run libraryDisk ["dist-libs/sdk".toList, "dist-libs/kit".toList])
      (by decide +kernel)
  refine ⟨by decide +kernel, ?_, report, after, ran, strict report after ran⟩
  exact distinct
    _ _ _ (.cons ⟨_, expanded "sdk" (by simp)⟩ (.cons ⟨_, expanded "kit" (by simp)⟩ .nil))

end Engine

end DistDirectives.Run
