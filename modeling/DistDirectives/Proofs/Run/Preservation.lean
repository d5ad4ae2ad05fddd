import DistDirectives.Proofs.Run.Endings

/-!
# What runs leave alone

A run changes the disk where its files stand, and beside them where nothing stands. All else
that stood on the disk stays, on every disk, with links and strange names, and whatever
comes of the run: each moment of each file keeps it. Sources are left alone unless a file of
the run is one of them, and none is when the source directory and the distribution roots lie
apart. Nothing sees to that: a run whose source directory lies in a distribution root
rewrites its sources.
-/

namespace DistDirectives

/-- Where a path leads, if a link at its end is not followed. -/
def Disk.LeadsTo (disk : Disk) (path : Path) (location : Location) : Prop :=
  ∃ node, disk.walk false path.segments = .ok (.node location node)

namespace Run

open Disk (IsSite StandsForFile IsPlainProject IsPlainOutside LeadsToPlainTree)
open Relation (ReflTransGen)

/-! ## One moment of one file -/

/-- The location that a phase is still to touch has a property. -/
def Phase.IsWithin (property : Location → Prop) : Phase → Prop
  | .moving temporary _ _ => property temporary
  | _ => True

theorem Phase.IsWithin.imp {property other : Location → Prop} {phase : Phase}
    (within : phase.IsWithin property) (implies : ∀ location, property location → other location) :
    phase.IsWithin other := by
  cases phase with
  | moving temporary file warnings => exact implies temporary within
  | _ => trivial

variable {setting : Setting} {dist : DistFile} {disk now after : Disk}

/-- A moment of a file touches the place of the file, the temporary file that it has, or a
place that is free. -/
theorem advance_frame {place : Location} {last : Text}
    (site : IsSite now (setting.root.join dist.path.text) place last) {phase : Phase}
    (proper : phase.IsWithin (· ≠ [])) :
    (advance setting dist now phase).1.IsWithin (fun temporary => now.get? temporary = none) ∧
      (advance setting dist now phase).2.privileged = now.privileged ∧
      ∀ location, location ≠ place ++ [last] → phase.IsWithin (location ≠ ·) →
        now.get? location ≠ none →
        (advance setting dist now phase).2.get? location = now.get? location := by
  cases phase with
  | done result => exact ⟨trivial, rfl, fun _ _ _ _ => rfl⟩
  | begun =>
      rw [advance]
      split
      · exact ⟨trivial, rfl, fun _ _ _ _ => rfl⟩
      · split <;> exact ⟨trivial, rfl, fun _ _ _ _ => rfl⟩
  | searching current candidates =>
      cases candidates with
      | nil => exact ⟨trivial, rfl, fun _ _ _ _ => rfl⟩
      | cons candidate others =>
          rw [advance]
          split <;> exact ⟨trivial, rfl, fun _ _ _ _ => rfl⟩
  | fetching current source =>
      rw [advance]
      split <;> exact ⟨trivial, rfl, fun _ _ _ _ => rfl⟩
  | decided decision warnings =>
      by_cases dry : setting.dryRun = true
      · simp only [advance, if_pos dry]
        exact ⟨trivial, trivial, fun _ _ _ _ => trivial⟩
      cases decision with
      | keep =>
          simp only [advance, if_neg dry]
          exact ⟨trivial, trivial, fun _ _ _ _ => trivial⟩
      | refuse error =>
          simp only [advance, if_neg dry]
          exact ⟨trivial, trivial, fun _ _ _ _ => trivial⟩
      | remove =>
          simp only [advance, if_neg dry]
          split
          · exact ⟨trivial, rfl, fun _ _ _ _ => rfl⟩
          · rename_i removed
            rw [site.eq_erase_of_removeFile removed]
            refine ⟨trivial, rfl, fun location elsewhere _ _ => ?_⟩
            rw [Disk.get?_erase _ (by simp), if_neg elsewhere]
      | write content =>
          simp only [advance, if_neg dry]
          rcases site.stage_cases setting.writer content with ⟨error, refused⟩ | ⟨free, staged⟩
          · rw [refused]
            exact ⟨trivial, rfl, fun _ _ _ _ => rfl⟩
          · rw [staged]
            refine ⟨free, rfl, fun location _ _ held => ?_⟩
            rw [Disk.get?_store _ (by simp), if_neg]
            rintro rfl
            exact held free
  | moving temporary file warnings =>
      have settled {location : Location} :=
        @IsSite.get?_settle _ _ _ _ site temporary proper file location
      have rights := site.privileged_settle temporary file
      rw [advance]
      cases came : now.settle temporary file (setting.root.join dist.path.text) with
      | mk result last =>
          rw [came] at settled rights
          cases result with
          | error error =>
              exact ⟨trivial, rights, fun _ elsewhere apart _ => settled apart elsewhere⟩
          | ok => exact ⟨trivial, rights, fun _ elsewhere apart _ => settled apart elsewhere⟩

theorem Schedule.batchSize_run (schedule : Schedule) (setting : Setting) (disk : Disk)
    (files : List DistFile) :
    (schedule.run setting disk files).2.1.batchSize = schedule.batchSize := by
  rw [run]
  split <;> rfl

/-! ## What belongs to a run -/

namespace Engine

variable {engine : Engine} {targets : List Text} {base location : Location}

/-- Whatever stands at a location stands there as a file of a run. -/
def Owns (engine : Engine) (disk : Disk) (targets : List Text) (location : Location) : Prop :=
  ∀ node, disk.get? location = some node →
    ∃ dist, Expands engine disk targets dist ∧
      disk.LeadsTo (engine.root.join dist.path.text) location

theorem Expands.isFile (expands : Expands engine disk targets dist) :
    disk.isFile (engine.root.join dist.path.text) = true := by
  obtain ⟨_, _, _, _, _, _, _, expansion, distMem⟩ := expands_iff.1 expands
  exact (Expansion.exists_of_mem_filesOf expansion distMem).1

/-- No directory belongs to a run, and no link that leads to one. -/
theorem Owns.standsForFile (owns : Owns engine disk targets location) {node : Node}
    (held : disk.get? location = some node) : StandsForFile disk location := by
  obtain ⟨dist, expands, _, leads⟩ := owns node held
  obtain ⟨place, last, _, stands, _, ends⟩ := Disk.exists_isSite_of_isFile expands.isFile
  rw [ends] at leads
  cases leads
  exact stands

theorem Owns.ne_nil (owns : Owns engine disk targets location) : location ≠ [] := by
  rintro rfl
  exact Disk.not_standsForFile_of_directory disk.get?_nil (owns.standsForFile disk.get?_nil)

/-- All that stood on a disk and does not belong to a run still stands. -/
structure Spares (engine : Engine) (disk : Disk) (targets : List Text) (now : Disk) : Prop where
  rights : now.privileged = disk.privileged
  kept : ∀ location, ¬ Owns engine disk targets location → now.get? location = disk.get? location

theorem spares_refl (engine : Engine) (disk : Disk) (targets : List Text) :
    Spares engine disk targets disk := ⟨rfl, fun _ _ => rfl⟩

namespace Spares

/-- What has come free belongs to the run. -/
theorem owns_of_free (spares : Spares engine disk targets now) (free : now.get? location = none) :
    Owns engine disk targets location := by
  by_contra foreign
  have same := spares.kept location foreign
  rw [free] at same
  exact foreign fun node held => by simp [← same] at held

/-- The files of a run stay where they are. -/
theorem exists_isSite (spares : Spares engine disk targets now)
    (expands : Expands engine disk targets dist) :
    ∃ place last, IsSite now (engine.setting.root.join dist.path.text) place last ∧
      Owns engine disk targets (place ++ [last]) := by
  obtain ⟨place, last, site, _, node, ends⟩ := Disk.exists_isSite_of_isFile expands.isFile
  refine ⟨place, last, site.mono spares.rights fun location node held noFile => ?_,
    fun _ _ => ⟨dist, expands, node, ends⟩⟩
  rw [spares.kept location fun owns => noFile (owns.standsForFile held), held]

/-- A moment of a file of a run touches what belongs to the run. -/
theorem advance (spares : Spares engine disk targets now)
    (expands : Expands engine disk targets dist)
    {phase : Phase} (within : phase.IsWithin (Owns engine disk targets)) :
    (advance engine.setting dist now phase).1.IsWithin (Owns engine disk targets) ∧
      Spares engine disk targets (advance engine.setting dist now phase).2 := by
  obtain ⟨place, last, site, owns⟩ := spares.exists_isSite expands
  obtain ⟨fresh, rights, frame⟩ := advance_frame site (within.imp fun _ => Owns.ne_nil)
  refine ⟨fresh.imp fun _ => spares.owns_of_free, rights.trans spares.rights,
    fun location foreign => ?_⟩
  have elsewhere : location ≠ place ++ [last] := by
    rintro rfl
    exact foreign owns
  have apart : phase.IsWithin (location ≠ ·) := by
    refine within.imp fun temporary owns => ?_
    rintro rfl
    exact foreign owns
  have held : now.get? location ≠ none := fun free => foreign (spares.owns_of_free free)
  rw [frame location elsewhere apart held, spares.kept location foreign]

/-! ## Files one after the other -/

theorem of_alone (spares : Spares engine disk targets now)
    (expands : Expands engine disk targets dist)
    {phase : Phase} (within : phase.IsWithin (Owns engine disk targets)) {there : Phase × Disk}
    (steps : ReflTransGen (Alone engine.setting dist) (phase, now) there) :
    there.1.IsWithin (Owns engine disk targets) ∧ Spares engine disk targets there.2 := by
  induction steps with
  | refl => exact ⟨within, spares⟩
  | tail _ step ih =>
      rcases step with ⟨_, rfl⟩
      exact ih.2.advance expands ih.1

theorem process (spares : Spares engine disk targets now)
    (expands : Expands engine disk targets dist) :
    Spares engine disk targets (process engine.setting now dist).2 :=
  (@of_alone _ _ _ _ _ spares expands .begun trivial _ (alone_process engine.setting dist now)).2

theorem step {state : Schedule.State} (spares : Spares engine disk targets state.disk)
    (expands : Expands engine disk targets dist) (stopOnError : Bool) :
    Spares engine disk targets (Schedule.step engine.setting stopOnError state dist).disk := by
  have processed := spares.process expands
  rw [Schedule.step]
  split
  · exact spares
  · split
    · rename_i came
      rwa [came] at processed
    · rename_i came
      rw [came] at processed
      split <;> exact processed

theorem foldl_step {state : Schedule.State} (spares : Spares engine disk targets state.disk)
    {files : List DistFile} (expand : ∀ dist ∈ files, Expands engine disk targets dist)
    (stopOnError : Bool) :
    Spares engine disk targets
      (files.foldl (Schedule.step engine.setting stopOnError) state).disk := by
  induction files generalizing state with
  | nil => exact spares
  | cons dist files ih =>
      rw [List.foldl_cons]
      exact ih (spares.step (expand dist (by simp)) stopOnError) fun other mem =>
        expand other (by simp [mem])

theorem run_schedule (spares : Spares engine disk targets now) {schedule : Schedule}
    (positive : 0 < schedule.batchSize) {files : List DistFile}
    (expand : ∀ dist ∈ files, Expands engine disk targets dist) :
    Spares engine disk targets (schedule.run engine.setting now files).2.2 := by
  rw [Schedule.run, Schedule.foldl_batches positive]
  split
  · exact spares
  · exact @foldl_step _ _ _ { disk := now, halted := schedule.halted } spares _ expand _

theorem processAll (spares : Spares engine disk targets now) {schedule : Schedule}
    (positive : 0 < schedule.batchSize) {report : Report} {groups : List (List DistFile)}
    (expand : ∀ dist ∈ groups.flatten, Expands engine disk targets dist) :
    Spares engine disk targets (processAll engine.setting schedule report now groups).2 := by
  induction groups generalizing now schedule report with
  | nil => exact spares
  | cons files groups ih =>
      have ran := @run_schedule _ _ _ _ spares schedule positive files
        fun dist mem => expand dist (by simp [mem])
      have sizes := schedule.batchSize_run engine.setting now files
      rw [Engine.processAll]
      split
      · rename_i part next between came
        rw [came] at ran sizes
        exact ih ran (sizes ▸ positive) fun dist mem => expand dist (by simp [mem])
      · rename_i came
        rwa [came] at ran

end Spares

/-- The run of files one after the other, be it successful or not. -/
theorem spares_run (engine : Engine) (disk : Disk) (targets : List Text) :
    Spares engine disk targets (engine.run disk targets).2 := by
  have unchanged := spares_refl engine disk targets
  have processed {groups : List (List DistFile)} (plans : Plans engine disk targets groups) :
      Spares engine disk targets (Engine.processAll engine.setting engine.schedule
        { dryRun := engine.options.dryRun } disk (groups.filter (!·.isEmpty))).2 := by
    refine unchanged.processAll engine.batchSize_pos ?_
    rw [List.flatten_filter_not_isEmpty]
    exact fun dist => plans.mem_flatten_iff.1
  rcases ran : engine.run disk targets with ⟨result, after⟩
  cases goes_of_run ran with
  | refused => exact unchanged
  | unplanned => exact unchanged
  | crowded => exact unchanged
  | reported plans came =>
      have spares := processed plans
      rwa [came] at spares
  | failed plans _ came =>
      have spares := processed plans
      rwa [came] at spares

/-! ## Files in flight -/

variable {groups : List (List DistFile)} {pool next : Pool}

/-- A pool that has touched what belongs to a run only, and is to touch nothing else. -/
structure IsConfined (engine : Engine) (disk : Disk) (targets : List Text)
    (pool : Pool) : Prop where
  spares : Spares engine disk targets pool.disk
  within : ∀ dist phase, pool.phase dist = some phase → phase.IsWithin (Owns engine disk targets)

theorem IsConfined.put (confined : IsConfined engine disk targets pool) {there : Phase × Disk}
    (within : there.1.IsWithin (Owns engine disk targets))
    (spares : Spares engine disk targets there.2) :
    IsConfined engine disk targets (pool.put dist there) := by
  refine ⟨spares, fun other phase come => ?_⟩
  by_cases same : other = dist
  · subst same
    rw [Pool.put_phase_self] at come
    cases come
    exact within
  · rw [pool.put_phase_of_ne there same] at come
    exact confined.within other phase come

theorem IsConfined.step (plans : Plans engine disk targets groups)
    (confined : IsConfined engine disk targets pool)
    (orderly : Pool.Orderly (engine.agenda groups) pool)
    (step : Pool.Step (engine.agenda groups) engine.setting pool next) :
    IsConfined engine disk targets next := by
  cases step with
  | start => exact confined.put trivial confined.spares
  | @work dist phase come =>
      have known := orderly.known dist (by simp [come])
      rw [files_agenda, plans.mem_flatten_iff] at known
      obtain ⟨within, spares⟩ := confined.spares.advance known (confined.within dist phase come)
      exact confined.put within spares
  | note => exact ⟨confined.spares, confined.within⟩

theorem isConfined_of_steps (plans : Plans engine disk targets groups)
    (steps : ReflTransGen (Pool.Step (engine.agenda groups) engine.setting) { disk := disk } pool) :
    IsConfined engine disk targets pool := by
  induction steps with
  | refl => exact ⟨spares_refl engine disk targets, by simp⟩
  | tail before step ih =>
      exact ih.step plans (Pool.orderly_of_steps (Pool.orderly_start _ disk) before) step

/-- However a run ends. -/
theorem MayEnd.spares {result : Except Failure Report}
    (ended : MayEnd engine disk targets result after) :
    Spares engine disk targets after := by
  cases ended with
  | refused => exact spares_refl engine disk targets
  | unplanned => exact spares_refl engine disk targets
  | crowded => exact spares_refl engine disk targets
  | choked => exact spares_refl engine disk targets
  | reported plans _ executes => exact (isConfined_of_steps plans executes.1).spares
  | failed plans _ executes => exact (isConfined_of_steps plans executes.1).spares

/-! ## Sources -/

/-- In a project a file of a run stands where its path says. -/
theorem Expands.location_eq (expands : Expands engine disk targets dist)
    (project : IsPlainProject disk engine.root base)
    (plainSources : LeadsToPlainTree disk (engine.root.join engine.sourceDir))
    (leads : disk.LeadsTo (engine.root.join dist.path.text) location) :
    location = base ++ dist.path.segments := by
  have isDist := expands.isDist project plainSources
  rcases isDist.exists_front with ⟨front, last, _, segments⟩
  have spells := isDist.spells engine.root
  have present := expands.isFile
  rw [project.isFile_iff spells] at present
  rcases leads with ⟨node, ends⟩
  rw [spells.segments] at ends
  rw [segments] at spells present ends ⊢
  rcases present with ⟨_, content, mode, held⟩
  rw [← List.append_assoc] at held ⊢
  obtain ⟨_, _, same⟩ := (project.walk_below_eq_ok_iff spells.descends false).1 ends
  rw [Disk.standing_of_some held] at same
  cases same
  rfl

/-- Neither does a directory lie in a distribution root of targets, nor the other way
round. -/
def LiesApart (base start : Location) (targets : List Text) : Prop :=
  ∀ accepted, Target.readAll targets = .ok accepted →
    ∀ target ∈ accepted, ∀ root, target.HasRoot root →
    ¬ start <+: base ++ root ∧ ¬ base ++ root <+: start

/-- A source directory of the usual kind lies apart from all distribution roots. -/
theorem liesApart_of_isSourceDirectory {directory : Path}
    (isSourceDirectory : IsSourceDirectory directory)
    (base : Location) (targets : List Text) :
    LiesApart base (base ++ directory.segments) targets := by
  intro accepted _ target _ root hasRoot
  have top : root.head? = some target.topDirectory ∧ target.topDirectory ∈ distDirectories := by
    cases hasRoot <;> exact ⟨rfl, by simp [Target.topDirectory, distDirectories]⟩
  have differ : directory.segments.head? ≠ root.head? := by
    rw [top.1]
    exact isSourceDirectory.apart _ top.2
  rw [List.prefix_append_right_inj, List.prefix_append_right_inj]
  constructor
  · rintro ⟨rest, rfl⟩
    exact differ (List.head?_append_of_ne_nil _ isSourceDirectory.nonempty).symm
  · rintro ⟨rest, same⟩
    rw [← same, List.head?_append_of_ne_nil] at differ
    · exact differ rfl
    · rintro rfl
      simp at top

/-- Whatever comes of a run, all that stood on the disk stays, but for the files that its
targets are expanded into. So the sources of a project are left alone when the source
directory and the distribution roots of the targets lie apart. -/
theorem run_keeps_sources
    (ended : after = (engine.run disk targets).2 ∨ ∃ result,
      MayEnd engine disk targets result after) :
    (∀ location node, disk.get? location = some node →
      (∀ dist, Expands engine disk targets dist →
        ¬ disk.LeadsTo (engine.root.join dist.path.text) location) →
      after.get? location = some node) ∧
    ∀ base start mode, IsPlainProject disk engine.root base →
      IsPlainOutside disk base (engine.root.join engine.sourceDir) →
      disk.walk true (engine.root.join engine.sourceDir).segments =
        .ok (.node start (.directory mode)) →
      LiesApart base start targets →
      ∀ place content permissions, disk.get? (start ++ place) = some (.file content permissions) →
        after.get? (start ++ place) = some (.file content permissions) := by
  have spares : Spares engine disk targets after := by
    rcases ended with rfl | ⟨result, ended⟩
    · exact spares_run engine disk targets
    · exact ended.spares
  have kept : ∀ location node, disk.get? location = some node →
      (∀ dist, Expands engine disk targets dist →
        ¬ disk.LeadsTo (engine.root.join dist.path.text) location) →
      after.get? location = some node := by
    intro location node held foreign
    rw [spares.kept location fun owns => ?_, held]
    obtain ⟨dist, expands, leads⟩ := owns node held
    exact foreign dist expands leads
  refine ⟨kept, fun base start mode project outside _ apart place content permissions held => ?_⟩
  refine kept _ _ held fun dist expands leads => ?_
  have plainSources := project.leadsToPlainTree outside
  have same := expands.location_eq project plainSources leads
  obtain ⟨_, source, target, _, origin⟩ := expands.exists_origin project plainSources
  obtain ⟨accepted, read, targetMem⟩ := origin.requested
  obtain ⟨root, rest, hasRoot, segments⟩ := origin.isOutput.covers
  obtain ⟨notAbove, notBelow⟩ := apart accepted read target targetMem root hasRoot
  rw [segments, ← List.append_assoc] at same
  rcases List.prefix_or_prefix_of_prefix (List.prefix_append start place)
    (same ▸ List.prefix_append (base ++ root) rest) with above | below
  · exact notAbove above
  · exact notBelow below

/-- A run of the small project leaves its source alone, and the directory of its output. -/
theorem run_keeps_sources_small :
    (smallEngine.run (smallDisk "old\n".toList) ["dist-npm".toList]).2.get?
        (smallLocation ["dist-npm", "bin"]) = some (.directory Node.directoryMode) ∧
      (smallEngine.run (smallDisk "old\n".toList) ["dist-npm".toList]).2.get?
        (smallLocation ["src"] ++ ["a.ts".toList]) =
          some (.file (Utf8.encode smallSource.content) Node.fileMode) := by
  have small : IsSmall (smallDisk "old\n".toList) := by decide +kernel
  have project := small.isPlainProject
  have inside : (smallLocation []) <+: smallLocation ["src"] := by decide
  have reached :
      (smallDisk "old\n".toList).walk true (smallEngine.root.join smallEngine.sourceDir).segments =
      .ok (.node (smallLocation ["src"]) (.directory Node.directoryMode)) := by decide +kernel
  have output :
      (smallDisk "old\n".toList).walk false (smallEngine.root.join smallFile.path.text).segments =
      .ok (.node (smallLocation ["dist-npm", "bin", "a.js"])
        (.file (Utf8.encode "old\n".toList) Node.fileMode)) := by decide +kernel
  obtain ⟨others, sources⟩ := @run_keeps_sources (smallDisk "old\n".toList) _ smallEngine
    ["dist-npm".toList] (.inl rfl)
  refine ⟨others _ _ (by decide +kernel) fun dist expands => ?_, ?_⟩
  · rw [small.eq_of_expands expands]
    rintro ⟨node, leads⟩
    rw [output, Except.ok.injEq, Found.node.injEq] at leads
    exact absurd leads.1 (by decide)
  · refine sources _ _ _ project (fun place mode other outside => ?_) reached
      (liesApart_of_isSourceDirectory small_isSourceDirectory _ _) _ _ _ (by decide +kernel)
    rw [reached] at other
    cases other
    exact absurd inside outside

/-- A project whose only file is a source and an output of itself when the source directory
is the distribution root. -/
def overlapDisk : Disk :=
  let directory (names : List String) (disk : Disk) : Disk :=
    disk.store (smallLocation names) (.directory Node.directoryMode)
  Disk.empty
    |> directory []
    |> directory ["dist-npm"]
    |> directory ["dist-npm", "bin"]
    |>.store (smallLocation ["dist-npm", "bin", "a.js"])
      (.file (Utf8.encode smallSource.content) Node.fileMode)

/-- A run with a distribution root for its source directory rewrites its source. -/
theorem run_rewrites_source :
    overlapDisk.holdsPlainTree (smallLocation []) = true ∧
      overlapDisk.walk true (smallEngine.root.join "dist-npm/bin".toList).segments =
        .ok (.node (smallLocation ["dist-npm", "bin"]) (.directory Node.directoryMode)) ∧
      overlapDisk.get? (smallLocation ["dist-npm", "bin", "a.js"]) =
        some (.file (Utf8.encode smallSource.content) Node.fileMode) ∧
      ({ smallEngine with sourceDir := "dist-npm/bin".toList }.run overlapDisk
        ["dist-npm".toList]).1 =
        .ok smallReport ∧
      ({ smallEngine with sourceDir := "dist-npm/bin".toList }.run overlapDisk
        ["dist-npm".toList]).2.get?
        (smallLocation ["dist-npm", "bin", "a.js"]) =
          some (.file (Utf8.encode "y\n".toList) Node.fileMode) := by
  decide +kernel

end Engine

end Run

end DistDirectives
