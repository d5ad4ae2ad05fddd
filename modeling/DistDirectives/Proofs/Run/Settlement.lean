import DistDirectives.Proofs.Run.Interleaving
import DistDirectives.Proofs.Run.Soundness

/-!
# When everything is at rest

Whatever the order in which files took their steps, once nothing is in flight the disk is
the first one with every file that was processed in its final state: a file is in the state
that its decision leaves, or as it was, and no temporary file remains. `Executes.rests` says
so; all that is said of whole runs is read off it.
-/

namespace DistDirectives.Run

open Relation (ReflTransGen)

variable {agenda : Agenda} {setting : Setting} {disk : Disk} {base : Location} {pool next : Pool}
  {dist : DistFile} {clear : Prop} {shows : DistFile → FileResult → Option Node → Prop}

/-! ## Shared disks -/

/-- What holds of a disk and of the phases of files from the start, and through every moment of
every file, holds of all that the files can lead to. -/
theorem Pool.holds_of_steps (Holds : Disk → (DistFile → Option Phase) → Prop)
    (first : Holds disk fun _ => none)
    (start : ∀ now phase dist, Holds now phase → dist ∈ agenda.files → phase dist = none →
      Holds now (Function.update phase dist (some .begun)))
    (work : ∀ now phase dist come, Holds now phase → phase dist = some come →
      come.isDone = false → Holds (advance setting dist now come).2
        (Function.update phase dist (some (advance setting dist now come).1)))
    (steps : ReflTransGen (Step agenda setting) { disk := disk } pool) :
    Holds pool.disk pool.phase := by
  induction steps with
  | refl => exact first
  | tail _ step ih =>
      cases step with
      | start may => exact start _ _ _ ih may.known may.waiting
      | work come busy => exact work _ _ _ _ ih come busy
      | note => exact ih

/-- The disk that files share once nothing is in flight. -/
structure Settles (setting : Setting) (disk : Disk) (base : Location) (files : List DistFile)
    (shows : DistFile → FileResult → Option Node → Prop) (pool : Pool) : Prop where
  settled : ∀ dist result, (dist, Except.ok result) ∈ pool.log →
    shows dist result (pool.disk.get? (placeOf base dist))
  kept : ∀ dist ∈ files, (∀ result, (dist, Except.ok result) ∉ pool.log) →
    pool.disk.get? (placeOf base dist) = disk.get? (placeOf base dist)
  elsewhere : ∀ location, (∀ dist ∈ files, location ≠ placeOf base dist) →
    pool.disk.get? location = disk.get? location
  top : pool.disk.background = disk.background

/-- No temporary file is left when all files that were started are done. -/
theorem Shared.settles {files : List DistFile} (orderly : Pool.Orderly agenda pool)
    (finished : Pool.Finished agenda pool)
    (shared : Shared setting disk base files shows pool.disk pool.phase) :
    Settles setting disk base files shows pool := by
  have done {dist : DistFile} (started : pool.phase dist ≠ none) :
      ∃ result, (dist, result) ∈ pool.log ∧ pool.phase dist = some (.done result) :=
    orderly.started_of_mem_noted (finished.drained dist started)
  have unmoved (dist : DistFile) : isMoving (pool.phase dist) = false := by
    by_contra moves
    obtain ⟨_, _, _, come⟩ := exists_of_isMoving (by simpa using moves)
    obtain ⟨result, _, isDone⟩ := @done dist (by simp [come])
    rw [come, Option.some.injEq] at isDone
    contradiction
  constructor
  case settled =>
    intro dist result mem
    rcases shared.left dist result (orderly.logged _ mem) with shown | ⟨other, moves, _⟩
    · exact shown
    · rw [unmoved other] at moves
      contradiction
  case kept =>
    intro dist mem failed
    apply shared.kept dist mem
    by_contra settled
    obtain ⟨result, come⟩ := exists_of_isSettled (by simpa using settled)
    obtain ⟨again, logMem, isDone⟩ := @done dist (by simp [come])
    rw [come, Option.some.injEq, Phase.done.injEq] at isDone
    exact failed result (isDone ▸ logMem)
  case elsewhere =>
    intro location apart
    refine shared.elsewhere location apart fun other moves => ?_
    rw [unmoved other] at moves
    contradiction
  case top => exact shared.top

/-! ## Decided files -/

/-- What the files of an agenda leave behind. -/
structure Rests (agenda : Agenda) (setting : Setting) (disk : Disk) (base : Location) (clear : Prop)
    (pool : Pool) : Prop
    extends Settles setting disk base agenda.files (AsDecided setting disk base) pool where
  known : ∀ outcome ∈ pool.log, outcome.1 ∈ agenda.files
  once : pool.noted.Nodup
  complete : Passes agenda.stopOnError pool.log → ∀ dist ∈ agenda.files, dist ∈ pool.noted
  ordered : agenda.stopOnError = true → ∀ dist ∈ pool.noted, ∀ first, agenda.Precedes first dist →
    ∃ result, (first, Except.ok result) ∈ pool.log
  ends : ∀ dist result, (dist, result) ∈ pool.log → ∃ decision warnings,
    Decides setting disk dist decision warnings ∧
      Ends setting disk clear dist warnings decision result

theorem Pool.isSound_of_steps (ground : IsGround setting disk base agenda.files)
    (isClear : clear → IsClear setting agenda.files)
    (steps : ReflTransGen (Step agenda setting) { disk := disk } pool) :
    Sound setting disk base agenda.files clear pool.disk pool.phase :=
  holds_of_steps (Sound setting disk base agenda.files clear) ground.sound
    (fun _ _ _ sound mem waiting => sound.keeps ground.toIsScene (sound.start mem waiting))
    (fun _ _ _ _ sound come busy =>
      sound.keeps ground.toIsScene (sound.advance ground isClear come busy)) steps

theorem Pool.Executes.rests (ground : IsGround setting disk base agenda.files)
    (isClear : clear → IsClear setting agenda.files)
    (executes : Executes agenda setting disk pool) :
    Rests agenda setting disk base clear pool := by
  rcases executes with ⟨steps, finished⟩
  have orderly := orderly_of_steps (orderly_start agenda disk) steps
  have sound : Sound setting disk base agenda.files clear pool.disk pool.phase :=
    isSound_of_steps ground isClear steps
  refine ⟨sound.toShared.settles orderly finished, ?_, orderly.once, finished.complete, ?_, ?_⟩
  · exact fun outcome mem => orderly.known _ (by simp [orderly.logged outcome mem])
  · intro stops dist mem first precedes
    obtain ⟨result, _, come⟩ := orderly.started_of_mem_noted mem
    exact orderly.ordered stops dist (by simp [come]) first precedes
  · exact fun dist result mem => sound.knows dist _ (orderly.logged _ mem)

end DistDirectives.Run
