import DistDirectives.Disk.Fault
import DistDirectives.Path
import DistDirectives.Target

/-!
# Failures of runs
-/

namespace DistDirectives.Run

/-- Why a run ends without a report. -/
inductive Failure where
  /-- The list of targets is refused. -/
  | target (error : TargetError)
  /-- The sources or a distribution root cannot be listed or read. -/
  | discovery (path : Path) (error : DiskError)
  /-- A distribution file cannot be processed, and the run stops at that. -/
  | file (path : Path) (error : DiskError)
  /-- More files were to be in flight than can be counted. -/
  | task
  /-- More targets were to be in flight than can be counted. -/
  | crash
  deriving DecidableEq

namespace Failure

/-- The failure as it is shown. -/
def message : Failure → String
  | target error => error.message
  | discovery path error => s!"Discovery failed at {path}: {error.message}"
  | file path error => s!"Failed to process {path}: {error.message}"
  | task => "Worker task failed"
  | crash => "Run crashed"

end Failure

end DistDirectives.Run
