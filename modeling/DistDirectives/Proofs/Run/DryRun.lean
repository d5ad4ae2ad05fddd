import DistDirectives.Proofs.Run.Order

/-!
# Dry runs foretell runs

A dry run and the run that it stands for decide about every file on the first disk, which
the dry run never changes and of which the run sees what matters. So they come to the same
decisions, and refuse the same files: those that the process may not read. Carrying a
decision out can fail only where new content is written, and the file is then an error of
the run instead of a processed file.
-/

namespace DistDirectives.Run

open Disk (IsPlainProject)

/-! ## Reports -/

/-- The paths of a report: those of what was processed, and those of what failed. -/
def Report.listed (report : Report) : List Path :=
  report.processed.map (·.path) ++ report.errors.map (·.path)

/-- Results that a dry run foretells: what is neither processed nor refused alike would have
been written or removed. -/
structure Matches (foretold results : List Outcome) : Prop where
  own : AreOwn foretold
  ownResults : AreOwn results
  carried : ∀ dist result, (dist, result) ∈ results → ∃ decision warnings,
    (dist, Decision.answer decision dist warnings) ∈ foretold ∧
      (result = decision.answer dist warnings ∨
        ∃ action error, decision.action = some action ∧ result = .error error)
  covered : ∀ dist foretelling, (dist, foretelling) ∈ foretold → ∃ result, (dist, result) ∈ results

namespace Matches

variable {foretold results : List Outcome}

theorem perm (matched : Matches foretold results) {others more : List Outcome}
    (foretoldPerm : foretold.Perm others) (resultsPerm : results.Perm more) :
    Matches others more := by
  refine ⟨matched.own.perm foretoldPerm, matched.ownResults.perm resultsPerm, ?_, ?_⟩
  · intro dist result mem
    obtain ⟨decision, warnings, foretoldMem, same⟩ :=
      matched.carried dist result (resultsPerm.mem_iff.2 mem)
    exact ⟨decision, warnings, foretoldPerm.mem_iff.1 foretoldMem, same⟩
  · intro dist foretelling mem
    obtain ⟨result, resultMem⟩ := matched.covered dist foretelling (foretoldPerm.mem_iff.2 mem)
    exact ⟨result, resultsPerm.mem_iff.1 resultMem⟩

end Matches

/-! ## Files one after the other -/

section

variable {setting : Setting} {disk : Disk} {dist : DistFile} {files : List DistFile}

end

/-! ## Two executions -/

variable {setting : Setting} {disk : Disk} {base : Location} {agenda otherAgenda : Agenda}
  {pool otherPool : Pool} {dist : DistFile} {clear : Prop}

namespace Engine

variable {engine : Engine} {targets : List Text} {groups : List (List DistFile)} {after : Disk}
  {result : Except Failure Report}

section

variable (project : IsPlainProject disk engine.root base)
  (isSourceDirectory : IsSourceDirectory (Path.ofText engine.sourceDir))
  (goesOn : engine.options.stopOnError = false)

include project isSourceDirectory

include goesOn

end

end Engine

end DistDirectives.Run
