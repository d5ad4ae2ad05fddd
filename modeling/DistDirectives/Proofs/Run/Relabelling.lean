import DistDirectives.Proofs.Run.Order

/-!
# Labels of targets

A distribution file bears the target that asked for it as a label. Nothing but the report shows
the label: a file is expanded, processed and sorted in the same way under every label. So what is
known of files under one label is known of them under another.
-/

namespace DistDirectives.Run

/-! ## Files, results and reports under a label -/

/-- A file under the label of another target. -/
def DistFile.relabel (label : Text) (dist : DistFile) : DistFile := { dist with target := label }

/-- What happened to a file, under the label of another target. -/
def ProcessedFile.relabel (label : Text) (processed : ProcessedFile) : ProcessedFile :=
  { processed with target := label }

/-- What processing a file yields, under the label of another target. -/
def FileResult.relabel (label : Text) (result : FileResult) : FileResult :=
  { result with processed := result.processed.map (ProcessedFile.relabel label) }

/-- A file with its result, under the label of another target. -/
def Outcome.relabel (label : Text) (outcome : Outcome) : Outcome :=
  (outcome.1.relabel label, outcome.2.map (FileResult.relabel label))

/-- A report in which every processed file is under one label. -/
def Report.relabel (label : Text) (report : Report) : Report :=
  { report with processed := report.processed.map (ProcessedFile.relabel label) }

variable {label : Text} {setting : Setting} {disk : Disk} {dist : DistFile} {files : List DistFile}

namespace Expansion

variable {root : Path} {sourceDir : Text} {sources : List SourceFile}

end Expansion

/-! ## Files at rest -/

theorem IsClear.relabel {setting : Setting} {files : List DistFile}
    (isClear : IsClear setting files)
    (label : Text) : IsClear setting (files.map (DistFile.relabel label)) := by
  intro dist mem other otherMem
  obtain ⟨original, originalMem, rfl⟩ := List.mem_map.1 mem
  obtain ⟨another, anotherMem, rfl⟩ := List.mem_map.1 otherMem
  exact isClear original originalMem another anotherMem

/-- The results of a pool under a label. -/
def Pool.relabel (label : Text) (pool : Pool) : Pool :=
  { pool with log := pool.log.map (Outcome.relabel label) }

theorem Decision.result_relabel (decision : Decision) (warnings : Nat) :
    (decision.result dist warnings).relabel label =
      decision.result (dist.relabel label) warnings := by
  simp only [Decision.result, FileResult.relabel, Option.map_map]
  rfl

theorem Decision.answer_relabel (decision : Decision) (warnings : Nat) :
    (decision.answer dist warnings).map (FileResult.relabel label) =
      decision.answer (dist.relabel label) warnings := by
  cases decision with
  | refuse error => rfl
  | keep => exact congrArg Except.ok (Decision.result_relabel .keep warnings)
  | remove => exact congrArg Except.ok (Decision.result_relabel .remove warnings)
  | write content => exact congrArg Except.ok (Decision.result_relabel (.write content) warnings)

/-- What is made of a file does not depend on its label. -/
theorem decides_relabel_iff {decision : Decision} {warnings : Nat} :
    Decides setting disk (dist.relabel label) decision warnings ↔
      Decides setting disk dist decision warnings := by
  constructor
  · rintro (⟨read, basis⟩ | ⟨failed⟩ | ⟨read, failed⟩)
    · exact .judged read basis
    · exact .unread failed
    · exact .baseless read failed
  · rintro (⟨read, basis⟩ | ⟨failed⟩ | ⟨read, failed⟩)
    · exact .judged read basis
    · exact .unread failed
    · exact .baseless read failed

theorem Ends.relabel {clear : Prop} {decision : Decision} {warnings : Nat}
    {result : Except DiskError FileResult}
    (ends : Ends setting disk clear dist warnings decision result) :
    Ends setting disk clear (dist.relabel label) warnings decision
      (result.map (FileResult.relabel label)) := by
  cases ends with
  | finished answered attempted =>
      exact .finished (by rw [answered, Decision.answer_relabel]) attempted
  | refused wet acts attempted => exact .refused wet acts attempted

section

variable {agenda other : Agenda} {base : Location} {clear : Prop} {pool : Pool}

/-- Files leave under another label what they leave under their own. -/
theorem Settles.relabel {files : List DistFile}
    (settles : Settles setting disk base files (AsDecided setting disk base) pool) :
    Settles setting disk base (files.map (DistFile.relabel label)) (AsDecided setting disk base)
      (pool.relabel label) := by
  constructor
  case settled =>
    intro dist result mem decision warnings decides
    obtain ⟨⟨original, originalResult⟩, originalMem, same⟩ := List.mem_map.1 mem
    cases originalResult with
    | error error => cases same
    | ok originalResult =>
        cases same
        exact settles.settled original originalResult originalMem decision warnings
          (decides_relabel_iff.1 decides)
  case kept =>
    intro dist mem unprocessed
    obtain ⟨original, originalMem, rfl⟩ := List.mem_map.1 mem
    refine settles.kept original originalMem fun result logMem => ?_
    exact unprocessed _ (List.mem_map_of_mem logMem)
  case elsewhere =>
    intro location foreign
    refine settles.elsewhere location fun dist mem => ?_
    exact foreign (dist.relabel label) (List.mem_map_of_mem mem)
  case top => exact settles.top

/-- Files are at rest under another label as they are under their own. -/
theorem Rests.relabel (rests : Rests agenda setting disk base clear pool)
    (ground : IsGround setting disk base agenda.files)
    (goesOn : agenda.stopOnError = false) (otherGoesOn : other.stopOnError = false)
    (files_eq : other.files = agenda.files.map (DistFile.relabel label)) :
    Rests other setting disk base clear (pool.relabel label) := by
  have noted_eq : (pool.relabel label).noted = pool.noted.map (DistFile.relabel label) := by
    simp only [Pool.noted, Pool.relabel, List.map_map]
    rfl
  constructor
  case toSettles => exact files_eq ▸ rests.toSettles.relabel
  case known =>
    intro outcome mem
    obtain ⟨original, originalMem, rfl⟩ := List.mem_map.1 mem
    rw [files_eq]
    exact List.mem_map_of_mem (rests.known original originalMem)
  case once =>
    rw [noted_eq]
    refine List.Nodup.map_on (fun dist mem another anotherMem same => ?_) rests.once
    obtain ⟨_, logMem⟩ := Pool.mem_noted_iff.1 mem
    obtain ⟨_, anotherLogMem⟩ := Pool.mem_noted_iff.1 anotherMem
    have path_eq : (dist.relabel label).path = (another.relabel label).path := by rw [same]
    exact ground.eq_of_path_eq (rests.known _ anotherLogMem) (rests.known _ logMem) path_eq
  case complete =>
    intro _ dist mem
    rw [files_eq] at mem
    obtain ⟨original, originalMem, rfl⟩ := List.mem_map.1 mem
    rw [noted_eq]
    exact List.mem_map_of_mem (rests.complete (by simp [Passes, goesOn]) original originalMem)
  case ordered =>
    intro stops
    rw [otherGoesOn] at stops
    contradiction
  case ends =>
    intro dist result mem
    obtain ⟨⟨original, _⟩, originalMem, same⟩ := List.mem_map.1 mem
    cases same
    obtain ⟨decision, warnings, decides, ends⟩ := rests.ends original _ originalMem
    exact ⟨decision, warnings, decides_relabel_iff.2 decides, ends.relabel⟩

end

end DistDirectives.Run
