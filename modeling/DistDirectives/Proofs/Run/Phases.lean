import Mathlib.Logic.Relation
import DistDirectives.Proofs.Disk.Staging
import DistDirectives.Proofs.Run.Processing

/-!
# Processing a file in phases

A file that is processed beside others looks at the disk at several moments, and changes it
at one or two: it reads its bytes, looks for its source, reads that, and then removes its
own file, or stages new content and moves it in place. Between these moments the disk may
change. `advance` is one such moment; alone on a disk, the phases lead to what `process`
yields.
-/

namespace DistDirectives.Run

/-! ## Decisions -/

/-- What is to be done to a file. -/
inductive Decision where
  | keep
  | remove
  | write (content : Bytes)
  /-- Nothing, since it cannot be read what the file is to become. -/
  | refuse (error : DiskError)
  deriving DecidableEq

namespace Decision

/-- What a decision does to a file. -/
def action : Decision → Option FileAction
  | keep => none
  | remove => some .removed
  | write _ => some .modified
  | refuse _ => none

/-- What is reported of a file when its decision was carried out. -/
def result (decision : Decision) (dist : DistFile) (warnings : Nat) : FileResult :=
  { processed := decision.action.map fun action => ⟨dist.path, action, dist.target⟩
    warnings := warnings }

/-- What comes of a file whose decision is carried out without a failure of its own. -/
def answer (decision : Decision) (dist : DistFile) (warnings : Nat) : Except DiskError FileResult :=
  match decision with
  | refuse error => .error error
  | decision => .ok (decision.result dist warnings)

theorem answer_eq_ok_iff {decision : Decision} {dist : DistFile} {warnings : Nat}
    {result : FileResult} :
    decision.answer dist warnings = .ok result ↔
      (∀ error, decision ≠ .refuse error) ∧ result = decision.result dist warnings := by
  cases decision <;> simp [answer, eq_comm]

end Decision

/-- How some content is reached from the bytes of a file. -/
def decisionFor (current : Bytes) : Option Bytes → Decision
  | none => .remove
  | some content => if content = current then .keep else .write content

/-- The decision about a file with some bytes, from its base bytes. -/
def decisionOf (path : Path) (current bytes : Bytes) : Decision :=
  decisionFor current (finalContent path bytes)

/-- What comes of the first change that a decision makes to a disk, if it makes any. -/
def attempt (setting : Setting) (disk : Disk) (dist : DistFile) : Decision → Except DiskError Unit
  | .remove => (disk.removeFile (setting.root.join dist.path.text)).map fun _ => ()
  | .write content =>
    (disk.stage setting.writer (setting.root.join dist.path.text) content).1.map fun _ => ()
  | .keep | .refuse _ => .ok ()

/-! ## Phases -/

/-- How far a file has come. -/
inductive Phase where
  | begun
  /-- The bytes of the file were read, and its source is looked for among candidates. -/
  | searching (current : Bytes) (candidates : List Path)
  /-- The source was found. -/
  | fetching (current : Bytes) (source : Path)
  /-- All is read. -/
  | decided (decision : Decision) (warnings : Nat)
  /-- The new content stands in a temporary file. -/
  | moving (temporary : Location) (file : Node) (warnings : Nat)
  | done (result : Except DiskError FileResult)

namespace Phase

/-- Whether nothing is left to do. -/
def isDone : Phase → Bool
  | done _ => true
  | _ => false

/-- The phase of a file whose base bytes are known. -/
def judged (dist : DistFile) (current bytes : Bytes) : Phase :=
  decided (decisionOf dist.path current bytes) (editOf dist.path bytes).2

end Phase

/-- The next moment of a file, on the disk as it is then. -/
def advance (setting : Setting) (dist : DistFile) (disk : Disk) : Phase → Phase × Disk
  | .begun =>
    match disk.readBytes (setting.root.join dist.path.text) with
    | .error error => (.done (.error error), disk)
    | .ok current =>
      (if setting.fresh then .searching current (Mapping.reverse dist.path setting.sourceDir)
        else .judged dist current current, disk)
  | .searching current [] => (.judged dist current current, disk)
  | .searching current (candidate :: others) =>
    (if disk.isFile (setting.root.join candidate.text) then .fetching current candidate
      else .searching current others, disk)
  | .fetching current source =>
    match disk.readBytes (setting.root.join source.text) with
    | .error error => (.done (.error error), disk)
    | .ok bytes => (.judged dist current bytes, disk)
  | .decided decision warnings =>
    if setting.dryRun then (.done (decision.answer dist warnings), disk)
    else
      match decision with
      | .refuse error => (.done (.error error), disk)
      | .keep => (.done (.ok (Decision.keep.result dist warnings)), disk)
      | .remove =>
        match disk.removeFile (setting.root.join dist.path.text) with
        | .error error => (.done (.error error), disk)
        | .ok after => (.done (.ok (Decision.remove.result dist warnings)), after)
      | .write content =>
        match disk.stage setting.writer (setting.root.join dist.path.text) content with
        | (.error error, after) => (.done (.error error), after)
        | (.ok (temporary, file), after) => (.moving temporary file warnings, after)
  | .moving temporary file warnings =>
    match disk.settle temporary file (setting.root.join dist.path.text) with
    | (.error error, after) => (.done (.error error), after)
    | (.ok (), after) => (.done (.ok ((Decision.write []).result dist warnings)), after)
  | .done result => (.done result, disk)

/-- One moment of a file that is alone on a disk. -/
def Alone (setting : Setting) (dist : DistFile) (here there : Phase × Disk) : Prop :=
  here.1.isDone = false ∧ advance setting dist here.2 here.1 = there

variable {setting : Setting} {dist : DistFile} {disk : Disk}

open Relation (ReflTransGen)

theorem alone_search (current : Bytes) (candidates : List Path) :
    ReflTransGen (Alone setting dist) (.searching current candidates, disk)
      (match candidates.find? fun source => disk.isFile (setting.root.join source.text) with
        | none => .judged dist current current
        | some source => .fetching current source, disk) := by
  induction candidates with
  | nil => exact .single ⟨rfl, rfl⟩
  | cons candidate others ih =>
      cases isFile : disk.isFile (setting.root.join candidate.text) with
      | true =>
          rw [List.find?_cons_of_pos (by exact isFile)]
          exact .single ⟨rfl, by rw [advance, if_pos isFile]⟩
      | false =>
          rw [List.find?_cons_of_neg (by simp [isFile])]
          exact .head ⟨rfl, by rw [advance, if_neg (by simp [isFile])]⟩ ih

/-- What a file comes to when its base bytes cannot be read, or once they are known. -/
def freshPhase (dist : DistFile) (current : Bytes) : Except DiskError FreshContent → Phase
  | .error error => .done (.error error)
  | .ok fresh => .judged dist current fresh.bytes

theorem alone_refresh {current : Bytes}
    (read : disk.readBytes (setting.root.join dist.path.text) = .ok current) :
    ReflTransGen (Alone setting dist) (.begun, disk)
      (freshPhase dist current
        (refresh disk setting.root setting.sourceDir setting.fresh dist.path current), disk) := by
  have begun : ReflTransGen (Alone setting dist) (.begun, disk)
      (if setting.fresh then .searching current (Mapping.reverse dist.path setting.sourceDir)
        else .judged dist current current, disk) :=
    .single ⟨rfl, by rw [advance, read]⟩
  rw [refresh]
  cases fresh : setting.fresh with
  | false =>
      rw [fresh] at begun
      exact begun
  | true =>
      simp only [fresh, if_true] at begun ⊢
      have found :=
        @alone_search setting dist disk current (Mapping.reverse dist.path setting.sourceDir)
      cases resolved : resolveSource disk setting.root setting.sourceDir dist.path with
      | none =>
          rw [resolveSource] at resolved
          rw [resolved] at found
          exact begun.trans found
      | some source =>
          rw [resolveSource] at resolved
          rw [resolved] at found
          apply (begun.trans found).tail
          refine ⟨rfl, ?_⟩
          simp only [advance]
          cases disk.readBytes (setting.root.join source.text) <;> rfl

/-- The end of a file whose edit was carried out in one piece. -/
def conclude (dist : DistFile) (warnings : Nat) :
    Except DiskError (Option FileAction) × Disk → Phase × Disk
  | (.error error, after) => (.done (.error error), after)
  | (.ok action, after) =>
    (.done (.ok { processed := action.map fun action => ⟨dist.path, action, dist.target⟩
                  warnings := warnings }), after)

theorem alone_commit (content current : Bytes) (warnings : Nat) :
    ReflTransGen (Alone setting dist) (.decided (decisionFor current (some content)) warnings, disk)
      (conclude dist warnings
        (commit setting disk (setting.root.join dist.path.text) content current)) := by
  rw [commit, decisionFor]
  by_cases same : content = current
  · rw [if_pos same, if_pos same]
    refine .single ⟨rfl, ?_⟩
    simp only [advance]
    split <;> rfl
  rw [if_neg same, if_neg same]
  cases dry : setting.dryRun with
  | true => exact .single ⟨rfl, by simp only [advance, dry]; rfl⟩
  | false =>
      simp only [Bool.false_eq_true, if_false, Disk.replaceFile_eq]
      have decided : advance setting dist disk (.decided (.write content) warnings) =
          match disk.stage setting.writer (setting.root.join dist.path.text) content with
          | (.error error, after) => (.done (.error error), after)
          | (.ok (temporary, file), after) => (.moving temporary file warnings, after) := by
        simp only [advance, dry, Bool.false_eq_true, if_false]
      cases staged : disk.stage setting.writer (setting.root.join dist.path.text) content with
      | mk result after =>
          rw [staged] at decided
          cases result with
          | error error => exact .single ⟨rfl, decided⟩
          | ok temporary =>
              refine .tail (.single ⟨rfl, decided⟩) ⟨rfl, ?_⟩
              simp only [advance]
              cases after.settle temporary.1 temporary.2 (setting.root.join dist.path.text) with
              | mk moved last => cases moved <;> rfl

theorem alone_carryOut (bytes current : Bytes) (edit : Edit) (warnings : Nat) :
    ReflTransGen (Alone setting dist)
      (.decided (decisionFor current (contentAfter bytes edit)) warnings, disk)
      (conclude dist warnings
        (carryOut setting disk (setting.root.join dist.path.text) bytes current edit)) := by
  cases edit with
  | unchanged => exact alone_commit bytes current warnings
  | revised text => exact alone_commit (Utf8.encode text) current warnings
  | remove =>
      refine .single ⟨rfl, ?_⟩
      simp only [contentAfter, decisionFor, advance, carryOut]
      cases setting.dryRun with
      | true => rfl
      | false =>
          simp only [Bool.false_eq_true, if_false]
          cases disk.removeFile (setting.root.join dist.path.text) <;> rfl

/-- Alone on a disk, the phases of a file lead to what processing it yields. -/
theorem alone_process (setting : Setting) (dist : DistFile) (disk : Disk) :
    ReflTransGen (Alone setting dist) (.begun, disk)
      (.done (process setting disk dist).1, (process setting disk dist).2) := by
  rw [process]
  cases read : disk.readBytes (setting.root.join dist.path.text) with
  | error error => exact .single ⟨rfl, by rw [advance, read]⟩
  | ok current =>
      have refreshed := @alone_refresh setting dist disk current read
      simp only
      cases fresh : refresh disk setting.root setting.sourceDir setting.fresh dist.path current with
      | error error =>
          rw [fresh] at refreshed
          exact refreshed
      | ok found =>
          rw [fresh] at refreshed
          have carried := @alone_carryOut setting dist disk found.bytes current
            (editOf dist.path found.bytes).1 (editOf dist.path found.bytes).2
          rw [contentAfter_editOf] at carried
          have ends := refreshed.trans carried
          simp only
          generalize carryOut setting disk (setting.root.join dist.path.text) found.bytes current
            (editOf dist.path found.bytes).1 = carriedOut at ends ⊢
          rcases carriedOut with ⟨result, after⟩
          cases result <;> exact ends

end DistDirectives.Run
