import DistDirectives.Proofs.Disk.Replacement
import DistDirectives.Proofs.Run.Freshness

/-!
# What processing a file does

Processing a distribution file of a project either fails and leaves the disk as it is, or
brings the file into the state that its base bytes call for, and touches nothing else.
-/

namespace DistDirectives.Run

open Disk (IsProject HoldsFile)

/-! ## The state that base bytes call for -/

/-- What is left of a file after an edit of some bytes. -/
def contentAfter (bytes : Bytes) : Edit → Option Bytes
  | .remove => none
  | .revised text => some (Utf8.encode text)
  | .unchanged => some bytes

/-- The content of the file at a path when it is computed from base bytes: nothing if the
file is to be removed, and the base bytes themselves if these are no text. -/
def finalContent (path : Path) (bytes : Bytes) : Option Bytes :=
  match Utf8.decode? bytes with
  | none => some bytes
  | some content =>
    if Binary.looksBinary bytes then some bytes
    else contentAfter bytes (Edit.apply path.text content).edit

theorem contentAfter_editOf (path : Path) (bytes : Bytes) :
    contentAfter bytes (editOf path bytes).1 = finalContent path bytes := by
  rw [editOf, finalContent]
  cases Utf8.decode? bytes with
  | none => rfl
  | some content =>
      simp only
      split <;> rfl

/-! ## One file -/

/-- The file at a location is in a state that is asked for, after an action or none. -/
inductive Settled (disk : Disk) (location : Location) (current : Bytes) :
    Option Bytes → Option FileAction → Disk → Prop
  | removed {after : Disk} (rights : after.privileged = disk.privileged)
      (erased : ∀ other, after.get? other = if other = location then none else disk.get? other) :
      Settled disk location current none (some .removed) after
  | kept : Settled disk location current (some current) none disk
  | rewritten {content : Bytes} {mode : Nat} {after : Disk} (differs : content ≠ current)
      (rights : after.privileged = disk.privileged) (permitted : disk.permits mode = true)
      (stored : ∀ other, after.get? other =
        if other = location then some (.file content mode) else disk.get? other) :
      Settled disk location current (some content) (some .modified) after

section

variable {setting : Setting} {disk : Disk} {root full : Path} {base : Location} {front : List Text}
  {last : Text} {current : Bytes}

theorem commit_cases (wet : setting.dryRun = false)
    (file : HoldsFile disk root base full front last current) (content : Bytes) :
    (∃ error, commit setting disk full content current = (.error error, disk)) ∨
      ∃ action after, commit setting disk full content current = (.ok action, after) ∧
        Settled disk (base ++ (front ++ [last])) current (some content) action after := by
  rw [commit]
  by_cases same : content = current
  · subst same
    rw [if_pos rfl]
    exact .inr ⟨none, disk, rfl, .kept⟩
  · rw [if_neg same, if_neg (by simp [wet])]
    rcases file.replaceFile_cases setting.writer content with
      ⟨error, refused⟩ | ⟨after, mode, done, rights, permitted, stored⟩
    · rw [refused]
      exact .inl ⟨error, rfl⟩
    · rw [done]
      exact .inr ⟨some .modified, after, rfl, .rewritten same rights permitted stored⟩

theorem carryOut_cases (wet : setting.dryRun = false)
    (file : HoldsFile disk root base full front last current) (bytes : Bytes) (edit : Edit) :
    (∃ error, carryOut setting disk full bytes current edit = (.error error, disk)) ∨
      ∃ action after, carryOut setting disk full bytes current edit = (.ok action, after) ∧
        Settled disk (base ++ (front ++ [last])) current
          (contentAfter bytes edit) action after := by
  cases edit with
  | unchanged => exact commit_cases wet file bytes
  | revised text => exact commit_cases wet file (Utf8.encode text)
  | remove =>
      rw [carryOut, if_neg (by simp [wet]), file.removeFile_eq]
      cases disk.allows Node.ownerWrites (base ++ front) with
      | false => exact .inl ⟨_, rfl⟩
      | true =>
          refine .inr ⟨some .removed, _, rfl, .removed rfl fun other => ?_⟩
          exact Disk.get?_erase disk (by simp) other

end

theorem IsDistPath.exists_front {path : Path} (isDist : IsDistPath path) :
    ∃ front last, front ≠ [] ∧ path.segments = front ++ [last] := by
  rcases isDist.top with ⟨directory, _, rest, nonempty, segments⟩
  obtain ⟨inner, last, split⟩ := (List.eq_nil_or_concat rest).resolve_left nonempty
  rw [List.concat_eq_append] at split
  exact ⟨directory :: inner, last, by simp, by rw [segments, split, List.cons_append]⟩

theorem IsDistPath.holdsFile {disk : Disk} {root path : Path} {base : Location} {content : Bytes}
    (isDist : IsDistPath path) (project : IsProject disk root base)
    (read : disk.readBytes (root.join path.text) = .ok content) :
    ∃ front last, path.segments = front ++ [last] ∧
      HoldsFile disk root base (root.join path.text) front last content := by
  rcases isDist.exists_front with ⟨front, last, nested, segments⟩
  have spells := isDist.spells root
  rw [project.readBytes_eq_ok_iff spells] at read
  rw [segments] at spells read
  exact ⟨front, last, segments, project, spells, nested, read.1, read.2⟩

/-- Processing fails and changes nothing, or it settles the file and nothing else. -/
theorem process_cases {setting : Setting} {disk : Disk} {base : Location} {dist : DistFile}
    (project : IsProject disk setting.root base) (isDist : IsDistPath dist.path)
    (wet : setting.dryRun = false) :
    (∃ error, process setting disk dist = (.error error, disk)) ∨
      ∃ current bytes action warnings after,
        disk.readBytes (setting.root.join dist.path.text) = .ok current ∧
        baseBytes setting disk dist.path = .ok bytes ∧
        process setting disk dist =
          (.ok ⟨action.map fun action => ⟨dist.path, action, dist.target⟩, warnings⟩, after) ∧
        Settled disk (base ++ dist.path.segments) current
          (finalContent dist.path bytes) action after := by
  rw [process]
  cases read : disk.readBytes (setting.root.join dist.path.text) with
  | error error => exact .inl ⟨error, rfl⟩
  | ok current =>
      have basis := refresh_bytes read
      simp only
      cases refreshed :
        refresh disk setting.root setting.sourceDir setting.fresh dist.path current with
      | error error => exact .inl ⟨error, rfl⟩
      | ok fresh =>
          rw [refreshed] at basis
          obtain ⟨front, last, segments, file⟩ := isDist.holdsFile project read
          have carried := carryOut_cases wet file fresh.bytes (editOf dist.path fresh.bytes).1
          rw [contentAfter_editOf, ← segments] at carried
          rcases carried with ⟨error, refused⟩ | ⟨action, after, done, settled⟩
          · simp only [refused]
            exact .inl ⟨error, rfl⟩
          · simp only [done]
            exact .inr ⟨current, fresh.bytes, action, _, after, rfl, basis.symm, rfl, settled⟩

end DistDirectives.Run
