import DistDirectives.Proofs.Run.Execution
import DistDirectives.Proofs.Run.Processing

/-!
# What processing touches

Processing a file rewrites or removes what stands at its own location, and touches nothing
else. Files with different paths have different locations, so each of them finds what it
found before the others.
-/

namespace DistDirectives.Run

open Disk (IsProject Rewrites)

variable {setting : Setting} {disk after : Disk} {base location : Location} {dist : DistFile}
  {files : List DistFile}

/-! ## One file -/

/-- What is asked of a location: a file with some content that may be read, or nothing. -/
def HoldsContent (disk : Disk) (location : Location) : Option Bytes → Prop
  | none => disk.get? location = none
  | some content => ∃ mode, disk.get? location = some (.file content mode) ∧
      disk.permits mode = true

theorem holdsContent_congr {other : Disk} {place : Location} {content : Option Bytes}
    (held : HoldsContent disk location content) (rights : other.privileged = disk.privileged)
    (same : other.get? place = disk.get? location) : HoldsContent other place content := by
  cases content with
  | none => exact same.trans held
  | some content =>
      obtain ⟨mode, file, permitted⟩ := held
      exact ⟨mode, same.trans file, by rw [Disk.permits_congr rights, permitted]⟩

namespace Settled

variable {current : Bytes} {final : Option Bytes} {action : Option FileAction}

theorem rights (settled : Settled disk location current final action after) :
    after.privileged = disk.privileged := by
  cases settled with
  | removed rights erased => exact rights
  | kept => rfl
  | rewritten differs rights permitted stored => exact rights

theorem holdsContent (settled : Settled disk location current final action after)
    (held : HoldsContent disk location (some current)) : HoldsContent after location final := by
  cases settled with
  | removed rights erased => rw [HoldsContent, erased, if_pos rfl]
  | kept => exact held
  | rewritten differs rights permitted stored =>
      exact ⟨_, by rw [stored, if_pos rfl], by rw [Disk.permits_congr rights, permitted]⟩

theorem get?_other (settled : Settled disk location current final action after) {other : Location}
    (apart : other ≠ location) : after.get? other = disk.get? other := by
  cases settled with
  | removed rights erased => rw [erased, if_neg apart]
  | kept => rfl
  | rewritten differs rights permitted stored => rw [stored, if_neg apart]

theorem rewrites (settled : Settled disk location current final action after)
    (held : HoldsContent disk location (some current)) : Rewrites disk after := by
  refine ⟨settled.rights, fun other => ?_⟩
  by_cases here : other = location
  · subst here
    have ends := settled.holdsContent held
    obtain ⟨mode, held, permitted⟩ := held
    refine .inr ⟨⟨current, mode, held, permitted⟩, ?_⟩
    cases final with
    | none => exact .inl ends
    | some content => exact .inr ⟨content, ends⟩
  · exact .inl (settled.get?_other here)

end Settled

theorem held_of_readBytes (project : IsProject disk setting.root base)
    (isDist : IsDistPath dist.path)
    {content : Bytes} (read : disk.readBytes (setting.root.join dist.path.text) = .ok content) :
    HoldsContent disk (base ++ dist.path.segments) (some content) :=
  ((project.readBytes_eq_ok_iff (isDist.spells setting.root)).1 read).2

/-- Processing a file touches its own location at most. -/
theorem process_frame (project : IsProject disk setting.root base) (isDist : IsDistPath dist.path)
    (wet : setting.dryRun = false) :
    Rewrites disk (process setting disk dist).2 ∧
      ∀ other, other ≠ base ++ dist.path.segments →
        (process setting disk dist).2.get? other = disk.get? other := by
  rcases process_cases project isDist wet with ⟨error, failed⟩ |
    ⟨current, bytes, action, warnings, after, read, _, done, settled⟩
  · rw [failed]
    exact ⟨Rewrites.refl disk, fun _ _ => rfl⟩
  · rw [done]
    exact ⟨settled.rewrites (held_of_readBytes project isDist read),
      fun _ apart => settled.get?_other apart⟩

/-! ## Files one after the other -/

/-- Files with different paths that are all distribution files. -/
structure AreApart (files : List DistFile) : Prop where
  areDist : ∀ dist ∈ files, IsDistPath dist.path
  distinct : files.Pairwise fun left right => left.path ≠ right.path

theorem AreApart.tail (apart : AreApart (dist :: files)) : AreApart files :=
  ⟨fun other mem => apart.areDist other (by simp [mem]), (List.pairwise_cons.1 apart.distinct).2⟩

/-- Distribution files with different paths have different locations. -/
theorem location_ne_of_path_ne {left right : Path} (leftDist : IsDistPath left)
    (rightDist : IsDistPath right) (differ : left ≠ right) :
    base ++ left.segments ≠ base ++ right.segments := by
  intro same
  rw [List.append_cancel_left_eq] at same
  exact differ (Path.ext_segments (by rw [leftDist.relative, rightDist.relative]) same)

/-- Processing files touches their own locations at most. -/
theorem afterEach_frame (project : IsProject disk setting.root base)
    (areDist : ∀ dist ∈ files, IsDistPath dist.path) (wet : setting.dryRun = false) :
    Rewrites disk (afterEach setting disk files) ∧
      ∀ other, (∀ dist ∈ files, other ≠ base ++ dist.path.segments) →
        (afterEach setting disk files).get? other = disk.get? other := by
  induction files generalizing disk with
  | nil => exact ⟨Rewrites.refl disk, fun _ _ => rfl⟩
  | cons dist files ih =>
      obtain ⟨first, firstOther⟩ := process_frame project (areDist dist (by simp)) wet
      obtain ⟨later, laterOther⟩ := ih (first.isProject project)
        fun other mem => areDist other (by simp [mem])
      refine ⟨first.trans later, fun other apart => ?_⟩
      rw [afterEach, laterOther other fun file mem => apart file (by simp [mem]),
        firstOther other (apart dist (by simp))]

end DistDirectives.Run
