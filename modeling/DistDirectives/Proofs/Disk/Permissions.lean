import DistDirectives.Proofs.Disk.Atomicity

/-!
# Permissions of replaced files

The temporary file of a replacement is made with the permission bits of the file that it will
replace. But no file is made with the bits that are masked, and nothing sets them later. So the
bits by which the group and others may write are lost, and all others are kept.
-/

namespace DistDirectives

/-! ## Masked bits -/

namespace Node

/-- All permission bits. -/
def allBits : Nat := 0o7777

/-- The permission bits by which the group and others may write. -/
def sharedWriting : Nat := 0o22

theorem masked_le_allBits (mode : Nat) : masked mode ≤ allBits :=
  Nat.le_trans Nat.and_le_right (by decide)

/-- Masking takes the shared bits away. -/
theorem masked_and_sharedWriting (mode : Nat) : masked mode &&& sharedWriting = 0 := by
  rw [masked, Nat.and_assoc]
  exact Nat.and_zero mode

/-- Permission bits are those that masking leaves and the shared ones. -/
theorem masked_or_sharedWriting {mode : Nat} (bits : mode ≤ allBits) :
    masked mode ||| (mode &&& sharedWriting) = mode := by
  rw [masked, ← Nat.and_or_distrib_left]
  calc mode &&& (0o7755 ||| sharedWriting)
    _ = mode &&& (2 ^ 12 - 1) := rfl
    _ = mode % 2 ^ 12 := Nat.and_two_pow_sub_one_eq_mod mode 12
    _ = mode := Nat.mod_eq_of_lt (Nat.lt_succ_of_le bits)

/-- Masking changes nothing exactly where no bit is shared. -/
theorem masked_eq_self_iff {mode : Nat} :
    masked mode = mode ↔ mode ≤ allBits ∧ mode &&& sharedWriting = 0 := by
  constructor
  · intro same
    rw [← same]
    exact ⟨masked_le_allBits mode, masked_and_sharedWriting mode⟩
  · rintro ⟨bits, unshared⟩
    have parts := masked_or_sharedWriting bits
    rwa [unshared, Nat.or_zero] at parts

end Node

namespace Disk

variable {disk after : Disk} {path : Path} {place : Location} {last writer : Text}
  {old content : Bytes}
  {mode : Nat}

/-! ## What a path leads to -/

theorem lookup_of_walk {node : Node} {location : Location}
    (walked : disk.walk true path.segments = .ok (.node location node)) :
    disk.lookup path = .ok node := by
  rw [lookup, walked]

theorem isFile_of_lookup (stood : disk.lookup path = .ok (.file content mode)) :
    disk.isFile path = true := by
  rw [isFile, stood]

theorem modeOf_of_lookup (stood : disk.lookup path = .ok (.file content mode)) :
    disk.modeOf path = .ok mode := by
  rw [modeOf, stood]

theorem replacementMode_of_lookup (stood : disk.lookup path = .ok (.file content mode)) :
    disk.replacementMode path = Node.masked mode := by
  rw [replacementMode, modeOf_of_lookup stood]

/-- When a file takes the place of a file, or of a link to one, the path leads to it. A link in
that place is not on the way of the path. -/
theorem IsSite.lookup_of_replaced (site : IsSite disk path place last)
    (accepted : disk.refusal? place path.segments.dropLast last = none)
    (stands : StandsForFile disk (place ++ [last]))
    (rights : after.privileged = disk.privileged)
    (replaced : ∀ other, after.get? other =
      if other = place ++ [last] then some (.file content mode) else disk.get? other) :
    after.lookup path = .ok (.file content mode) := by
  have siteThen : IsSite after path place last := by
    refine site.mono rights fun other node held noFile => ?_
    rw [replaced, if_neg, held]
    rintro rfl
    exact noFile stands
  have own : after.get? (place ++ [last]) = some (.file content mode) :=
    (replaced _).trans (if_pos rfl)
  have alike : SameDirectories disk after :=
    .of_replaced rights (fun _ directory => not_standsForFile_of_directory directory stands)
      replaced
  obtain ⟨inner, reached⟩ := siteThen.reached
  have walked := walk_concat_eq_node reached siteThen.descends
    ((alike.refusal? _ _ _).trans accepted) own (by simp [kindOf]) true
  rw [siteThen.split] at walked
  exact lookup_of_walk walked

/-! ## Replacing a file -/

/-- A file that takes the place of another one is given its permission bits without those that are
masked. So the permissions at the path stay exactly where the group and others may not write.
This holds on any disk, for any path that leads to a file, also by links and upwards. Nothing
else changes. -/
theorem replaceFile_masks_mode (stood : disk.lookup path = .ok (.file old mode))
    (replaced : disk.replaceFile writer path content = (.ok (), after)) :
    after.lookup path = .ok (.file content (Node.masked mode)) ∧
      (after.modeOf path = disk.modeOf path ↔
        mode ≤ Node.allBits ∧ mode &&& Node.sharedWriting = 0) ∧
        ∃ location, after.get? location = some (.file content (Node.masked mode)) ∧
          ∀ other, other ≠ location → after.get? other = disk.get? other := by
  obtain ⟨place, last, site, stands, -⟩ := exists_isSite_of_isFile (isFile_of_lookup stood)
  rcases site.replaceFile_cases writer content with
    ⟨error, _, refused, -⟩ | ⟨_, done, rights, accepted, -, stored⟩
  · rw [refused] at replaced
    cases replaced
  rw [done] at replaced
  cases replaced
  rw [replacementMode_of_lookup stood] at stored
  have found := site.lookup_of_replaced accepted stands rights stored
  refine ⟨found, ?_, place ++ [last], (stored _).trans (if_pos rfl), fun other apart => ?_⟩
  · rw [modeOf_of_lookup found, modeOf_of_lookup stood, Except.ok.injEq, Node.masked_eq_self_iff]
  · exact (stored other).trans (if_neg apart)

/-- A file that everyone may write, a link to it, and a program that only its owner may write. -/
def sharedDisk : Disk :=
  Disk.empty
    |>.store ["a".toList] (.file [97] 0o666)
    |>.store ["b".toList] (.link "a".toList)
    |>.store ["c".toList] (.file [99] 0o4711)

/-- The place of the link is taken with fewer permissions than those of the file behind it. The
program keeps its permissions. -/
theorem replaceFile_masks_mode_shared :
    (sharedDisk.replaceFile "1".toList (Path.ofText "b".toList) [120]).2.lookup
      (Path.ofText "b".toList) =
        .ok (.file [120] 0o644) ∧
      (sharedDisk.replaceFile "1".toList (Path.ofText "c".toList) [120]).2.modeOf
        (Path.ofText "c".toList) =
        sharedDisk.modeOf (Path.ofText "c".toList) := by
  have linked : sharedDisk.lookup (Path.ofText "b".toList) = .ok (.file [97] 0o666) := by
    decide +kernel
  have program : sharedDisk.lookup (Path.ofText "c".toList) = .ok (.file [99] 0o4711) := by
    decide +kernel
  have replaced (name : Text)
      (succeeds : (sharedDisk.replaceFile "1".toList (Path.ofText name) [120]).1 = .ok ()) :
      sharedDisk.replaceFile "1".toList (Path.ofText name) [120] =
        (.ok (), (sharedDisk.replaceFile "1".toList (Path.ofText name) [120]).2) :=
    Prod.ext succeeds rfl
  exact ⟨(replaceFile_masks_mode linked (replaced _ (by decide +kernel))).1,
    (replaceFile_masks_mode program (replaced _ (by decide +kernel))).2.1.2 (by decide)⟩

/-- A file that everyone may write does not keep its permissions. -/
theorem replaceFile_loses_mode :
    ¬∀ (disk : Disk) (writer : Text) (path : Path) (content : Bytes) (after : Disk),
      disk.isFile path = true → disk.replaceFile writer path content = (.ok (), after) →
        after.modeOf path = disk.modeOf path := by
  intro kept
  have same := kept sharedDisk "1".toList (Path.ofText "a".toList) [120]
    (sharedDisk.replaceFile "1".toList (Path.ofText "a".toList) [120]).2 (by decide +kernel)
    (Prod.ext (by decide +kernel) rfl)
  exact absurd same (by decide +kernel)

end Disk

end DistDirectives
