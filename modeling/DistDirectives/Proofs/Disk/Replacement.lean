import DistDirectives.Proofs.Disk.Site

/-!
# Rewriting a file of a project

A file below a directory of a project is removed without touching anything else. It is
replaced through a temporary file, of which nothing is left: either the content changes
and nothing else, or the replacement is refused and the disk is the one from before.
-/

namespace DistDirectives.Disk

/-- The name of a temporary file leads down. -/
theorem temporaryName_descends (writer : Text) (names : List Text) :
    temporaryName writer names ≠ ['.'] ∧ temporaryName writer names ≠ ['.', '.'] := by
  constructor
  · simp [temporaryName]
  · intro same
    have long := congrArg List.length same
    simp only [temporaryName, List.length_cons, List.length_append] at long
    have ending : ".tmp".toList.length = 4 := by decide
    simp only [ending, List.length_nil] at long
    omega

/-- A file that stands below a directory of a project and may be read, and its path. -/
structure HoldsFile (disk : Disk) (root : Path) (base : Location) (path : Path) (front : List Text)
    (last : Text) (content : Bytes) : Prop where
  project : IsProject disk root base
  spells : Spells root path (front ++ [last])
  nested : front ≠ []
  fits : Fits disk base root.segments (front ++ [last])
  held : ∃ mode, disk.get? (base ++ (front ++ [last])) = some (.file content mode) ∧
    disk.permits mode = true

namespace HoldsFile

variable {disk : Disk} {root path : Path} {base : Location} {front : List Text} {last : Text}
  {current : Bytes}

/-- The file stands in every project with the same directories that holds the same at its
location. -/
theorem congr {other : Disk} (file : HoldsFile disk root base path front last current)
    (otherProject : IsProject other root base) (alike : SameDirectories disk other)
    (own : other.get? (base ++ (front ++ [last])) = disk.get? (base ++ (front ++ [last]))) :
    HoldsFile other root base path front last current := by
  obtain ⟨mode, held, permitted⟩ := file.held
  exact ⟨otherProject, file.spells, file.nested, alike.fits file.fits, mode, own.trans held,
    by rw [permits_congr alike.rights, permitted]⟩

/-- The directory of the file. -/
theorem directory (file : HoldsFile disk root base path front last current) :
    ∃ mode, disk.get? (base ++ front) = some (.directory mode) := by
  rcases file.held with ⟨mode, held, _⟩
  exact file.project.tree.outer _ _ _ (by rwa [List.append_assoc])

theorem walk_eq (file : HoldsFile disk root base path front last current) :
    ∃ mode, disk.walk false path.segments =
      .ok (.node (base ++ (front ++ [last])) (.file current mode)) := by
  rcases file.held with ⟨mode, held, _⟩
  rw [← List.append_assoc] at held ⊢
  refine ⟨mode, ?_⟩
  rw [file.spells.segments, file.project.walk_below_eq_ok_iff file.spells.descends]
  exact ⟨file.fits, file.project.tree.outer _ _ _ held, (standing_of_some held).symm⟩

/-- Removing the file empties its location, or its directory does not allow that. -/
theorem removeFile_eq (file : HoldsFile disk root base path front last current) :
    disk.removeFile path =
      if disk.allows Node.ownerWrites (base ++ front) then
        .ok (disk.erase (base ++ (front ++ [last])))
      else .error (.at path.text .accessDenied) := by
  rcases file.walk_eq with ⟨mode, walked⟩
  have outer : (base ++ (front ++ [last])).dropLast = base ++ front := by
    rw [← List.append_assoc, List.dropLast_concat]
  simp only [removeFile, walked, outer]
  cases disk.allows Node.ownerWrites (base ++ front) <;> rfl

/-- What may be read need not be what may be removed. -/
example :
    let disk := Disk.empty
      |>.store ["d".toList] (.directory 0o555)
      |>.store ["d".toList, "a".toList] (.file [] 0o644)
      |>.restricted
    disk.readBytes (Path.ofText "/d/a".toList) = .ok [] ∧
      (disk.removeFile (Path.ofText "/d/a".toList)).isOk = false := by
  decide +kernel

/-- A walk to the directory of the file ends there. -/
theorem walk_directory (file : HoldsFile disk root base path front last current) :
    ∃ mode, ∀ followLast, disk.walk followLast (root.segments ++ front) =
      .ok (.node (base ++ front) (.directory mode)) := by
  obtain ⟨outer, name, split⟩ := (List.eq_nil_or_concat front).resolve_left file.nested
  rw [List.concat_eq_append] at split
  rcases file.directory with ⟨mode, directory⟩
  have descends : Descends front := fun other mem => file.spells.descends other (by simp [mem])
  subst split
  rw [← List.append_assoc] at directory
  refine ⟨mode, fun followLast => ?_⟩
  rw [file.project.walk_below_eq_ok_iff descends, ← List.append_assoc base]
  exact ⟨file.fits.front, file.project.tree.outer _ _ _ directory,
    (standing_of_some directory).symm⟩

/-- The path of the file leads to its directory. -/
theorem isSite (file : HoldsFile disk root base path front last current) :
    IsSite disk path (base ++ front) last := by
  have nearby : path.segments.dropLast = root.segments ++ front := by
    rw [file.spells.segments, ← List.append_assoc, List.dropLast_concat]
  rcases file.walk_directory with ⟨mode, reached⟩
  constructor
  · rw [nearby, file.spells.segments, List.append_assoc]
  · exact fun name mem => file.spells.descends name (List.mem_append_right front mem)
  · exact ⟨mode, by rw [nearby, reached]⟩

/-- The file is still there while new content stands in a temporary file beside it. -/
theorem store_temporary (file : HoldsFile disk root base path front last current) {temporary : Text}
    (free : disk.get? (base ++ front ++ [temporary]) = none) (content : Bytes) (mode : Nat) :
    HoldsFile (disk.store (base ++ front ++ [temporary]) (.file content mode)) root base
      path front last
      current := by
  have written (other : Location) :
      (disk.store (base ++ front ++ [temporary]) (.file content mode)).get? other =
        if other = base ++ front ++ [temporary] then some (.file content mode)
        else disk.get? other := disk.get?_store (by simp) _ other
  have kept (other : Location) (node : Node) (held : disk.get? other = some node) :
      (disk.store (base ++ front ++ [temporary]) (.file content mode)).get? other = some node := by
    rw [written, if_neg, held]
    rintro rfl
    rw [free] at held
    contradiction
  have tree : IsTree (disk.store (base ++ front ++ [temporary]) (.file content mode)) base := by
    constructor
    · rcases file.project.tree.top with ⟨topMode, top⟩
      exact ⟨topMode, kept _ _ top⟩
    · intro place target link
      rw [written] at link
      split at link
      · cases link
      · exact file.project.tree.noLink place target link
    · intro place name node found
      rw [written] at found
      split at found
      · rename_i same
        simp only [List.append_assoc, List.append_cancel_left_eq] at same
        rcases file.directory with ⟨outerMode, outer⟩
        rw [(List.append_inj' same rfl).1]
        exact ⟨outerMode, kept _ _ outer⟩
      · obtain ⟨outerMode, outer⟩ := file.project.tree.outer place name node found
        exact ⟨outerMode, kept _ _ outer⟩
  rcases file.held with ⟨fileMode, held, permitted⟩
  have alike : SameDirectories disk
      (disk.store (base ++ front ++ [temporary]) (.file content mode)) :=
    .store (by simp) (by rw [free]; simp) content mode
  exact ⟨file.project.mono tree rfl fun other node found _ => kept other node found, file.spells,
    file.nested, alike.fits file.fits, fileMode, kept _ _ held, by rw [permits_store, permitted]⟩

/-- The permission bits of new content are those of the file, as far as they are not
masked. -/
theorem replacementMode_eq (file : HoldsFile disk root base path front last current)
    {mode : Nat} (held : disk.get? (base ++ (front ++ [last])) = some (.file current mode)) :
    disk.replacementMode path = Node.masked mode := by
  have standing := (file.project.lookup_eq_ok_iff file.spells).2 ⟨file.fits, held⟩
  rw [replacementMode, modeOf, standing]

/-- New content may be read as the file may. -/
theorem permits_replacementMode (file : HoldsFile disk root base path front last current) :
    disk.permits (disk.replacementMode path) = true := by
  rcases file.held with ⟨mode, held, permitted⟩
  rw [file.replacementMode_eq held, permits_masked, permitted]

/-- A replacement changes the content of the file and nothing else, or it is refused and
changes nothing. -/
theorem replaceFile_cases (file : HoldsFile disk root base path front last current) (writer : Text)
    (content : Bytes) :
    (∃ error, disk.replaceFile writer path content = (.error error, disk)) ∨
      ∃ after mode, disk.replaceFile writer path content = (.ok (), after) ∧
        after.privileged = disk.privileged ∧ disk.permits mode = true ∧ ∀ other, after.get? other =
          if other = base ++ (front ++ [last]) then some (.file content mode)
            else disk.get? other := by
  have nearby : path.segments.dropLast = root.segments ++ front := by
    rw [file.spells.segments, ← List.append_assoc, List.dropLast_concat]
  have lastPlain := file.spells.descends last (by simp)
  have notUp : path.segments.getLast? ≠ some ['.', '.'] := by
    simpa [file.spells.segments] using lastPlain.2
  have descends : Descends (front ++ [temporaryName writer path.segments]) := by
    intro name mem
    rcases List.mem_append.1 mem with inFront | isLast
    · exact file.spells.descends name (by simp [inFront])
    · exact List.mem_singleton.1 isLast ▸ temporaryName_descends writer path.segments
  rw [replaceFile, file.isSite.ensureDirectories_eq]
  simp only [nearby, List.append_assoc]
  have permitted := file.permits_replacementMode
  generalize disk.replacementMode path = mode at permitted ⊢
  generalize temporaryName writer path.segments = temporary at descends
  cases walked : disk.walk false (root.segments ++ (front ++ [temporary])) with
  | error fault => exact .inl ⟨_, rfl⟩
  | ok found =>
      rcases (file.project.walk_below_eq_ok_iff descends false).1 walked with ⟨_, _, rfl⟩
      cases free : disk.get? (base ++ front ++ [temporary]) with
      | some node =>
          rw [standing_of_some free]
          exact .inl ⟨_, rfl⟩
      | none =>
          rw [standing_of_none free]
          cases writes : disk.allows Node.ownerWrites (base ++ front) with
          | false =>
              simp only [writes, Bool.not_false, if_true]
              exact .inl ⟨_, rfl⟩
          | true =>
              obtain ⟨fileMode, moved⟩ := (file.store_temporary free content mode).walk_eq
              simp only [writes, Bool.not_true, Bool.false_eq_true, moveInto, notUp, if_false,
                moved]
              refine .inr ⟨_, mode, rfl, rfl, permitted, fun other => ?_⟩
              rw [get?_store _ (by simp), get?_erase _ (by simp), get?_store _ (by simp)]
              by_cases isTemporary : other = base ++ front ++ [temporary]
              · simp only [isTemporary, if_true, free]
              · simp only [isTemporary, if_false]

end HoldsFile

end DistDirectives.Disk
