import DistDirectives.Proofs.Disk.Replacement

/-!
# The two moments of a replacement

A replacement first puts the new content into a temporary file beside its place, and then
moves it there. Between the two moments others may look at the disk, and may change it, so
each of them is a step of its own: `Disk.stage` and `Disk.settle`, of which
`Disk.replaceFile` consists. Staging looks at the directory, at the temporary place and at the
file that is to be replaced, and at nothing else; settling cannot fail in a project.
-/

namespace DistDirectives.Disk

/-- The first moment of a replacement: the content is written to a temporary file. -/
def stage (disk : Disk) (writer : Text) (path : Path) (content : Bytes) :
    Except DiskError (Location × Node) × Disk :=
  let names := path.segments
  let parent := spelledParent path
  match disk.ensureDirectories names.dropLast.reverse with
  | (.error fault, after) => (.error (.at parent fault), after)
  | (.ok (), after) =>
    let name := temporaryName writer names
    let file := Node.file content (after.replacementMode path)
    match after.walk false (names.dropLast ++ [name]) with
    | .error fault => (.error (.temporary (spelledBelow parent name) fault), after)
    | .ok (.node _ _) => (.error (.temporary (spelledBelow parent name) .alreadyExists), after)
    | .ok (.vacant directory free) =>
      if !after.allows Node.ownerWrites directory then
        (.error (.temporary (spelledBelow parent name) .accessDenied), after)
      else (.ok (directory ++ [free], file), after.store (directory ++ [free]) file)

/-- The second moment of a replacement: the temporary file takes the place, or goes away. -/
def settle (disk : Disk) (temporary : Location) (file : Node) (path : Path) :
    Except DiskError Unit × Disk :=
  match disk.moveInto temporary file path.segments with
  | .ok done => (.ok (), done)
  | .error fault => (.error (.at path.text fault), disk.erase temporary)

theorem replaceFile_eq (disk : Disk) (writer : Text) (path : Path) (content : Bytes) :
    disk.replaceFile writer path content =
      match disk.stage writer path content with
      | (.error error, after) => (.error error, after)
      | (.ok (temporary, file), after) => after.settle temporary file path := by
  rw [replaceFile, stage]
  cases ensured : disk.ensureDirectories path.segments.dropLast.reverse with
  | mk result after =>
      cases result with
      | error fault => rfl
      | ok =>
          simp only
          cases after.walk false
            (path.segments.dropLast ++ [temporaryName writer path.segments]) with
          | error fault => rfl
          | ok found =>
              cases found with
              | node location node => rfl
              | vacant directory free =>
                  simp only
                  cases after.allows Node.ownerWrites directory <;> rfl

/-! ## Temporary places -/

/-- The names of the temporary file for a file, behind the root. -/
def temporaryPlace (writer : Text) (names : List Text) : List Text :=
  names.dropLast ++ [temporaryName writer names]

theorem temporaryName_append (writer : Text) (lead : List Text) {names : List Text}
    (nonempty : names ≠ []) :
    temporaryName writer (lead ++ names) = temporaryName writer names := by
  rw [temporaryName, temporaryName, List.getLast?_append_of_ne_nil _ nonempty]

/-- Different files in a directory have different temporary files. -/
theorem temporaryPlace_inj {writer : Text} {front other : List Text} {last name : Text}
    (lastDown : last ≠ ['.', '.']) (nameDown : name ≠ ['.', '.'])
    (same : temporaryPlace writer (front ++ [last]) = temporaryPlace writer (other ++ [name])) :
    front ++ [last] = other ++ [name] := by
  simp only [temporaryPlace, List.dropLast_concat, temporaryName, List.getLast?_concat, lastDown,
    nameDown, if_false] at same
  obtain ⟨fronts, names⟩ := List.append_inj' same rfl
  simp only [List.cons.injEq, and_true, true_and, List.append_assoc,
    List.append_cancel_right_eq] at names
  rw [fronts, names]

/-- No file is its own temporary file. -/
theorem temporaryPlace_ne_self {writer : Text} {front : List Text} {last : Text}
    (lastDown : last ≠ ['.', '.']) : temporaryPlace writer (front ++ [last]) ≠ front ++ [last] := by
  intro same
  simp only [temporaryPlace, List.dropLast_concat, temporaryName, List.getLast?_concat, lastDown,
    if_false, List.append_cancel_left_eq, List.cons.injEq, and_true] at same
  have lengths := congrArg List.length same
  simp only [List.length_cons, List.length_append] at lengths
  omega

namespace IsSite

variable {disk other : Disk} {path : Path} {place : Location} {last : Text}

/-- Staging looks at the name of the temporary file, at what stands there, and at whether the
directory lets it be made. -/
theorem stage_eq (site : IsSite disk path place last) (writer : Text) (content : Bytes) :
    disk.stage writer path content =
      let name := temporaryName writer path.segments
      let file := Node.file content (disk.replacementMode path)
      let refused := DiskError.temporary (spelledBelow (spelledParent path) name)
      match disk.refusal? place path.segments.dropLast name, disk.get? (place ++ [name]) with
      | some fault, _ => (.error (refused fault), disk)
      | none, some _ => (.error (refused .alreadyExists), disk)
      | none, none =>
        if !disk.allows Node.ownerWrites place then (.error (refused .accessDenied), disk)
        else (.ok (place ++ [name], file), disk.store (place ++ [name]) file) := by
  have descends : Descends [temporaryName writer path.segments] := fun name mem =>
    List.mem_singleton.1 mem ▸ temporaryName_descends writer path.segments
  rw [stage, site.ensureDirectories_eq]
  simp only [site.walk_beside descends]
  cases disk.refusal? place path.segments.dropLast (temporaryName writer path.segments) with
  | some fault => rfl
  | none =>
      cases held : disk.get? (place ++ [temporaryName writer path.segments]) with
      | some node => rw [standing_of_some held]
      | none => rw [standing_of_none held]

/-- Staging is refused and changes nothing, or the temporary place was free and holds the
new content. -/
theorem stage_cases (site : IsSite disk path place last) (writer : Text) (content : Bytes) :
    (∃ error, disk.stage writer path content = (.error error, disk)) ∨
      disk.get? (place ++ [temporaryName writer path.segments]) = none ∧
        disk.stage writer path content =
          (.ok (place ++ [temporaryName writer path.segments],
            .file content (disk.replacementMode path)),
            disk.store (place ++ [temporaryName writer path.segments])
              (.file content (disk.replacementMode path))) := by
  simp only [site.stage_eq]
  cases disk.refusal? place path.segments.dropLast (temporaryName writer path.segments) with
  | some fault => exact .inl ⟨_, rfl⟩
  | none =>
      cases disk.get? (place ++ [temporaryName writer path.segments]) with
      | some node => exact .inl ⟨_, rfl⟩
      | none =>
          cases disk.allows Node.ownerWrites place with
          | false => exact .inl ⟨_, rfl⟩
          | true => exact .inr ⟨rfl, rfl⟩

/-- What comes of staging depends on the directory, on the permission bits of the file and on what
its temporary place holds. -/
theorem stage_congr (site : IsSite disk path place last) (otherSite : IsSite other path place last)
    (alike : SameDirectories disk other)
    (modes : other.replacementMode path = disk.replacementMode path) {writer : Text}
    (beside : other.get? (place ++ [temporaryName writer path.segments]) =
      disk.get? (place ++ [temporaryName writer path.segments])) (content : Bytes) :
    (other.stage writer path content).1 = (disk.stage writer path content).1 := by
  simp only [site.stage_eq, otherSite.stage_eq, modes, beside, alike.refusal?, alike.allows]
  cases disk.refusal? place path.segments.dropLast (temporaryName writer path.segments) with
  | some fault => rfl
  | none =>
      cases disk.get? (place ++ [temporaryName writer path.segments]) with
      | some node => rfl
      | none => cases disk.allows Node.ownerWrites place <;> rfl

/-- Removing touches what stands at the path only. -/
theorem eq_erase_of_removeFile (site : IsSite disk path place last) {after : Disk}
    (removed : disk.removeFile path = .ok after) : after = disk.erase (place ++ [last]) := by
  rw [removeFile, site.walk_eq] at removed
  cases refused : disk.refusal? place path.segments.dropLast last with
  | some fault => simp [refused] at removed
  | none =>
      simp only [refused] at removed
      cases held : disk.get? (place ++ [last]) with
      | none => simp [standing_of_none held] at removed
      | some node =>
          simp only [standing_of_some held] at removed
          split at removed
          · contradiction
          cases node with
          | file content mode => exact (Except.ok.inj removed).symm
          | link target => exact (Except.ok.inj removed).symm
          | directory mode => contradiction

/-- Settling is refused and takes the temporary file away, or the file takes a place that does
not hold a directory. -/
theorem settle_cases (site : IsSite disk path place last) (temporary : Location) (file : Node) :
    (∃ error, disk.settle temporary file path = (.error error, disk.erase temporary)) ∨
      disk.refusal? place path.segments.dropLast last = none ∧
        (∀ mode, disk.get? (place ++ [last]) ≠ some (.directory mode)) ∧
          disk.settle temporary file path =
            (.ok (), (disk.erase temporary).store (place ++ [last]) file) := by
  have notUp : path.segments.getLast? ≠ some ['.', '.'] := by
    rw [← site.split, List.getLast?_concat]
    simpa using (site.descends last (by simp)).2
  rw [settle, moveInto, if_neg notUp, site.walk_eq]
  cases accepted : disk.refusal? place path.segments.dropLast last with
  | some fault => exact .inl ⟨_, rfl⟩
  | none =>
      cases held : disk.get? (place ++ [last]) with
      | none =>
          rw [standing_of_none held]
          exact .inr ⟨rfl, by simp, rfl⟩
      | some node =>
          rw [standing_of_some held]
          cases node with
          | file content mode => exact .inr ⟨rfl, by simp, rfl⟩
          | link target => exact .inr ⟨rfl, by simp, rfl⟩
          | directory mode => exact .inl ⟨_, rfl⟩

theorem privileged_settle (site : IsSite disk path place last) (temporary : Location)
    (file : Node) : (disk.settle temporary file path).2.privileged = disk.privileged := by
  rcases site.settle_cases temporary file with ⟨error, refused⟩ | ⟨_, _, settled⟩
  · rw [refused, privileged_erase]
  · rw [settled, privileged_store, privileged_erase]

/-- Settling touches the temporary file, and what stands at the path. -/
theorem get?_settle (site : IsSite disk path place last) {temporary : Location}
    (nonempty : temporary ≠ []) (file : Node) {other : Location} (apart : other ≠ temporary)
    (elsewhere : other ≠ place ++ [last]) :
    (disk.settle temporary file path).2.get? other = disk.get? other := by
  have erased : (disk.erase temporary).get? other = disk.get? other := by
    rw [get?_erase _ nonempty, if_neg apart]
  rcases site.settle_cases temporary file with ⟨error, refused⟩ | ⟨_, _, settled⟩
  · rw [refused, erased]
  · rw [settled, get?_store _ (by simp), if_neg elsewhere, erased]

end IsSite

namespace HoldsFile

variable {disk other : Disk} {root path : Path} {base : Location} {front : List Text} {last : Text}
  {current : Bytes}

/-- Where the new content is put for the time being. -/
theorem temporary_eq (file : HoldsFile disk root base path front last current) (writer : Text) :
    base ++ front ++ [temporaryName writer path.segments] =
      base ++ temporaryPlace writer (front ++ [last]) := by
  rw [file.spells.segments, temporaryName_append writer _ (by simp), temporaryPlace,
    List.dropLast_concat,
    List.append_assoc]

/-- Staging is refused and changes nothing, or the temporary place was free and holds the
new content. -/
theorem stage_cases (file : HoldsFile disk root base path front last current) (writer : Text)
    (content : Bytes) :
    (∃ error, disk.stage writer path content = (.error error, disk)) ∨
      disk.get? (base ++ temporaryPlace writer (front ++ [last])) = none ∧
        disk.stage writer path content =
          (.ok (base ++ temporaryPlace writer (front ++ [last]),
              .file content (disk.replacementMode path)),
            disk.store (base ++ temporaryPlace writer (front ++ [last]))
              (.file content (disk.replacementMode path))) := by
  have staged := file.isSite.stage_cases writer content
  rwa [file.temporary_eq] at staged

/-- What comes of staging depends on the directories, on the file and on what its temporary place
holds. -/
theorem stage_congr (file : HoldsFile disk root base path front last current)
    (otherFile : HoldsFile other root base path front last current)
    (alike : SameDirectories disk other)
    (own : other.get? (base ++ (front ++ [last])) = disk.get? (base ++ (front ++ [last])))
    (writer : Text)
    (beside : other.get? (base ++ temporaryPlace writer (front ++ [last])) =
      disk.get? (base ++ temporaryPlace writer (front ++ [last]))) (content : Bytes) :
    (other.stage writer path content).1 = (disk.stage writer path content).1 := by
  have modes : other.replacementMode path = disk.replacementMode path := by
    rcases file.held with ⟨mode, held, _⟩
    rw [file.replacementMode_eq held, otherFile.replacementMode_eq (own.trans held)]
  exact file.isSite.stage_congr otherFile.isSite alike modes (by rwa [file.temporary_eq]) content

/-- Staging is refused alike on both disks, or puts the same at the same place. -/
theorem stage_cases_congr (file : HoldsFile disk root base path front last current)
    (otherFile : HoldsFile other root base path front last current)
    (alike : SameDirectories disk other)
    (own : other.get? (base ++ (front ++ [last])) = disk.get? (base ++ (front ++ [last])))
    (writer : Text)
    (beside : other.get? (base ++ temporaryPlace writer (front ++ [last])) =
      disk.get? (base ++ temporaryPlace writer (front ++ [last]))) (content : Bytes) :
    (∃ error, disk.stage writer path content = (.error error, disk) ∧
      other.stage writer path content = (.error error, other)) ∨
    ∃ place node, place ≠ [] ∧
      disk.stage writer path content = (.ok (place, node), disk.store place node) ∧
        other.stage writer path content = (.ok (place, node), other.store place node) := by
  have same := file.stage_congr otherFile alike own writer beside content
  have below : base ++ temporaryPlace writer (front ++ [last]) ≠ [] := by simp [temporaryPlace]
  rcases file.stage_cases writer content with ⟨error, refused⟩ | ⟨_, staged⟩
  · rcases otherFile.stage_cases writer content with ⟨otherError, otherRefused⟩ | ⟨_, otherStaged⟩
    · rw [refused, otherRefused] at same
      exact .inl ⟨error, refused, Except.error.inj same ▸ otherRefused⟩
    · rw [refused, otherStaged] at same
      contradiction
  · rcases otherFile.stage_cases writer content with ⟨otherError, otherRefused⟩ | ⟨_, otherStaged⟩
    · rw [staged, otherRefused] at same
      contradiction
    · rw [staged, otherStaged, Except.ok.injEq, Prod.mk.injEq] at same
      exact .inr ⟨_, _, below, staged, same.2 ▸ otherStaged⟩

/-- A staged file takes its place. -/
theorem settle_eq (file : HoldsFile disk root base path front last current) (temporary : Location)
    (node : Node) :
    disk.settle temporary node path =
      (.ok (), (disk.erase temporary).store (base ++ (front ++ [last])) node) := by
  have notUp : path.segments.getLast? ≠ some ['.', '.'] := by
    simpa [file.spells.segments] using (file.spells.descends last (by simp)).2
  rcases file.walk_eq with ⟨mode, walked⟩
  rw [settle, moveInto, if_neg notUp, walked]

end HoldsFile

/-! ## Files that come and go -/

/-- Files came or went, each of them in a directory that is there, and nothing else was
touched. -/
structure Reshapes (disk after : Disk) : Prop where
  rights : after.privileged = disk.privileged
  places : ∀ location, after.get? location = disk.get? location ∨
    (∀ node, disk.get? location = some node → ∃ content mode, node = .file content mode) ∧
      ∀ node, after.get? location = some node → (∃ content mode, node = .file content mode) ∧
        ∃ outer name mode, location = outer ++ [name] ∧ disk.get? outer = some (.directory mode)

/-- Links and directories are still there. -/
theorem Reshapes.kept {disk after : Disk} (reshapes : Reshapes disk after) {location : Location}
    {node : Node} (held : disk.get? location = some node)
    (noFile : ∀ content mode, node ≠ .file content mode) :
    after.get? location = some node := by
  rcases reshapes.places location with same | ⟨isFile, _⟩
  · rw [same, held]
  · rcases isFile node held with ⟨content, mode, file⟩
    exact absurd file (noFile content mode)

theorem Reshapes.sameDirectories {disk after : Disk} (reshapes : Reshapes disk after) :
    SameDirectories disk after := by
  refine ⟨reshapes.rights, fun location mode => ⟨fun directory => ?_, fun directory => ?_⟩⟩
  · rcases reshapes.places location with same | ⟨_, isFile⟩
    · exact same ▸ directory
    · obtain ⟨⟨_, _, file⟩, _⟩ := isFile _ directory
      contradiction
  · exact reshapes.kept directory (by simp)

theorem Reshapes.isProject {disk after : Disk} {root : Path} {base : Location}
    (reshapes : Reshapes disk after) (project : IsProject disk root base) :
    IsProject after root base := by
  refine project.mono ?_ reshapes.rights fun _ _ => reshapes.kept
  constructor
  · rcases project.tree.top with ⟨mode, top⟩
    exact ⟨mode, reshapes.kept top (by simp)⟩
  · intro place target link
    rcases reshapes.places (base ++ place) with same | ⟨_, isFile⟩
    · exact project.tree.noLink place target (same ▸ link)
    · obtain ⟨⟨content, mode, file⟩, _⟩ := isFile _ link
      contradiction
  · intro place name node held
    rcases reshapes.places (base ++ place ++ [name]) with same | ⟨_, isFile⟩
    · obtain ⟨mode, outer⟩ := project.tree.outer place name node (same ▸ held)
      exact ⟨mode, reshapes.kept outer (by simp)⟩
    · obtain ⟨_, outer, last, mode, split, directory⟩ := isFile _ held
      rw [← (List.append_inj' split rfl).1] at directory
      exact ⟨mode, reshapes.kept directory (by simp)⟩

end DistDirectives.Disk
