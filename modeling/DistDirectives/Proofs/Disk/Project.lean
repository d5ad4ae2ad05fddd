import DistDirectives.Disk.Files
import DistDirectives.Proofs.Disk.Children
import DistDirectives.Proofs.Disk.Tree
import DistDirectives.Proofs.Path.Segments

/-!
# Files and directories of a project

What stands at a path below a project is what the location holds that the names behind
the path of the project spell, provided that the path as a whole is accepted. Reading and
listing follow from that. A disk on which files were rewritten or removed still has the
project, with the same directories in it.
-/

namespace DistDirectives.Disk

/-- The names of a path behind the path of a project. -/
structure Spells (root path : Path) (names : List Text) : Prop where
  segments : path.segments = root.segments ++ names
  descends : Descends names

/-! ## Locations that are found alike -/

/-- Names that lead on from two locations may be looked up on both disks or on none, and lead to
the same. -/
structure SameAt (disk : Disk) (base : Location) (other : Disk) (otherBase : Location)
    (names : List Text) : Prop where
  searches : MaySearch other otherBase names ↔ MaySearch disk base names
  held : other.get? (otherBase ++ names) = disk.get? (base ++ names)

theorem SameAt.refl (disk : Disk) (base : Location) (names : List Text) :
    SameAt disk base disk base names := ⟨Iff.rfl, rfl⟩

theorem SameAt.fits_iff {disk other : Disk} {base otherBase : Location} {lead names : List Text}
    (same : SameAt disk base other otherBase names) :
    Fits other otherBase lead names ↔ Fits disk base lead names :=
  ⟨fun fits => ⟨fits.noZero, fits.size, same.searches.1 fits.searches, fits.short⟩,
    fun fits => ⟨fits.noZero, fits.size, same.searches.2 fits.searches, fits.short⟩⟩

/-- The same process finds the same directories. -/
structure SameDirectories (disk other : Disk) : Prop where
  rights : other.privileged = disk.privileged
  directories : ∀ location mode,
    other.get? location = some (.directory mode) ↔ disk.get? location = some (.directory mode)

namespace SameDirectories

variable {disk between other : Disk}

theorem refl (disk : Disk) : SameDirectories disk disk := ⟨rfl, fun _ _ => Iff.rfl⟩

theorem symm (same : SameDirectories disk other) : SameDirectories other disk :=
  ⟨same.rights.symm, fun location mode => (same.directories location mode).symm⟩

theorem trans (first : SameDirectories disk between) (second : SameDirectories between other) :
    SameDirectories disk other :=
  ⟨second.rights.trans first.rights, fun location mode =>
    (second.directories location mode).trans (first.directories location mode)⟩

theorem allows (same : SameDirectories disk other) (bit : Nat) (here : Location) :
    other.allows bit here = disk.allows bit here :=
  allows_congr same.rights (same.directories here) bit

theorem maySearch (same : SameDirectories disk other) (base : Location) (names : List Text) :
    MaySearch other base names ↔ MaySearch disk base names := by
  simp only [MaySearch, same.allows]

theorem sameAt (same : SameDirectories disk other) {base : Location} {names : List Text}
    (held : other.get? (base ++ names) = disk.get? (base ++ names)) :
    SameAt disk base other base names := ⟨same.maySearch base names, held⟩

theorem fits (same : SameDirectories disk other) {base : Location} {lead names : List Text}
    (fits : Fits disk base lead names) : Fits other base lead names :=
  ⟨fits.noZero, fits.size, (same.maySearch base names).2 fits.searches, fits.short⟩

/-- To put a file where no directory stands leaves the directories alone. -/
theorem of_replaced {location : Location} {content : Bytes} {mode : Nat}
    (rights : other.privileged = disk.privileged)
    (noDirectory : ∀ mode, disk.get? location ≠ some (.directory mode))
    (replaced : ∀ place, other.get? place =
      if place = location then some (.file content mode) else disk.get? place) :
    SameDirectories disk other := by
  refine ⟨rights, fun place placeMode => ?_⟩
  rw [replaced]
  split
  · rename_i same
    simp [same, noDirectory]
  · rfl

theorem store {location : Location} (below : location ≠ [])
    (noDirectory : ∀ mode, disk.get? location ≠ some (.directory mode)) (content : Bytes)
    (mode : Nat) : SameDirectories disk (disk.store location (.file content mode)) :=
  of_replaced (disk.privileged_store _ _) noDirectory (disk.get?_store below _)

/-- To take away what is no directory leaves the directories alone. -/
theorem erase {location : Location} (below : location ≠ [])
    (noDirectory : ∀ mode, disk.get? location ≠ some (.directory mode)) :
    SameDirectories disk (disk.erase location) := by
  refine ⟨rfl, fun other otherMode => ?_⟩
  rw [get?_erase _ below]
  split
  · rename_i same
    simp [same, noDirectory]
  · rfl

end SameDirectories

/-- A file is read exactly if a path leads to it and that is permitted. -/
theorem readBytes_eq_ok_iff {disk : Disk} {path : Path} {content : Bytes} :
    disk.readBytes path = .ok content ↔
      ∃ mode, disk.lookup path = .ok (.file content mode) ∧ disk.permits mode = true := by
  rw [readBytes]
  constructor
  · intro read
    split at read
    · rename_i bytes mode standing
      split at read
      · rename_i permitted
        cases read
        exact ⟨mode, standing, permitted⟩
      · contradiction
    all_goals contradiction
  · rintro ⟨mode, standing, permitted⟩
    simp only [standing, permitted, if_true]

namespace IsProject

variable {disk : Disk} {root path : Path} {base : Location} {names : List Text}

/-! ## What stands at a path -/

theorem walk_eq_node_iff (project : IsProject disk root base) (spells : Spells root path names)
    {location : Location} {node : Node} :
    disk.walk true path.segments = .ok (.node location node) ↔
      Fits disk base root.segments names ∧ location = base ++ names ∧
        disk.get? (base ++ names) = some node := by
  rw [spells.segments]
  rcases List.eq_nil_or_concat names with rfl | ⟨front, last, rfl⟩
  · rcases project.leads with ⟨mode, reached⟩
    have directory := get?_of_walk reached
    have unrefused := walk_eq_ok_iff.1 reached
    have fits : Fits disk base root.segments [] :=
      ⟨by simpa using unrefused.1, by simpa using unrefused.2.1, .nil disk base, by simp⟩
    simp only [List.append_nil, reached, directory, fits, true_and, Except.ok.injEq,
      Option.some.injEq, Found.node.injEq, eq_comm]
  · rw [List.concat_eq_append] at spells ⊢
    rw [project.walk_below_eq_ok_iff spells.descends, ← List.append_assoc]
    constructor
    · rintro ⟨fits, _, found_eq⟩
      cases held : disk.get? (base ++ front ++ [last]) with
      | none =>
          rw [standing_of_none held] at found_eq
          contradiction
      | some other =>
          rw [standing_of_some held] at found_eq
          cases found_eq
          exact ⟨fits, rfl, rfl⟩
    · rintro ⟨fits, rfl, held⟩
      exact ⟨fits, project.tree.outer front last node held, (standing_of_some held).symm⟩

theorem lookup_eq_ok_iff (project : IsProject disk root base) (spells : Spells root path names)
    {node : Node} :
    disk.lookup path = .ok node ↔ Fits disk base root.segments names ∧
      disk.get? (base ++ names) = some node := by
  have walks (location : Location) := @walk_eq_node_iff _ _ _ _ _ project spells location node
  rw [lookup]
  constructor
  · intro stands
    cases walked : disk.walk true path.segments with
    | error fault => simp only [walked, reduceCtorEq] at stands
    | ok found =>
        cases found with
        | node location other =>
            simp only [walked, Except.ok.injEq] at stands
            rcases (walks location).1 (stands ▸ walked) with ⟨fits, _, held⟩
            exact ⟨fits, held⟩
        | vacant directory name => simp only [walked, reduceCtorEq] at stands
  · rintro ⟨fits, held⟩
    rw [(walks _).2 ⟨fits, rfl, held⟩]

/-- Nothing stands at a path whose directory is there and whose location is empty. -/
theorem lookup_eq_notFound (project : IsProject disk root base) {front : List Text} {last : Text}
    (spells : Spells root path (front ++ [last]))
    (fits : Fits disk base root.segments (front ++ [last]))
    (above : ∃ mode, disk.get? (base ++ front) = some (.directory mode))
    (free : disk.get? (base ++ (front ++ [last])) = none) :
    disk.lookup path = .error .notFound := by
  rw [← List.append_assoc] at free
  have walked := (project.walk_below_eq_ok_iff spells.descends true).2 ⟨fits, above, rfl⟩
  rw [lookup, spells.segments, walked, standing_of_none free]

theorem isFile_iff (project : IsProject disk root base) (spells : Spells root path names) :
    disk.isFile path = true ↔
      Fits disk base root.segments names ∧ ∃ content mode, disk.get? (base ++ names) =
        some (.file content mode) := by
  have stands (node : Node) := @lookup_eq_ok_iff _ _ _ _ _ project spells node
  rw [isFile]
  constructor
  · intro found
    split at found
    · rename_i content mode standing
      rcases (stands _).1 standing with ⟨fits, held⟩
      exact ⟨fits, content, mode, held⟩
    · contradiction
  · rintro ⟨fits, content, mode, held⟩
    rw [(stands _).2 ⟨fits, held⟩]

/-- A file of a project is read if that is permitted. -/
theorem readBytes_eq (project : IsProject disk root base) (spells : Spells root path names)
    (fits : Fits disk base root.segments names) {content : Bytes} {mode : Nat}
    (held : disk.get? (base ++ names) = some (.file content mode)) :
    disk.readBytes path =
      if disk.permits mode then .ok content else .error (.at path.text .accessDenied) := by
  rw [readBytes, (project.lookup_eq_ok_iff spells).2 ⟨fits, held⟩]

theorem readBytes_eq_ok_iff (project : IsProject disk root base) (spells : Spells root path names)
    {content : Bytes} :
    disk.readBytes path = .ok content ↔
      Fits disk base root.segments names ∧
        ∃ mode, disk.get? (base ++ names) = some (.file content mode) ∧
          disk.permits mode = true := by
  constructor
  · intro read
    obtain ⟨mode, standing, permitted⟩ := Disk.readBytes_eq_ok_iff.1 read
    obtain ⟨fits, held⟩ := (project.lookup_eq_ok_iff spells).1 standing
    exact ⟨fits, mode, held, permitted⟩
  · rintro ⟨fits, mode, held, permitted⟩
    rw [project.readBytes_eq spells fits held, if_pos permitted]

theorem requireDirectory_eq_ok_iff (project : IsProject disk root base)
    (spells : Spells root path names) :
    disk.requireDirectory path = .ok () ↔
      Fits disk base root.segments names ∧
        ∃ mode, disk.get? (base ++ names) = some (.directory mode) := by
  have stands (node : Node) := @lookup_eq_ok_iff _ _ _ _ _ project spells node
  rw [requireDirectory]
  constructor
  · intro required
    split at required
    · rename_i mode standing
      rcases (stands _).1 standing with ⟨fits, held⟩
      exact ⟨fits, mode, held⟩
    · contradiction
    · contradiction
  · rintro ⟨fits, mode, held⟩
    rw [(stands _).2 ⟨fits, held⟩]

/-- Whether a file stands at a path depends on one location, and on whether the names that lead
to it may be looked up. -/
theorem isFile_congr {other : Disk} {otherBase : Location} (project : IsProject disk root base)
    (otherProject : IsProject other root otherBase) (spells : Spells root path names)
    (same : SameAt disk base other otherBase names) :
    other.isFile path = disk.isFile path := by
  rw [Bool.eq_iff_iff, project.isFile_iff spells, otherProject.isFile_iff spells, same.fits_iff,
    same.held]

/-- A file is read alike wherever the process has the same rights and the location holds the
same. -/
theorem readBytes_congr {other : Disk} {otherBase : Location} (project : IsProject disk root base)
    (otherProject : IsProject other root otherBase) (spells : Spells root path names)
    (rights : other.privileged = disk.privileged)
    (same : SameAt disk base other otherBase names)
    (stands : disk.isFile path = true) : other.readBytes path = disk.readBytes path := by
  obtain ⟨fits, content, mode, held⟩ := (project.isFile_iff spells).1 stands
  rw [project.readBytes_eq spells fits held,
    otherProject.readBytes_eq spells (same.fits_iff.2 fits) (same.held.trans held),
    permits_congr rights]

/-- The entry that a listing of the directory at a path shows for a node. -/
def entryOf (path : Path) (child : Text × Node) : Entry :=
  { name := child.1, path := path.join child.1, kind := kindOf child.2 }

/-- A directory of a project with a mode by which it may be listed. -/
theorem list_eq_ok_iff (project : IsProject disk root base) (spells : Spells root path names)
    {entries : List Entry} :
    disk.list path = .ok entries ↔
      Fits disk base root.segments names ∧
        (∃ mode, disk.get? (base ++ names) = some (.directory mode) ∧ disk.permits mode = true) ∧
        entries = (disk.children (base ++ names)).map (entryOf path) := by
  rw [Disk.list_eq_ok_iff]
  constructor
  · rintro ⟨place, mode, leads, permitted, rfl⟩
    obtain ⟨fits, rfl, held⟩ := (project.walk_eq_node_iff spells).1 leads
    exact ⟨fits, ⟨mode, held, permitted⟩, rfl⟩
  · rintro ⟨fits, ⟨mode, held, permitted⟩, rfl⟩
    exact ⟨_, mode, (project.walk_eq_node_iff spells).2 ⟨fits, rfl, held⟩, permitted, rfl⟩

theorem listDirectories_eq_ok_iff (project : IsProject disk root base)
    (spells : Spells root path names) {directories : List Text} :
    disk.listDirectories path = .ok directories ↔
      Fits disk base root.segments names ∧
        (∃ mode, disk.get? (base ++ names) = some (.directory mode) ∧ disk.permits mode = true) ∧
        directories = disk.directoryNames (base ++ names) := by
  have shown := disk.names_of_directories path (base ++ names)
  rw [Disk.listDirectories_eq_ok_iff]
  constructor
  · rintro ⟨entries, listed, rfl⟩
    obtain ⟨fits, directory, rfl⟩ := (project.list_eq_ok_iff spells).1 listed
    exact ⟨fits, directory, shown⟩
  · rintro ⟨fits, directory, rfl⟩
    exact ⟨_, (project.list_eq_ok_iff spells).2 ⟨fits, directory, rfl⟩, shown⟩

end IsProject

/-! ## Plain names -/

open DistDirectives.Path (IsPlainName)

/-- Below a location, nodes stand under plain names only. -/
def HasPlainNames (disk : Disk) (base : Location) : Prop :=
  ∀ place name node, disk.get? (base ++ place ++ [name]) = some node → IsPlainName name

/-- A project of regular files and directories with plain names. -/
structure IsPlainProject (disk : Disk) (root : Path) (base : Location) : Prop
    extends IsProject disk root base where
  plain : HasPlainNames disk base

theorem HasPlainNames.child {disk : Disk} {base : Location} (plain : HasPlainNames disk base)
    (place : Location) : HasPlainNames disk (base ++ place) := by
  intro inner name node held
  rw [List.append_assoc base place inner] at held
  exact plain (place ++ inner) name node held

theorem exists_walk_of_requireDirectory {disk : Disk} {path : Path}
    (required : disk.requireDirectory path = .ok ()) :
    ∃ place mode, disk.walk true path.segments = .ok (.node place (.directory mode)) := by
  rw [requireDirectory, lookup] at required
  cases walked : disk.walk true path.segments with
  | error fault => simp only [walked, reduceCtorEq] at required
  | ok found =>
      cases found with
      | vacant directory name => simp only [walked, reduceCtorEq] at required
      | node place node =>
          cases node with
          | directory mode => exact ⟨place, mode, rfl⟩
          | file content mode => simp only [walked, reduceCtorEq] at required
          | link target => simp only [walked, reduceCtorEq] at required

/-- Wherever a path leads to a directory, it leads to a tree with plain names. -/
def LeadsToPlainTree (disk : Disk) (path : Path) : Prop :=
  ∀ place mode, disk.walk true path.segments = .ok (.node place (.directory mode)) →
    IsTree disk place ∧ HasPlainNames disk place

theorem descends_of_plain {names : List Text} (plain : ∀ name ∈ names, IsPlainName name) :
    Descends names := fun name mem => ⟨(plain name mem).ne_dot, (plain name mem).ne_dots⟩

/-- A directory of a project is a project. -/
theorem IsProject.child {disk : Disk} {root path : Path} {base : Location} {names : List Text}
    (project : IsProject disk root base) (spells : Spells root path names)
    (required : disk.requireDirectory path = .ok ()) : IsProject disk path (base ++ names) := by
  rcases (project.requireDirectory_eq_ok_iff spells).1 required with ⟨fits, mode, directory⟩
  exact ⟨⟨mode, (project.walk_eq_node_iff spells).2 ⟨fits, rfl, directory⟩⟩,
    project.tree.child directory⟩

theorem IsProject.leadsToPlainTree_of_spells {disk : Disk} {root path : Path} {base : Location}
    {names : List Text} (project : IsProject disk root base) (plain : HasPlainNames disk base)
    (spells : Spells root path names) : LeadsToPlainTree disk path := by
  intro place mode reached
  rcases (project.walk_eq_node_iff spells).1 reached with ⟨_, rfl, directory⟩
  exact ⟨project.tree.child directory, plain.child names⟩

/-- Where a path leads out of a directory, it leads to a tree with plain names. -/
def IsPlainOutside (disk : Disk) (base : Location) (path : Path) : Prop :=
  ∀ place mode, disk.walk true path.segments = .ok (.node place (.directory mode)) →
    ¬ base <+: place → IsTree disk place ∧ HasPlainNames disk place

theorem IsPlainProject.leadsToPlainTree {disk : Disk} {root path : Path} {base : Location}
    (project : IsPlainProject disk root base) (outside : IsPlainOutside disk base path) :
    LeadsToPlainTree disk path := by
  intro place mode reached
  by_cases inside : base <+: place
  · have directory := get?_of_walk reached
    rcases inside with ⟨names, rfl⟩
    exact ⟨project.tree.child directory, project.plain.child names⟩
  · exact outside place mode reached inside

theorem Spells.append {root path inner : Path} {names more : List Text}
    (spells : Spells root path names) (onwards : Spells path inner more) :
    Spells root inner (names ++ more) := by
  refine ⟨by rw [onwards.segments, spells.segments, List.append_assoc], fun name mem => ?_⟩
  exact (List.mem_append.1 mem).elim (spells.descends name) (onwards.descends name)

/-- A path with a plain name added spells that name last. -/
theorem Spells.join {root path : Path} {names : List Text} (spells : Spells root path names)
    {name : Text} (plain : IsPlainName name) : Spells root (path.join name) (names ++ [name]) := by
  constructor
  · rw [Path.segments_join_segment path plain.toIsSegment, spells.segments, List.append_assoc]
  · intro other mem
    rcases List.mem_append.1 mem with inner | last
    · exact spells.descends other inner
    · exact List.mem_singleton.1 last ▸ ⟨plain.ne_dot, plain.ne_dots⟩

/-! ## Readable files -/

/-- A file that may be read stands at a location. -/
def HoldsReadable (disk : Disk) (location : Location) : Prop :=
  ∃ content mode, disk.get? location = some (.file content mode) ∧ disk.permits mode = true

/-- Files that may be read were rewritten or removed, and nothing else was touched. -/
structure Rewrites (disk after : Disk) : Prop where
  rights : after.privileged = disk.privileged
  places : ∀ location, after.get? location = disk.get? location ∨
    disk.HoldsReadable location ∧ (after.get? location = none ∨ after.HoldsReadable location)

namespace Rewrites

variable {disk between after : Disk} {location : Location} {root : Path} {base : Location}

theorem refl (disk : Disk) : Rewrites disk disk := ⟨rfl, fun _ => .inl rfl⟩

theorem permits (rewrites : Rewrites disk after) (mode : Nat) :
    after.permits mode = disk.permits mode := permits_congr rewrites.rights mode

/-- A place that is as it was holds a readable file if it did. -/
theorem holdsReadable (rewrites : Rewrites disk after)
    (same : after.get? location = disk.get? location)
    (readable : disk.HoldsReadable location) : after.HoldsReadable location := by
  obtain ⟨content, mode, held, permitted⟩ := readable
  exact ⟨content, mode, same.trans held, (rewrites.permits mode).trans permitted⟩

theorem trans (first : Rewrites disk between) (second : Rewrites between after) :
    Rewrites disk after := by
  refine ⟨second.rights.trans first.rights, fun location => ?_⟩
  rcases first.places location with same | ⟨readable, rewritten⟩
  · rcases second.places location with unchanged | ⟨⟨content, mode, held, permitted⟩, rewritten⟩
    · exact .inl (unchanged.trans same)
    · exact .inr
        ⟨⟨content, mode, same ▸ held, (first.permits mode).symm.trans permitted⟩, rewritten⟩
  · refine .inr ⟨readable, ?_⟩
    rcases second.places location with unchanged | ⟨_, rewrittenAgain⟩
    · rcases rewritten with gone | readableStill
      · exact .inl (unchanged.trans gone)
      · exact .inr (second.holdsReadable unchanged readableStill)
    · exact rewrittenAgain

/-- Links and directories are still there. -/
theorem kept (rewrites : Rewrites disk after) {node : Node} (held : disk.get? location = some node)
    (noFile : ∀ content mode, node ≠ .file content mode) : after.get? location = some node := by
  rcases rewrites.places location with same | ⟨⟨content, mode, file, _⟩, _⟩
  · rw [same, held]
  · rw [held, Option.some.injEq] at file
    exact absurd file (noFile content mode)

/-- Nothing was created. -/
theorem held (rewrites : Rewrites disk after) {node : Node}
    (held : after.get? location = some node) :
    disk.get? location = some node ∨
      (∃ content mode, disk.get? location = some (.file content mode)) ∧
        ∃ content mode, node = .file content mode := by
  rcases rewrites.places location with same | ⟨⟨content, mode, file, _⟩, rewritten⟩
  · exact .inl (same ▸ held)
  · refine .inr ⟨⟨content, mode, file⟩, ?_⟩
    rcases rewritten with gone | ⟨newContent, newMode, newFile, _⟩
    · exact absurd (held.symm.trans gone) (by simp)
    · exact ⟨newContent, newMode, Option.some.inj (held.symm.trans newFile)⟩

theorem directory_iff (rewrites : Rewrites disk after) {mode : Nat} :
    after.get? location = some (.directory mode) ↔ disk.get? location = some (.directory mode) := by
  constructor
  · intro directory
    rcases rewrites.held directory with same | ⟨_, content, mode, file⟩
    · exact same
    · contradiction
  · exact fun directory => rewrites.kept directory (by simp)

theorem sameDirectories (rewrites : Rewrites disk after) : SameDirectories disk after :=
  ⟨rewrites.rights, fun _ _ => rewrites.directory_iff⟩

theorem isTree (rewrites : Rewrites disk after) (tree : IsTree disk base) : IsTree after base := by
  constructor
  · rcases tree.top with ⟨mode, directory⟩
    exact ⟨mode, rewrites.directory_iff.2 directory⟩
  · intro place target link
    rcases rewrites.held link with same | ⟨_, content, mode, file⟩
    · exact tree.noLink place target same
    · contradiction
  · intro place name node found
    have before : ∃ node, disk.get? (base ++ place ++ [name]) = some node := by
      rcases rewrites.held found with same | ⟨⟨content, mode, file⟩, _⟩
      · exact ⟨node, same⟩
      · exact ⟨_, file⟩
    rcases before with ⟨node, found⟩
    obtain ⟨mode, directory⟩ := tree.outer place name node found
    exact ⟨mode, rewrites.directory_iff.2 directory⟩

theorem hasPlainNames (rewrites : Rewrites disk after) (plain : HasPlainNames disk base) :
    HasPlainNames after base := by
  intro place name node found
  rcases rewrites.held found with same | ⟨⟨content, mode, file⟩, _⟩
  · exact plain place name node same
  · exact plain place name _ file

end Rewrites

/-- A path leads to a directory as long as all but files and links to files stays. -/
theorem walk_of_kept {disk after : Disk} {names : List Text} {place : Location} {mode : Nat}
    (reached : disk.walk true names = .ok (.node place (.directory mode)))
    (rights : after.privileged = disk.privileged)
    (kept : ∀ location node, disk.get? location = some node → ¬ StandsForFile disk location →
      after.get? location = some node) :
    after.walk true names = .ok (.node place (.directory mode)) := by
  have unrefused := walk_eq_ok_iff.1 reached
  have directory := get?_of_walk reached
  have leads := (leads_of_walkWithin unrefused.2.2).mono (.top disk) rights kept
  refine walk_eq_ok_iff.2 ⟨unrefused.1, unrefused.2.1, ?_⟩
  rw [leads.walkWithin_eq, kept _ _ directory (not_standsForFile_of_directory directory),
    Option.getD_some]

/-- A project stays one as long as links and directories stay. -/
theorem IsProject.mono {disk after : Disk} {root : Path} {base : Location}
    (project : IsProject disk root base) (tree : IsTree after base)
    (rights : after.privileged = disk.privileged)
    (kept : ∀ location node, disk.get? location = some node →
      (∀ content mode, node ≠ .file content mode) → after.get? location = some node) :
    IsProject after root base := by
  rcases project.leads with ⟨mode, reached⟩
  refine ⟨⟨mode, walk_of_kept reached rights fun location node held noFile => ?_⟩, tree⟩
  refine kept location node held fun content mode isFile => noFile ?_
  exact .file (isFile ▸ held)

theorem Rewrites.isProject {disk after : Disk} {root : Path} {base : Location}
    (rewrites : Rewrites disk after) (project : IsProject disk root base) :
    IsProject after root base :=
  project.mono (rewrites.isTree project.tree) rewrites.rights fun _ _ => rewrites.kept

theorem Rewrites.isPlainProject {disk after : Disk} {root : Path} {base : Location}
    (rewrites : Rewrites disk after) (project : IsPlainProject disk root base) :
    IsPlainProject after root base :=
  ⟨rewrites.isProject project.toIsProject, rewrites.hasPlainNames project.plain⟩

end DistDirectives.Disk
