import DistDirectives.Text

/-!
# Disks

A disk is a finite map from locations to nodes, kept as a list in strictly
increasing order of locations. A location is the list of names that leads to it
from the top directory, which is always there. Because the order is strict, two
disks on which every location holds the same node are equal, and the entries of a
directory are listed in increasing order of their names.

What a location holds is the view of a disk; the laws below say what storing and
erasing do to it.

A disk is the disk of one process. A privileged one does everything whatever the
permission bits say. Any other one owns what is on the disk and is held to the owner's bits:
one to read a file or list a directory, one to look up names in a directory, and one to make
and remove what is in it. Names are Unicode texts, and what stands on a disk is a regular
file, a symbolic link or a directory.
-/

namespace DistDirectives

/-- The names that lead to a node from the top directory. -/
abbrev Location := List Text

/-- What a location can hold. Modes are permission bits. -/
inductive Node where
  | file (content : Bytes) (mode : Nat)
  /-- A symbolic link with the text that it stands for. -/
  | link (target : Text)
  | directory (mode : Nat)
  deriving DecidableEq

namespace Node

/-- The permission bits of a new directory. -/
def directoryMode : Nat := 0o755

/-- The permission bits of a new file. -/
def fileMode : Nat := 0o644

/-- The bit of a directory by which its group becomes the group of what is made in it. -/
def keepsGroup : Nat := 0o2000

/-- The bit with which the owner reads a file or lists a directory. -/
def ownerReads : Nat := 0o400

/-- The bit with which the owner makes and removes what is in a directory. -/
def ownerWrites : Nat := 0o200

/-- The bit with which the owner looks up names in a directory. -/
def ownerSearches : Nat := 0o100

/-- The permission bits that are left of a requested mode. -/
def masked (mode : Nat) : Nat := mode &&& 0o7755

end Node

namespace Disk

/-- A list of entries with a node stored at a location. -/
def storeIn (location : Location) (node : Node) :
    List (Location × Node) → List (Location × Node)
  | [] => [(location, node)]
  | entry :: rest =>
    if location < entry.1 then (location, node) :: entry :: rest
    else if location = entry.1 then (location, node) :: rest
    else entry :: storeIn location node rest

theorem fst_mem_storeIn {location : Location} {node : Node} {entries : List (Location × Node)}
    {entry : Location × Node} (mem : entry ∈ storeIn location node entries) :
    entry = (location, node) ∨ entry ∈ entries := by
  induction entries with
  | nil => simpa [storeIn] using mem
  | cons first rest ih =>
    simp only [storeIn] at mem
    split at mem
    · simpa using mem
    · split at mem
      · rcases List.mem_cons.1 mem with same | mem
        · exact .inl same
        · exact .inr (List.mem_cons_of_mem _ mem)
      · rcases List.mem_cons.1 mem with same | mem
        · exact .inr (by simp [same])
        · rcases ih mem with same | mem
          · exact .inl same
          · exact .inr (List.mem_cons_of_mem _ mem)

/-- Storing keeps the order. -/
theorem pairwise_storeIn {location : Location} {node : Node}
    {entries : List (Location × Node)}
    (sorted : entries.Pairwise fun left right => left.1 < right.1) :
    (storeIn location node entries).Pairwise fun left right => left.1 < right.1 := by
  induction entries with
  | nil => simp [storeIn]
  | cons first rest ih =>
    obtain ⟨above, sorted⟩ := List.pairwise_cons.1 sorted
    simp only [storeIn]
    split
    · rename_i lower
      refine List.pairwise_cons.2 ⟨?_, List.pairwise_cons.2 ⟨above, sorted⟩⟩
      intro entry mem
      rcases List.mem_cons.1 mem with rfl | mem
      · exact lower
      · exact List.lt_trans lower (above entry mem)
    · split
      · rename_i same
        exact List.pairwise_cons.2 ⟨fun entry mem => same ▸ above entry mem, sorted⟩
      · rename_i notLower differs
        refine List.pairwise_cons.2 ⟨?_, ih sorted⟩
        intro entry mem
        rcases fst_mem_storeIn mem with rfl | mem
        · show first.1 < location
          grind
        · exact above entry mem

end Disk

/-- The nodes below the top directory, by location. -/
structure Disk where
  entries : List (Location × Node)
  sorted : entries.Pairwise fun left right => left.1 < right.1
  /-- Whether the process may do everything whatever the permission bits say. -/
  privileged : Bool := true
  deriving DecidableEq

namespace Disk

/-- The disk with nothing but its top directory. -/
def empty : Disk := { entries := [], sorted := List.Pairwise.nil }

instance : Inhabited Disk := ⟨empty⟩

/-- What a location holds. -/
def get? (disk : Disk) (location : Location) : Option Node :=
  match location with
  | [] => some (.directory Node.directoryMode)
  | name :: names =>
    (disk.entries.find? fun entry => entry.1 == name :: names).map fun entry => entry.2

/-- The disk with a node stored at a location, in place of what was there. -/
def store (disk : Disk) (location : Location) (node : Node) : Disk :=
  { disk with
    entries := storeIn location node disk.entries
    sorted := pairwise_storeIn disk.sorted }

/-- The disk without what a location holds. -/
def erase (disk : Disk) (location : Location) : Disk :=
  { disk with
    entries := disk.entries.filter fun entry => entry.1 ≠ location
    sorted := disk.sorted.filter _ }

/-- The disk without a location and everything below it. -/
def eraseTree (disk : Disk) (location : Location) : Disk :=
  { disk with
    entries := disk.entries.filter fun entry => !location.isPrefixOf entry.1
    sorted := disk.sorted.filter _ }

/-- The same disk under a process that is held to permission bits. -/
def restricted (disk : Disk) : Disk := { disk with privileged := false }

/-- Whether permission bits grant the process what one of the owner's bits stands for. -/
def grants (disk : Disk) (bit mode : Nat) : Bool :=
  disk.privileged || mode &&& bit != 0

/-- Whether a node with some permission bits is opened for reading. -/
def permits (disk : Disk) (mode : Nat) : Bool := disk.grants Node.ownerReads mode

/-- Whether the directory at a location grants the process what one of the owner's bits stands
for. -/
def allows (disk : Disk) (bit : Nat) (here : Location) : Bool :=
  match disk.get? here with
  | some (.directory mode) => disk.grants bit mode
  | _ => true

/-- The names and nodes directly below a location, in increasing order of names. -/
def children (disk : Disk) (location : Location) : List (Text × Node) :=
  disk.entries.filterMap fun entry =>
    match Text.after? location entry.1 with
    | some [name] => some (name, entry.2)
    | _ => none

/-- The places and nodes below a location, seen from there. -/
def below (disk : Disk) (location : Location) : List (Location × Node) :=
  disk.entries.filterMap fun entry =>
    match Text.after? location entry.1 with
    | some (name :: names) => some (name :: names, entry.2)
    | _ => none

/-! ## Rights of the process -/

@[simp]
theorem permits_store (disk : Disk) (location : Location) (node : Node) :
    (disk.store location node).permits = disk.permits := rfl

theorem privileged_store (disk : Disk) (location : Location) (node : Node) :
    (disk.store location node).privileged = disk.privileged := rfl

theorem privileged_erase (disk : Disk) (location : Location) :
    (disk.erase location).privileged = disk.privileged := rfl

/-- What is left of a mode lets as much be read as the mode. -/
@[simp]
theorem permits_masked (disk : Disk) (mode : Nat) :
    disk.permits (Node.masked mode) = disk.permits mode := by
  rw [permits, grants, Node.masked, Nat.and_assoc]
  rfl

theorem permits_congr {disk other : Disk} (same : other.privileged = disk.privileged) (mode : Nat) :
    other.permits mode = disk.permits mode := by
  rw [permits, permits, grants, grants, same]

theorem allows_of_directory {disk : Disk} {here : Location} {mode : Nat}
    (directory : disk.get? here = some (.directory mode)) (bit : Nat) :
    disk.allows bit here = disk.grants bit mode := by
  rw [allows, directory]

theorem allows_of_no_directory {disk : Disk} {here : Location}
    (noDirectory : ∀ mode, disk.get? here ≠ some (.directory mode)) (bit : Nat) :
    disk.allows bit here = true := by
  rw [allows]
  split
  · rename_i mode directory
    exact absurd directory (noDirectory mode)
  · rfl

/-- Directories with the same permission bits allow the same to processes with the same
rights. -/
theorem allows_congr {disk other : Disk} {here otherHere : Location}
    (rights : other.privileged = disk.privileged)
    (same : ∀ mode, other.get? otherHere = some (.directory mode) ↔
      disk.get? here = some (.directory mode)) (bit : Nat) :
    other.allows bit otherHere = disk.allows bit here := by
  by_cases directory : ∃ mode, disk.get? here = some (.directory mode)
  · obtain ⟨mode, directory⟩ := directory
    rw [allows_of_directory directory, allows_of_directory ((same mode).2 directory), grants,
      grants, rights]
  · rw [not_exists] at directory
    rw [allows_of_no_directory directory,
      allows_of_no_directory fun mode found => directory mode ((same mode).1 found)]

/-! ## What a location holds -/

@[simp]
theorem get?_nil (disk : Disk) : disk.get? [] = some (.directory Node.directoryMode) := rfl

theorem find?_storeIn (location other : Location) (node : Node)
    (entries : List (Location × Node)) :
    ((storeIn location node entries).find? fun entry => entry.1 == other) =
      if other = location then some (location, node)
      else entries.find? fun entry => entry.1 == other := by
  induction entries with
  | nil =>
    by_cases same : other = location
    · simp [storeIn, same]
    · simp [storeIn, same, Ne.symm same]
  | cons first rest ih =>
    by_cases same : other = location
    · subst same
      simp only [storeIn, if_true] at ih ⊢
      split
      · simp
      · split
        · simp
        · rename_i differs
          rw [List.find?_cons_of_neg (by simpa using Ne.symm differs), ih]
    · have differs : ¬location = other := fun eq => same eq.symm
      simp only [storeIn, same, if_false] at ih ⊢
      split
      · rw [List.find?_cons_of_neg (by simpa using differs)]
      · split
        · rename_i eq
          rw [List.find?_cons_of_neg (by simpa using differs),
            List.find?_cons_of_neg (by simpa [← eq] using differs)]
        · by_cases found : first.1 = other
          · simp [List.find?_cons_of_pos, found]
          · rw [List.find?_cons_of_neg (by simpa using found),
              List.find?_cons_of_neg (by simpa using found), ih]

/-- Storing changes what its own location holds, and nothing else. -/
theorem get?_store (disk : Disk) {location : Location} (below : location ≠ []) (node : Node)
    (other : Location) :
    (disk.store location node).get? other =
      if other = location then some node else disk.get? other := by
  cases other with
  | nil => simp [Ne.symm below]
  | cons name names =>
    simp only [get?, store, find?_storeIn]
    split <;> simp_all

/-- Erasing empties its own location, and changes nothing else. -/
theorem get?_erase (disk : Disk) {location : Location} (below : location ≠ [])
    (other : Location) :
    (disk.erase location).get? other =
      if other = location then none else disk.get? other := by
  cases other with
  | nil => simp [Ne.symm below]
  | cons name names =>
    simp only [get?, erase, List.find?_filter]
    split
    · rename_i same
      rw [Option.map_eq_none_iff, List.find?_eq_none]
      intro entry _
      simp [← same]
    · rename_i differs
      congr 2
      funext entry
      by_cases eq : entry.1 = name :: names
      · simp [eq, differs]
      · simp [eq]

theorem get?_store_congr {disk other : Disk} {place location : Location} (below : place ≠ [])
    (node : Node) (same : other.get? location = disk.get? location) :
    (other.store place node).get? location = (disk.store place node).get? location := by
  rw [get?_store _ below, get?_store _ below, same]

theorem get?_erase_congr {disk other : Disk} {place location : Location} (below : place ≠ [])
    (same : other.get? location = disk.get? location) :
    (other.erase place).get? location = (disk.erase place).get? location := by
  rw [get?_erase _ below, get?_erase _ below, same]

end Disk

end DistDirectives
