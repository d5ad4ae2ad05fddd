import Mathlib.Data.List.Nodup
import Mathlib.Data.List.Sort
import DistDirectives.Disk.Files

/-!
# Entries of directories

A listing shows what the locations one name below a directory hold, each name once and in
increasing order. So two listings agree as soon as these locations hold the same nodes,
and the directories among them agree as soon as these locations hold directories alike.
In the same way two disks are equal as soon as they hold the same everywhere.
-/

namespace DistDirectives.Disk

theorem nodup_locations (disk : Disk) : (disk.entries.map (·.1)).Nodup := by
  refine List.pairwise_map.2 (disk.sorted.imp fun {left right} lower same => ?_)
  rw [same] at lower
  exact List.lt_irrefl right.1 lower

theorem mem_entries_iff {disk : Disk} {location : Location} {node : Node} (below : location ≠ []) :
    (location, node) ∈ disk.entries ↔ disk.get? location = some node := by
  cases location with
  | nil => exact absurd rfl below
  | cons name names =>
      rw [get?, Option.map_eq_some_iff]
      constructor
      · intro mem
        cases found : disk.entries.find? fun entry => entry.1 == name :: names with
        | none => simpa using List.find?_eq_none.1 found _ mem
        | some entry =>
            have same : entry.1 = name :: names := by simpa using List.find?_some found
            have once := List.inj_on_of_nodup_map disk.nodup_locations
              (List.mem_of_find?_eq_some found) mem same
            exact ⟨entry, rfl, by rw [once]⟩
      · rintro ⟨entry, found, rfl⟩
        have same : entry.1 = name :: names := by simpa using List.find?_some found
        rw [← same]
        exact List.mem_of_find?_eq_some found

theorem mem_children_iff {disk : Disk} {location : Location} {name : Text} {node : Node} :
    (name, node) ∈ disk.children location ↔ disk.get? (location ++ [name]) = some node := by
  rw [← mem_entries_iff (by simp), children, List.mem_filterMap]
  constructor
  · rintro ⟨entry, mem, shown⟩
    split at shown
    · rename_i found
      cases shown
      rwa [← Text.after?_eq_some_iff.1 found]
    · contradiction
  · intro mem
    exact ⟨_, mem, by simp [Text.after?_append]⟩

/-- The entries of a directory come in increasing order of their names. -/
theorem pairwise_children (disk : Disk) (location : Location) :
    (disk.children location).Pairwise fun left right => left.1 < right.1 := by
  rw [children, List.pairwise_filterMap]
  refine disk.sorted.imp fun {left right} lower leftChild leftShown rightChild rightShown => ?_
  split at leftShown
  · split at rightShown
    · rename_i leftName leftFound _ rightName rightFound
      cases leftShown
      cases rightShown
      rw [Text.after?_eq_some_iff.1 leftFound, Text.after?_eq_some_iff.1 rightFound] at lower
      clear leftFound rightFound
      induction location with
      | nil => simpa [List.cons_lt_cons_iff] using lower
      | cons first rest ih => exact ih (by simpa using lower)
    · contradiction
  · contradiction

/-- Directories with the same nodes under the same names have the same entries. -/
theorem children_congr {disk other : Disk} {location place : Location}
    (same : ∀ name, other.get? (place ++ [name]) = disk.get? (location ++ [name])) :
    other.children place = disk.children location := by
  have antisymm : Std.Antisymm fun left right : Text × Node => left.1 < right.1 :=
    ⟨fun _ _ lower upper => absurd upper (List.lt_asymm lower)⟩
  have irrefl : Std.Irrefl fun left right : Text × Node => left.1 < right.1 :=
    ⟨fun child => List.lt_irrefl child.1⟩
  apply (other.pairwise_children place).eq_of_mem_iff (disk.pairwise_children location)
  rintro ⟨name, node⟩
  rw [mem_children_iff, mem_children_iff, same]

/-- The names of the directories below a location, in increasing order. -/
def directoryNames (disk : Disk) (location : Location) : List Text :=
  ((disk.children location).filter fun child => kindOf child.2 == .directory).map (·.1)

theorem mem_directoryNames_iff {disk : Disk} {location : Location} {name : Text} :
    name ∈ disk.directoryNames location ↔
      ∃ mode, disk.get? (location ++ [name]) = some (.directory mode) := by
  simp only [directoryNames, List.mem_map, List.mem_filter, beq_iff_eq]
  constructor
  · rintro ⟨⟨name, node⟩, ⟨mem, kind⟩, rfl⟩
    rw [mem_children_iff] at mem
    cases node with
    | directory mode => exact ⟨mode, mem⟩
    | file content mode => contradiction
    | link target => contradiction
  · rintro ⟨mode, found⟩
    exact ⟨(name, .directory mode), ⟨mem_children_iff.2 found, rfl⟩, rfl⟩

theorem pairwise_directoryNames (disk : Disk) (location : Location) :
    (disk.directoryNames location).Pairwise (· < ·) :=
  List.pairwise_map.2 ((disk.pairwise_children location).filter _)

/-- Names in increasing order are determined by which names there are. -/
theorem eq_of_increasing {names others : List Text} (increasing : names.Pairwise (· < ·))
    (othersIncreasing : others.Pairwise (· < ·)) (same : ∀ name, name ∈ others ↔ name ∈ names) :
    others = names := by
  have antisymm : Std.Antisymm fun left right : Text => left < right :=
    ⟨fun _ _ lower upper => absurd upper (List.lt_asymm lower)⟩
  exact othersIncreasing.eq_of_mem_iff increasing fun {name} => same name

/-- Directories with directories under the same names list the same directories. -/
theorem directoryNames_congr {disk other : Disk} {location place : Location}
    (same : ∀ name, (∃ mode, other.get? (place ++ [name]) = some (.directory mode)) ↔
      ∃ mode, disk.get? (location ++ [name]) = some (.directory mode)) :
    other.directoryNames place = disk.directoryNames location := by
  apply eq_of_increasing (disk.pairwise_directoryNames location)
    (other.pairwise_directoryNames place)
  intro name
  rw [mem_directoryNames_iff, mem_directoryNames_iff, same]

/-! ## Listed directories -/

/-- A path leads to a directory that may be listed. -/
def IsListable (disk : Disk) (path : Path) : Prop :=
  ∃ place mode, disk.walk true path.segments = .ok (.node place (.directory mode)) ∧
    disk.permits mode = true

/-- The names of the directories in the directory at a path, which may be listed, in
increasing order. Links do not count, whatever they stand for. -/
structure Lists (disk : Disk) (path : Path) (names : List Text) : Prop where
  complete : ∃ place mode, disk.walk true path.segments = .ok (.node place (.directory mode)) ∧
    disk.permits mode = true ∧
    ∀ name, name ∈ names ↔ ∃ inner, disk.get? (place ++ [name]) = some (.directory inner)
  increasing : names.Pairwise (· < ·)

/-- There is one list of names. -/
theorem Lists.unique {disk : Disk} {path : Path} {names others : List Text}
    (lists : disk.Lists path names) (again : disk.Lists path others) : others = names := by
  obtain ⟨⟨place, mode, leads, -, mem_iff⟩, increasing⟩ := lists
  obtain ⟨⟨_, _, leadsAgain, -, mem_iff_again⟩, increasingAgain⟩ := again
  rw [leads] at leadsAgain
  cases leadsAgain
  apply eq_of_increasing increasing increasingAgain
  intro name
  rw [mem_iff, mem_iff_again]

/-- The directories among the entries of a directory. -/
theorem names_of_directories (disk : Disk) (path : Path) (location : Location) :
    (((disk.children location).map fun child =>
      ({ name := child.1, path := path.join child.1, kind := kindOf child.2 } : Entry)).filter
        (·.kind == .directory)).map (·.name) = disk.directoryNames location := by
  rw [List.filter_map, List.map_map]
  rfl

theorem lists_directoryNames {disk : Disk} {path : Path} {place : Location} {mode : Nat}
    (leads : disk.walk true path.segments = .ok (.node place (.directory mode)))
    (permitted : disk.permits mode = true) : disk.Lists path (disk.directoryNames place) :=
  ⟨⟨place, mode, leads, permitted, fun _ => mem_directoryNames_iff⟩,
    disk.pairwise_directoryNames place⟩

/-- Exactly the directories that may be listed are listed. -/
theorem isListable_iff_exists_lists {disk : Disk} {path : Path} :
    disk.IsListable path ↔ ∃ names, disk.Lists path names := by
  constructor
  · rintro ⟨place, mode, leads, permitted⟩
    exact ⟨_, lists_directoryNames leads permitted⟩
  · rintro ⟨names, ⟨place, mode, leads, permitted, -⟩, -⟩
    exact ⟨place, mode, leads, permitted⟩

/-- A listing shows the entries of a directory that may be listed. -/
theorem list_eq_ok_iff {disk : Disk} {path : Path} {entries : List Entry} :
    disk.list path = .ok entries ↔
      ∃ place mode, disk.walk true path.segments = .ok (.node place (.directory mode)) ∧
        disk.permits mode = true ∧
        entries = (disk.children place).map fun child =>
          { name := child.1, path := path.join child.1, kind := kindOf child.2 } := by
  rw [list]
  constructor
  · intro listed
    split at listed
    · rename_i place mode leads
      split at listed
      · rename_i permitted
        cases listed
        exact ⟨place, mode, leads, permitted, rfl⟩
      · contradiction
    all_goals contradiction
  · rintro ⟨place, mode, leads, permitted, rfl⟩
    simp only [leads, permitted, if_true]

theorem listDirectories_eq_ok_iff {disk : Disk} {path : Path} {names : List Text} :
    disk.listDirectories path = .ok names ↔
      ∃ entries, disk.list path = .ok entries ∧
        (entries.filter (·.kind == .directory)).map (·.name) = names := by
  rw [listDirectories]
  cases disk.list path with
  | error error => simp [bind, Except.bind]
  | ok entries => simp [bind, Except.bind, pure, Except.pure]

/-- A directory is listed by the names of the directories in it, and nothing but a directory
that may be listed is. -/
theorem listDirectories_eq_ok_iff_lists {disk : Disk} {path : Path} {names : List Text} :
    disk.listDirectories path = .ok names ↔ disk.Lists path names := by
  rw [listDirectories_eq_ok_iff]
  constructor
  · rintro ⟨entries, listed, rfl⟩
    obtain ⟨place, mode, leads, permitted, rfl⟩ := list_eq_ok_iff.1 listed
    rw [names_of_directories]
    exact lists_directoryNames leads permitted
  · intro lists
    obtain ⟨place, mode, leads, permitted, -⟩ := lists.complete
    refine ⟨_, list_eq_ok_iff.2 ⟨place, mode, leads, permitted, rfl⟩, ?_⟩
    rw [names_of_directories, (lists_directoryNames leads permitted).unique lists]

theorem requireDirectory_eq_ok_iff_isDirectory {disk : Disk} {path : Path} :
    disk.requireDirectory path = .ok () ↔ disk.isDirectory path = true := by
  rw [requireDirectory, isDirectory]
  split <;> simp_all

/-! ## Equal disks -/

/-- What no location shows: the rights of the process, and what is listed for the top directory
itself. Nothing that happens below the top changes it. -/
def background (disk : Disk) : Bool × Option (Location × Node) :=
  (disk.privileged, disk.entries.find? fun entry => entry.1 == [])

theorem privileged_of_background {disk other : Disk} (same : other.background = disk.background) :
    other.privileged = disk.privileged := congrArg Prod.fst same

theorem background_store (disk : Disk) {location : Location} (below : location ≠ []) (node : Node) :
    (disk.store location node).background = disk.background := by
  simp only [background, store, find?_storeIn, if_neg below.symm]

theorem background_erase (disk : Disk) {location : Location} (below : location ≠ []) :
    (disk.erase location).background = disk.background := by
  simp only [background, erase, List.find?_filter]
  congr 2
  funext entry
  by_cases top : entry.1 = []
  · simp [top, below.symm]
  · simp [top]

theorem mem_entries_top_iff {disk : Disk} {node : Node} :
    ([], node) ∈ disk.entries ↔ disk.background.2 = some ([], node) := by
  constructor
  · intro mem
    cases found : disk.background.2 with
    | none => simpa using List.find?_eq_none.1 found _ mem
    | some entry =>
        have top : entry.1 = [] := by simpa using List.find?_some found
        rw [List.inj_on_of_nodup_map disk.nodup_locations (List.mem_of_find?_eq_some found) mem top]
  · exact List.mem_of_find?_eq_some

/-- Disks with the same node at every location are equal. -/
theorem eq_of_get? {disk other : Disk} (top : other.background = disk.background)
    (same : ∀ location, other.get? location = disk.get? location) : other = disk := by
  have antisymm : Std.Antisymm fun left right : Location × Node => left.1 < right.1 :=
    ⟨fun _ _ lower upper => absurd upper (List.lt_asymm lower)⟩
  have irrefl : Std.Irrefl fun left right : Location × Node => left.1 < right.1 :=
    ⟨fun entry => List.lt_irrefl entry.1⟩
  have entries : other.entries = disk.entries := by
    apply other.sorted.eq_of_mem_iff disk.sorted
    rintro ⟨location, node⟩
    by_cases below : location = []
    · rw [below, mem_entries_top_iff, mem_entries_top_iff, top]
    · rw [mem_entries_iff below, mem_entries_iff below, same]
  have rights := privileged_of_background top
  cases disk
  cases other
  simp_all

end DistDirectives.Disk
