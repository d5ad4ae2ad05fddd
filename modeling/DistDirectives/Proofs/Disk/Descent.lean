import DistDirectives.Proofs.Disk.Project

/-!
# Going down through directories

On a disk with links, a walk that keeps to names of directories cannot be diverted either.
`Reaches` is about such ways down, whatever links stand beside them. A path that goes down to a
file or a directory leads to it, unless the path is not accepted as a whole.
-/

namespace DistDirectives.Disk

/-- Names that lead from a location down to a node, each of them from a directory that is no
link. -/
inductive Reaches (disk : Disk) : Location → List Text → Node → Prop
  | here {base : Location} {node : Node} (held : disk.get? base = some node) :
      Reaches disk base [] node
  | down {base : Location} {mode : Nat} {name : Text} {rest : List Text} {node : Node}
      (directory : disk.get? base = some (.directory mode))
      (later : Reaches disk (base ++ [name]) rest node) : Reaches disk base (name :: rest) node

namespace Reaches

variable {disk : Disk} {base : Location} {names : List Text} {node : Node}

/-- What is reached is what stands there. -/
theorem held (reaches : Reaches disk base names node) : disk.get? (base ++ names) = some node := by
  induction reaches with
  | here held => simpa using held
  | down _ _ ih => simpa using ih

theorem top (reaches : Reaches disk base names node) : ∃ node, disk.get? base = some node := by
  cases reaches with
  | here held => exact ⟨node, held⟩
  | down directory _ => exact ⟨_, directory⟩

theorem cons_iff {name : Text} :
    Reaches disk base (name :: names) node ↔
      (∃ mode, disk.get? base = some (.directory mode)) ∧
        Reaches disk (base ++ [name]) names node := by
  constructor
  · intro reaches
    cases reaches with
    | down directory later => exact ⟨⟨_, directory⟩, later⟩
  · rintro ⟨⟨mode, directory⟩, later⟩
    exact .down directory later

/-- From a directory the way goes on to each of its entries. -/
theorem concat {mode : Nat} (reaches : Reaches disk base names (.directory mode)) {name : Text}
    (entry : disk.get? (base ++ names ++ [name]) = some node) :
    Reaches disk base (names ++ [name]) node := by
  generalize same : Node.directory mode = directory at reaches
  induction reaches with
  | here held =>
      subst same
      exact .down held (.here (by simpa using entry))
  | down directory _ ih => exact .down directory (ih (by simpa using entry) same)

/-- A walk goes down with names that may be looked up and are not too long, and ends with what
is reached. -/
theorem walkWithin_eq_ok_iff (reaches : Reaches disk base names node)
    (noLink : kindOf node ≠ .other)
    (descends : Descends names) (followLast : Bool) (links : Nat) {found : Found} :
    disk.walkWithin followLast links base names = .ok found ↔
      MaySearch disk base names ∧ (∀ name ∈ names, ¬ longestName < Utf8.size name) ∧
        found = .node (base ++ names) node := by
  induction reaches with
  | here held => simp [walkWithin_nil, held, eq_comm, MaySearch.nil]
  | @down base mode name rest node directory later ih =>
      obtain ⟨ne_dot, ne_dots⟩ := descends name (by simp)
      have inner : Descends rest := fun other mem => descends other (by simp [mem])
      rw [walkWithin_cons, if_neg ne_dot, MaySearch.cons_iff]
      by_cases refused : disk.allows Node.ownerSearches base = false
      · simp [refused]
      have searched := eq_true_of_ne_false refused
      rw [if_neg (by simp [searched]), if_neg ne_dots]
      by_cases long : longestName < Utf8.size name
      · simp [long]
      have behind : base ++ name :: rest = base ++ [name] ++ rest := by simp
      simp only [searched, long, if_false, List.mem_cons, forall_eq_or_imp, not_false_eq_true,
        true_and, behind]
      rw [← ih noLink inner]
      cases later with
      | here held =>
          cases node with
          | file content mode => simp [held, walkWithin_nil]
          | directory mode => simp [held]
          | link target => exact absurd rfl noLink
      | down directory later => simp only [directory]

end Reaches

section

variable {disk : Disk} {start path : Path} {place : Location} {names : List Text} {node : Node}
  {top : Nat}

/-- What a path stands for that goes down from where another path leads. -/
theorem walk_eq_ok_iff_of_reaches
    (leads : disk.walk true start.segments = .ok (.node place (.directory top)))
    (reaches : Reaches disk place names node) (noLink : kindOf node ≠ .other)
    (spells : Spells start path names) {found : Found} :
    disk.walk true path.segments = .ok found ↔
      Fits disk place start.segments names ∧ found = .node (place ++ names) node := by
  rw [spells.segments]
  have unrefused := walk_eq_ok_iff.1 leads
  cases names with
  | nil =>
      have held := reaches.held
      rw [List.append_nil, get?_of_walk leads] at held
      cases held
      have fits : Fits disk place start.segments [] :=
        ⟨by simpa using unrefused.1, by simpa using unrefused.2.1, .nil disk place, by simp⟩
      simp only [List.append_nil, leads, fits, true_and, Except.ok.injEq, eq_comm]
  | cons name rest =>
      obtain ⟨left, onwards⟩ := (leads_of_walkWithin unrefused.2.2).walkWithin_append
      rw [walk_eq_ok_iff, onwards true _ (by simp),
        reaches.walkWithin_eq_ok_iff noLink spells.descends true left]
      constructor
      · rintro ⟨noZero, size, searches, short, found_eq⟩
        exact ⟨⟨noZero, size, searches, short⟩, found_eq⟩
      · rintro ⟨fits, found_eq⟩
        exact ⟨fits.noZero, fits.size, fits.searches, fits.short, found_eq⟩

variable (leads : disk.walk true start.segments = .ok (.node place (.directory top)))
  (spells : Spells start path names)

include leads spells

/-- The directory that a path goes down to is listed as it is. -/
theorem list_eq_ok_iff_of_reaches {mode : Nat}
    (reaches : Reaches disk place names (.directory mode))
    {entries : List Entry} :
    disk.list path = .ok entries ↔
      (Fits disk place start.segments names ∧ disk.permits mode = true) ∧
        entries = (disk.children (place ++ names)).map (IsProject.entryOf path) := by
  have walks (found : Found) :=
    @walk_eq_ok_iff_of_reaches _ _ _ _ _ _ _ leads reaches (by simp [kindOf]) spells found
  rw [list_eq_ok_iff]
  constructor
  · rintro ⟨location, listedMode, walked, permitted, rfl⟩
    obtain ⟨fits, same⟩ := (walks _).1 walked
    cases same
    exact ⟨⟨fits, permitted⟩, rfl⟩
  · rintro ⟨⟨fits, permitted⟩, rfl⟩
    exact ⟨_, mode, (walks _).2 ⟨fits, rfl⟩, permitted, rfl⟩

/-- The file that a path goes down to is read as it is. -/
theorem readBytes_eq_ok_iff_of_reaches {content : Bytes} {mode : Nat}
    (reaches : Reaches disk place names (.file content mode)) {bytes : Bytes} :
    disk.readBytes path = .ok bytes ↔
      (Fits disk place start.segments names ∧ disk.permits mode = true) ∧ bytes = content := by
  have walks (found : Found) :=
    @walk_eq_ok_iff_of_reaches _ _ _ _ _ _ _ leads reaches (by simp [kindOf]) spells found
  rw [readBytes_eq_ok_iff, lookup]
  constructor
  · rintro ⟨readMode, standing, permitted⟩
    cases walked : disk.walk true path.segments with
    | error fault => simp [walked] at standing
    | ok found =>
        obtain ⟨fits, rfl⟩ := (walks found).1 walked
        rw [walked] at standing
        cases standing
        exact ⟨⟨fits, permitted⟩, rfl⟩
  · rintro ⟨⟨fits, permitted⟩, rfl⟩
    rw [(walks _).2 ⟨fits, rfl⟩]
    exact ⟨mode, rfl, permitted⟩

end

end DistDirectives.Disk
