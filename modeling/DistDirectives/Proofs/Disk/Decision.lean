import DistDirectives.Proofs.Disk.Project

/-!
# Deciding whether a disk holds a project

A disk is a finite list of entries, so it can be decided whether there is a tree with plain
names at a location: every entry below the location is looked at once.
-/

namespace DistDirectives

namespace Path

theorem isPlainName_iff {name : Text} :
    IsPlainName name ↔
      name ≠ [] ∧ name ≠ ['.'] ∧ '/' ∉ name ∧ '\\' ∉ name ∧ name ≠ ['.', '.'] := by
  constructor
  · intro plain
    exact ⟨plain.ne_nil, plain.ne_dot, plain.no_slash, plain.no_backslash, plain.ne_dots⟩
  · rintro ⟨ne_nil, ne_dot, no_slash, no_backslash, ne_dots⟩
    exact ⟨⟨ne_nil, ne_dot, no_slash, no_backslash⟩, ne_dots⟩

instance (name : Text) : Decidable (IsPlainName name) := decidable_of_iff' _ isPlainName_iff

end Path

namespace Disk

/-- Whether a directory is held. -/
def isDirectoryNode : Option Node → Bool
  | some (.directory _) => true
  | _ => false

theorem isDirectoryNode_iff {held : Option Node} :
    isDirectoryNode held = true ↔ ∃ mode, held = some (.directory mode) := by
  constructor
  · intro holds
    unfold isDirectoryNode at holds
    split at holds
    · exact ⟨_, rfl⟩
    · contradiction
  · rintro ⟨mode, rfl⟩
    rfl

/-- Whether a node is no link. -/
def isLinkFree : Node → Bool
  | .link _ => false
  | _ => true

/-- Whether an entry can stand where it does, in a tree with plain names at a location. -/
def fitsBelow (disk : Disk) (base : Location) (entry : Location × Node) : Bool :=
  match Text.after? base entry.1 with
  | none | some [] => true
  | some (name :: names) =>
    decide (∀ segment ∈ name :: names, Path.IsPlainName segment) && isLinkFree entry.2 &&
      isDirectoryNode (disk.get? (base ++ (name :: names).dropLast))

/-- Whether there is a tree with plain names at a location. -/
def holdsPlainTree (disk : Disk) (base : Location) : Bool :=
  isDirectoryNode (disk.get? base) && disk.entries.all (disk.fitsBelow base)

theorem fitsBelow_of_get? {disk : Disk} {base : Location} (holds : disk.holdsPlainTree base = true)
    {place : Location} {name : Text} {node : Node}
    (held : disk.get? (base ++ (place ++ [name])) = some node) :
    (∀ segment ∈ place ++ [name], Path.IsPlainName segment) ∧ isLinkFree node = true ∧
      ∃ mode, disk.get? (base ++ place) = some (.directory mode) := by
  rw [holdsPlainTree, Bool.and_eq_true, List.all_eq_true] at holds
  have fits := holds.2 _ ((mem_entries_iff (by simp)).2 held)
  rw [fitsBelow, Text.after?_append] at fits
  cases split : place ++ [name] with
  | nil => simp at split
  | cons first names =>
      simp only [split, Bool.and_eq_true, decide_eq_true_eq] at fits
      rw [← split, List.dropLast_concat, isDirectoryNode_iff] at fits
      exact ⟨split ▸ fits.1.1, fits.1.2, fits.2⟩

/-- The decision is right about the tree and about its names. -/
theorem isTree_of_holdsPlainTree {disk : Disk} {base : Location}
    (holds : disk.holdsPlainTree base = true) : IsTree disk base ∧ HasPlainNames disk base := by
  have top : ∃ mode, disk.get? base = some (.directory mode) := by
    rw [holdsPlainTree, Bool.and_eq_true] at holds
    exact isDirectoryNode_iff.1 holds.1
  refine ⟨⟨top, ?_, ?_⟩, ?_⟩
  · intro place target link
    rcases List.eq_nil_or_concat place with rfl | ⟨front, name, rfl⟩
    · rcases top with ⟨mode, directory⟩
      rw [List.append_nil, directory] at link
      cases link
    · rw [List.concat_eq_append] at link
      have free := (fitsBelow_of_get? holds link).2.1
      contradiction
  · intro place name node held
    rw [List.append_assoc] at held
    exact (fitsBelow_of_get? holds held).2.2
  · intro place name node held
    rw [List.append_assoc] at held
    exact (fitsBelow_of_get? holds held).1 name (by simp)

theorem isPlainProject_of_holdsPlainTree {disk : Disk} {root : Path} {base : Location} {mode : Nat}
    (reached : disk.walk true root.segments = .ok (.node base (.directory mode)))
    (holds : disk.holdsPlainTree base = true) : IsPlainProject disk root base :=
  have tree := isTree_of_holdsPlainTree holds
  ⟨⟨⟨mode, reached⟩, tree.1⟩, tree.2⟩

/-- The names below a location are plain when all names are. -/
theorem hasPlainNames_of_entries {disk : Disk} (base : Location)
    (plain : ∀ entry ∈ disk.entries, ∀ name ∈ entry.1, Path.IsPlainName name) :
    HasPlainNames disk base := by
  intro place name node held
  exact plain _ ((mem_entries_iff (by simp)).2 held) name (by simp)

/-- Without links, and with every node in a directory, a disk is a tree. -/
theorem isTree_of_entries {disk : Disk} {base : Location}
    (top : isDirectoryNode (disk.get? base) = true)
    (linkFree : ∀ entry ∈ disk.entries, isLinkFree entry.2 = true)
    (outer : ∀ entry ∈ disk.entries, isDirectoryNode (disk.get? entry.1.dropLast) = true) :
    IsTree disk base := by
  refine ⟨isDirectoryNode_iff.1 top, fun place target link => ?_, fun place name node held => ?_⟩
  · have nonempty : base ++ place ≠ [] := by
      intro same
      rw [same, get?_nil] at link
      cases link
    have free := linkFree _ ((mem_entries_iff nonempty).2 link)
    contradiction
  · have above := outer _ ((mem_entries_iff (by simp)).2 held)
    rwa [List.dropLast_concat, isDirectoryNode_iff] at above

end Disk

end DistDirectives
