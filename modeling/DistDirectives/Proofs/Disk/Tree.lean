import Mathlib.Tactic.ByContra
import DistDirectives.Disk.Walk

/-!
# Trees without links

In a tree there are regular files and directories, no links, and nothing without a
directory around it. A project is a path that leads to the top of a tree. Behind such a
path a walk cannot be diverted: it ends at the location that the names spell, whatever
else is on the disk. `IsProject.walk_below_eq_ok_iff` says so, and is all that later files
use of walks.
-/

namespace DistDirectives.Disk

/-! ## Walks behind a directory that was reached -/

/-- How a walk goes on behind a link when it can follow a number of links. -/
def behindLink (disk : Disk) (followLast : Bool) : Nat → Location → List Text → Except Fault Found
  | 0 => fun _ _ => .error .tooManyLinks
  | links + 1 => walkWithin disk followLast links

theorem walkWithin_eq (disk : Disk) (followLast : Bool) (links : Nat) :
    walkWithin disk followLast links =
      walkFrom disk followLast (behindLink disk followLast links) := by
  cases links <;> rfl

/-- The first step of a walk. -/
theorem walkWithin_cons (disk : Disk) (followLast : Bool) (links : Nat) (here : Location)
    (name : Text) (rest : List Text) :
    disk.walkWithin followLast links here (name :: rest) =
      if name = ['.'] then disk.walkWithin followLast links here rest
      else if !disk.allows Node.ownerSearches here then .error .accessDenied
      else if name = ['.', '.'] then disk.walkWithin followLast links here.dropLast rest
      else if longestName < Utf8.size name then .error .nameTooLong
      else
        match disk.get? (here ++ [name]) with
        | none => if rest.isEmpty then .ok (.vacant here name) else .error .notFound
        | some (.file content mode) =>
          if rest.isEmpty then .ok (.node (here ++ [name]) (.file content mode))
          else .error .notDirectory
        | some (.directory _) => disk.walkWithin followLast links (here ++ [name]) rest
        | some (.link target) =>
          if rest.isEmpty && !followLast then .ok (.node (here ++ [name]) (.link target))
          else behindLink disk followLast links (linkOrigin here target)
            (rawNames target ++ rest) := by
  rw [walkWithin_eq]
  rfl

theorem walkWithin_nil (disk : Disk) (followLast : Bool) (links : Nat) (here : Location) :
    disk.walkWithin followLast links here [] =
      .ok (.node here ((disk.get? here).getD (.directory Node.directoryMode))) := by
  rw [walkWithin_eq, walkFrom]

theorem walkWithin_stay (disk : Disk) (followLast : Bool) (links : Nat) (here : Location)
    (rest : List Text) :
    disk.walkWithin followLast links here (['.'] :: rest) =
      disk.walkWithin followLast links here rest := by
  rw [walkWithin_cons, if_pos rfl]

theorem walkWithin_up {disk : Disk} {here : Location}
    (searched : disk.allows Node.ownerSearches here = true) (followLast : Bool) (links : Nat)
    (rest : List Text) :
    disk.walkWithin followLast links here (['.', '.'] :: rest) =
      disk.walkWithin followLast links here.dropLast rest := by
  rw [walkWithin_cons, if_neg (by decide), if_neg (by simp [searched]), if_pos rfl]

/-- A name that a walk looks up in a directory, and does not refuse for its length. -/
structure IsLookedUp (disk : Disk) (here : Location) (name : Text) : Prop where
  ne_dot : name ≠ ['.']
  searched : disk.allows Node.ownerSearches here = true
  ne_dots : name ≠ ['.', '.']
  short : ¬ longestName < Utf8.size name

theorem walkWithin_lookedUp (disk : Disk) (followLast : Bool) (links : Nat) (here : Location)
    {name : Text} (lookedUp : IsLookedUp disk here name) (rest : List Text) :
    disk.walkWithin followLast links here (name :: rest) =
      match disk.get? (here ++ [name]) with
      | none => if rest.isEmpty then .ok (.vacant here name) else .error .notFound
      | some (.file content mode) =>
        if rest.isEmpty then .ok (.node (here ++ [name]) (.file content mode))
        else .error .notDirectory
      | some (.directory _) => disk.walkWithin followLast links (here ++ [name]) rest
      | some (.link target) =>
        if rest.isEmpty && !followLast then .ok (.node (here ++ [name]) (.link target))
        else behindLink disk followLast links (linkOrigin here target)
          (rawNames target ++ rest) := by
  rw [walkWithin_cons, if_neg lookedUp.ne_dot, if_neg (by simp [lookedUp.searched]),
    if_neg lookedUp.ne_dots, if_neg lookedUp.short]

/-- A location that a walk can come by: there are directories all the way. -/
def IsReached (disk : Disk) (here : Location) : Prop :=
  ∀ above, above <+: here → ∃ mode, disk.get? above = some (.directory mode)

namespace IsReached

variable {disk : Disk} {here : Location}

theorem top (disk : Disk) : IsReached disk [] := by
  intro above isAbove
  rw [List.prefix_nil.1 isAbove]
  exact ⟨_, disk.get?_nil⟩

theorem directory (reached : IsReached disk here) :
    ∃ mode, disk.get? here = some (.directory mode) :=
  reached here (List.prefix_refl here)

theorem dropLast (reached : IsReached disk here) : IsReached disk here.dropLast :=
  fun above isAbove => reached above (isAbove.trans (List.dropLast_prefix here))

theorem concat (reached : IsReached disk here) {name : Text} {mode : Nat}
    (found : disk.get? (here ++ [name]) = some (.directory mode)) :
    IsReached disk (here ++ [name]) := by
  intro above isAbove
  rcases List.prefix_concat_iff.1 isAbove with rfl | isAbove
  · exact ⟨mode, found⟩
  · exact reached above isAbove

theorem linkOrigin (reached : IsReached disk here) (target : Text) :
    IsReached disk (linkOrigin here target) := by
  rw [Disk.linkOrigin]
  split
  · exact top disk
  · exact reached

theorem walkWithin_nil_ne (reached : IsReached disk here) (links : Nat) (location : Location)
    (content : Bytes) (mode : Nat) :
    disk.walkWithin true links here [] ≠ .ok (.node location (.file content mode)) := by
  rcases reached.directory with ⟨_, directory⟩
  rw [walkWithin_nil, directory]
  simp

end IsReached

/-- A walk with a number of links that leads to a directory, step by step. -/
inductive Leads (disk : Disk) (base : Location) : Nat → Location → List Text → Prop
  | arrived (links : Nat) (mode : Nat)
      (directory : (disk.get? base).getD (.directory Node.directoryMode) = .directory mode) :
      Leads disk base links base []
  | stay {links : Nat} {here : Location} {rest : List Text}
      (later : Leads disk base links here rest) :
      Leads disk base links here (['.'] :: rest)
  | up {links : Nat} {here : Location} {rest : List Text}
      (searched : disk.allows Node.ownerSearches here = true)
      (later : Leads disk base links here.dropLast rest) :
      Leads disk base links here (['.', '.'] :: rest)
  | down {links : Nat} {here : Location} {name : Text} {rest : List Text} {mode : Nat}
      (lookedUp : IsLookedUp disk here name)
      (found : disk.get? (here ++ [name]) = some (.directory mode))
      (later : Leads disk base links (here ++ [name]) rest) :
      Leads disk base links here (name :: rest)
  | follow {links : Nat} {here : Location} {name target : Text} {rest : List Text}
      (lookedUp : IsLookedUp disk here name)
      (found : disk.get? (here ++ [name]) = some (.link target))
      (later : Leads disk base links (linkOrigin here target) (rawNames target ++ rest)) :
      Leads disk base (links + 1) here (name :: rest)

/-- What the first step of a walk can be that comes to an end, links followed. -/
inductive FirstStep (disk : Disk) (here : Location) (found : Found) : Nat → Text → List Text → Prop
  | stay {links : Nat} {rest : List Text}
      (later : disk.walkWithin true links here rest = .ok found) :
      FirstStep disk here found links ['.'] rest
  | up {links : Nat} {rest : List Text}
      (searched : disk.allows Node.ownerSearches here = true)
      (later : disk.walkWithin true links here.dropLast rest = .ok found) :
      FirstStep disk here found links ['.', '.'] rest
  | vacant {links : Nat} {name : Text} (lookedUp : IsLookedUp disk here name)
      (free : disk.get? (here ++ [name]) = none) (ends : found = .vacant here name) :
      FirstStep disk here found links name []
  | file {links : Nat} {name : Text} {content : Bytes} {mode : Nat}
      (lookedUp : IsLookedUp disk here name)
      (held : disk.get? (here ++ [name]) = some (.file content mode))
      (ends : found = .node (here ++ [name]) (.file content mode)) :
      FirstStep disk here found links name []
  | down {links : Nat} {name : Text} {rest : List Text} {mode : Nat}
      (lookedUp : IsLookedUp disk here name)
      (held : disk.get? (here ++ [name]) = some (.directory mode))
      (later : disk.walkWithin true links (here ++ [name]) rest = .ok found) :
      FirstStep disk here found links name rest
  | follow {links : Nat} {name target : Text} {rest : List Text}
      (lookedUp : IsLookedUp disk here name)
      (held : disk.get? (here ++ [name]) = some (.link target))
      (later : disk.walkWithin true links (linkOrigin here target)
        (rawNames target ++ rest) = .ok found) :
      FirstStep disk here found (links + 1) name rest

theorem firstStep_of_walkWithin {disk : Disk} {links : Nat} {here : Location} {found : Found}
    {name : Text} {rest : List Text}
    (walked : disk.walkWithin true links here (name :: rest) = .ok found) :
    FirstStep disk here found links name rest := by
  by_cases dot : name = ['.']
  · subst dot
    rw [walkWithin_stay] at walked
    exact .stay walked
  by_cases refused : disk.allows Node.ownerSearches here = false
  · rw [walkWithin_cons, if_neg dot, if_pos (by simp [refused])] at walked
    contradiction
  have searched := eq_true_of_ne_false refused
  by_cases dots : name = ['.', '.']
  · subst dots
    rw [walkWithin_up searched] at walked
    exact .up searched walked
  by_cases long : longestName < Utf8.size name
  · rw [walkWithin_cons, if_neg dot, if_neg (by simp [searched]), if_neg dots, if_pos long]
      at walked
    contradiction
  have lookedUp : IsLookedUp disk here name := ⟨dot, searched, dots, long⟩
  rw [walkWithin_lookedUp disk true links here lookedUp] at walked
  cases held : disk.get? (here ++ [name]) with
  | none =>
      simp only [held] at walked
      split at walked
      · rename_i none_left
        rw [List.isEmpty_iff.1 none_left]
        exact .vacant lookedUp held (Except.ok.inj walked).symm
      · contradiction
  | some node =>
      cases node with
      | file content mode =>
          simp only [held] at walked
          split at walked
          · rename_i none_left
            rw [List.isEmpty_iff.1 none_left]
            exact .file lookedUp held (Except.ok.inj walked).symm
          · contradiction
      | directory mode =>
          simp only [held] at walked
          exact .down lookedUp held walked
      | link target =>
          simp only [held, Bool.not_true, Bool.and_false, Bool.false_eq_true, if_false] at walked
          cases links with
          | zero => contradiction
          | succ links => exact .follow lookedUp held walked

/-- A walk that ends at a directory leads there. -/
theorem leads_of_walkWithin {disk : Disk} {base : Location} {links mode : Nat} {here : Location}
    {names : List Text}
    (reached : disk.walkWithin true links here names = .ok (.node base (.directory mode))) :
    Leads disk base links here names := by
  -- a step takes a name away, or uses up a link and can bring new names
  induction links using Nat.strongRecOn generalizing here names with
  | ind links fewerLinks =>
      induction names generalizing here with
      | nil =>
          rw [walkWithin_nil, Except.ok.injEq, Found.node.injEq] at reached
          rcases reached with ⟨rfl, directory⟩
          exact .arrived links mode directory
      | cons name rest ih =>
          cases firstStep_of_walkWithin reached with
          | stay later => exact .stay (ih later)
          | up searched later => exact .up searched (ih later)
          | vacant _ _ ends => contradiction
          | file _ _ ends => simp at ends
          | down lookedUp held later => exact .down lookedUp held (ih later)
          | follow lookedUp held later =>
              exact .follow lookedUp held (fewerLinks _ (Nat.lt_succ_self _) later)

namespace Leads

variable {disk : Disk} {base here : Location} {links : Nat} {names : List Text}

/-- A walk that leads to a directory goes on from there with the links that are left. -/
theorem walkWithin_append (leads : Leads disk base links here names) :
    ∃ left, ∀ followLast rest, rest ≠ [] →
      disk.walkWithin followLast links here (names ++ rest) =
        disk.walkWithin followLast left base rest := by
  induction leads with
  | arrived links => exact ⟨links, fun _ _ _ => rfl⟩
  | stay _ ih =>
      rcases ih with ⟨left, ih⟩
      refine ⟨left, fun followLast rest nonempty => ?_⟩
      rw [List.cons_append, walkWithin_stay, ih followLast rest nonempty]
  | up searched _ ih =>
      rcases ih with ⟨left, ih⟩
      refine ⟨left, fun followLast rest nonempty => ?_⟩
      rw [List.cons_append, walkWithin_up searched, ih followLast rest nonempty]
  | down lookedUp found _ ih =>
      rcases ih with ⟨left, ih⟩
      refine ⟨left, fun followLast rest nonempty => ?_⟩
      simp only [List.cons_append, walkWithin_lookedUp _ _ _ _ lookedUp, found]
      exact ih followLast rest nonempty
  | follow lookedUp found _ ih =>
      rcases ih with ⟨left, ih⟩
      refine ⟨left, fun followLast rest nonempty => ?_⟩
      have more : ∀ names : List Text, (names ++ rest).isEmpty = false := by simp [nonempty]
      simp only [List.cons_append, walkWithin_lookedUp _ _ _ _ lookedUp, found, more,
        Bool.false_and,
        Bool.false_eq_true, if_false]
      rw [← List.append_assoc]
      exact ih followLast rest nonempty

/-- The end of a walk that leads to a directory. -/
theorem walkWithin_eq (leads : Leads disk base links here names) :
    disk.walkWithin true links here names =
      .ok (.node base ((disk.get? base).getD (.directory Node.directoryMode))) := by
  induction leads with
  | arrived links => rw [walkWithin_nil]
  | stay _ ih => rw [walkWithin_stay, ih]
  | up searched _ ih => rw [walkWithin_up searched, ih]
  | down lookedUp found _ ih => simp only [walkWithin_lookedUp _ _ _ _ lookedUp, found, ih]
  | follow lookedUp found _ ih =>
      simp only [walkWithin_lookedUp _ _ _ _ lookedUp, found, Bool.not_true, Bool.and_false,
        Bool.false_eq_true, if_false]
      exact ih

/-- Even if a link at the end is not followed, the walk ends at something. -/
theorem exists_node (leads : Leads disk base links here names) :
    ∃ location node, disk.walkWithin false links here names = .ok (.node location node) := by
  induction leads with
  | arrived links => exact ⟨_, _, walkWithin_nil _ _ _ _⟩
  | stay _ ih => rwa [walkWithin_stay]
  | up searched _ ih => rwa [walkWithin_up searched]
  | down lookedUp found _ ih => simpa only [walkWithin_lookedUp _ _ _ _ lookedUp, found] using ih
  | @follow links here name target rest lookedUp found _ ih =>
      simp only [walkWithin_lookedUp _ _ _ _ lookedUp, found, Bool.not_false, Bool.and_true]
      split
      · exact ⟨_, _, rfl⟩
      · exact ih

/-- A walk that starts among directories stays among them. -/
theorem isReached (leads : Leads disk base links here names) (reached : IsReached disk here) :
    IsReached disk base := by
  induction leads with
  | arrived => exact reached
  | stay _ ih => exact ih reached
  | up _ _ ih => exact ih reached.dropLast
  | down _ found _ ih => exact ih (reached.concat found)
  | @follow _ _ _ target _ _ _ _ ih => exact ih (reached.linkOrigin target)

/-- On the way to a directory a walk does not come to a file. -/
theorem walkWithin_ne_file (leads : Leads disk base links here names)
    (reached : IsReached disk here)
    {front : List Text} (isFront : front <+: names) (others : Nat) (location : Location)
    (content : Bytes) (mode : Nat) :
    disk.walkWithin true others here front ≠ .ok (.node location (.file content mode)) := by
  induction leads generalizing others front with
  | arrived =>
      rw [List.prefix_nil.1 isFront]
      exact reached.walkWithin_nil_ne others location content mode
  | stay _ ih =>
      rcases List.prefix_cons_iff.1 isFront with rfl | ⟨front, rfl, inner⟩
      · exact reached.walkWithin_nil_ne others location content mode
      · rw [walkWithin_stay]
        exact ih reached inner others
  | up searched _ ih =>
      rcases List.prefix_cons_iff.1 isFront with rfl | ⟨front, rfl, inner⟩
      · exact reached.walkWithin_nil_ne others location content mode
      · rw [walkWithin_up searched]
        exact ih reached.dropLast inner others
  | down lookedUp found _ ih =>
      rcases List.prefix_cons_iff.1 isFront with rfl | ⟨front, rfl, inner⟩
      · exact reached.walkWithin_nil_ne others location content mode
      · simp only [walkWithin_lookedUp _ _ _ _ lookedUp, found]
        exact ih (reached.concat found) inner others
  | @follow _ _ _ target _ lookedUp found _ ih =>
      rcases List.prefix_cons_iff.1 isFront with rfl | ⟨front, rfl, inner⟩
      · exact reached.walkWithin_nil_ne others location content mode
      · simp only [walkWithin_lookedUp _ _ _ _ lookedUp, found, Bool.not_true, Bool.and_false,
          Bool.false_eq_true, if_false]
        cases others with
        | zero => simp [behindLink]
        | succ others =>
            exact ih (reached.linkOrigin target) ((List.prefix_append_right_inj _).2 inner) others

end Leads

/-- A file, or a link that leads to one. -/
inductive StandsForFile (disk : Disk) : Location → Prop
  | file {location : Location} {content : Bytes} {mode : Nat}
      (held : disk.get? location = some (.file content mode)) : StandsForFile disk location
  | link {outer found : Location} {name target : Text} {links mode : Nat} {content : Bytes}
      (held : disk.get? (outer ++ [name]) = some (.link target))
      (leads : disk.walkWithin true links (linkOrigin outer target) (rawNames target) =
        .ok (.node found (.file content mode))) : StandsForFile disk (outer ++ [name])

theorem not_standsForFile_of_directory {disk : Disk} {location : Location} {mode : Nat}
    (directory : disk.get? location = some (.directory mode)) : ¬ StandsForFile disk location := by
  intro stands
  cases stands with
  | file held => simp [directory] at held
  | link held => simp [directory] at held

/-- A walk that leads to a directory does so for the same process on every disk that has all but
files and links to files. -/
theorem Leads.mono {disk after : Disk} {base here : Location} {links : Nat} {names : List Text}
    (leads : Leads disk base links here names) (reached : IsReached disk here)
    (rights : after.privileged = disk.privileged)
    (kept : ∀ location node, disk.get? location = some node → ¬ StandsForFile disk location →
      after.get? location = some node) : Leads after base links here names := by
  -- the directories on the way may be searched as before
  have searches {here : Location} (reached : IsReached disk here) :
      after.allows Node.ownerSearches here = disk.allows Node.ownerSearches here := by
    obtain ⟨mode, directory⟩ := reached.directory
    have stays := kept _ _ directory (not_standsForFile_of_directory directory)
    exact allows_congr rights (by simp [directory, stays]) _
  have looks {here : Location} {name : Text} (reached : IsReached disk here)
      (lookedUp : IsLookedUp disk here name) : IsLookedUp after here name :=
    ⟨lookedUp.ne_dot, (searches reached).trans lookedUp.searched, lookedUp.ne_dots,
      lookedUp.short⟩
  induction leads with
  | arrived links =>
      rcases reached.directory with ⟨mode, directory⟩
      have stays := kept _ _ directory (not_standsForFile_of_directory directory)
      exact .arrived links mode (by rw [stays, Option.getD_some])
  | stay _ ih => exact .stay (ih reached)
  | up searched _ ih =>
      exact .up ((searches reached).trans searched) (ih reached.dropLast)
  | down lookedUp found _ ih =>
      exact .down (looks reached lookedUp) (kept _ _ found (not_standsForFile_of_directory found))
        (ih (reached.concat found))
  | @follow links here name target rest lookedUp found later ih =>
      refine .follow (looks reached lookedUp) (kept _ _ found fun stands => ?_)
        (ih (reached.linkOrigin target))
      generalize same : here ++ [name] = location at stands
      cases stands with
      | file held => simp [← same, found] at held
      | link held leadsToFile =>
          obtain ⟨rfl, names⟩ := List.append_inj' same rfl
          cases names
          rw [found] at held
          cases held
          exact later.walkWithin_ne_file (reached.linkOrigin target)
            (List.prefix_append _ rest) _ _ _ _
            leadsToFile

/-! ## Walks inside of a tree -/

/-- A directory with regular files and directories below it, and no links. -/
structure IsTree (disk : Disk) (base : Location) : Prop where
  top : ∃ mode, disk.get? base = some (.directory mode)
  noLink : ∀ place target, disk.get? (base ++ place) ≠ some (.link target)
  outer : ∀ place name node, disk.get? (base ++ place ++ [name]) = some node →
    ∃ mode, disk.get? (base ++ place) = some (.directory mode)

/-- Names that lead down. -/
def Descends (names : List Text) : Prop := ∀ name ∈ names, name ≠ ['.'] ∧ name ≠ ['.', '.']

/-- The directories in which names are looked up one after the other may be searched. -/
def MaySearch (disk : Disk) (base : Location) (names : List Text) : Prop :=
  ∀ front name back, names = front ++ name :: back →
    disk.allows Node.ownerSearches (base ++ front) = true

namespace MaySearch

variable {disk : Disk} {base : Location}

theorem nil (disk : Disk) (base : Location) : MaySearch disk base [] := by
  intro front name back split
  simp at split

theorem cons_iff {name : Text} {rest : List Text} :
    MaySearch disk base (name :: rest) ↔
      disk.allows Node.ownerSearches base = true ∧ MaySearch disk (base ++ [name]) rest := by
  constructor
  · intro searches
    refine ⟨by simpa using searches [] name rest rfl, fun front other back split => ?_⟩
    simpa using searches (name :: front) other back (by rw [split, List.cons_append])
  · rintro ⟨searched, searches⟩ front other back split
    cases front with
    | nil => simpa using searched
    | cons first front =>
        obtain ⟨rfl, behind⟩ := List.cons.inj split
        simpa using searches front other back behind

theorem append_iff {front back : List Text} :
    MaySearch disk base (front ++ back) ↔
      MaySearch disk base front ∧ MaySearch disk (base ++ front) back := by
  induction front generalizing base with
  | nil => simp [nil]
  | cons name front ih => simp [cons_iff, ih, and_assoc]

/-- Where the last name leads does not matter. -/
theorem sibling {front : List Text} {name : Text} (other : Text)
    (searches : MaySearch disk base (front ++ [name])) :
    MaySearch disk base (front ++ [other]) := by
  rw [append_iff, cons_iff] at searches ⊢
  exact ⟨searches.1, searches.2.1, nil disk _⟩

end MaySearch

/-- What a walk finds under a name of a directory. -/
def standing (disk : Disk) (directory : Location) (name : Text) : Found :=
  match disk.get? (directory ++ [name]) with
  | some node => .node (directory ++ [name]) node
  | none => .vacant directory name

theorem standing_of_some {disk : Disk} {directory : Location} {name : Text} {node : Node}
    (held : disk.get? (directory ++ [name]) = some node) :
    disk.standing directory name = .node (directory ++ [name]) node := by
  rw [standing, held]

theorem standing_of_none {disk : Disk} {directory : Location} {name : Text}
    (free : disk.get? (directory ++ [name]) = none) :
    disk.standing directory name = .vacant directory name := by
  rw [standing, free]

/-- Behind a directory that was reached, a walk ends with what stands under its last name. -/
theorem Leads.walkWithin_concat {disk : Disk} {base here : Location} {links : Nat}
    {names : List Text}
    (leads : Leads disk base links here names) {last : Text}
    (lookedUp : IsLookedUp disk base last) :
    disk.walkWithin false links here (names ++ [last]) = .ok (disk.standing base last) := by
  obtain ⟨left, onwards⟩ := leads.walkWithin_append
  rw [onwards false [last] (by simp), walkWithin_lookedUp _ _ _ _ lookedUp, standing]
  cases found : disk.get? (base ++ [last]) with
  | none => rfl
  | some node =>
      cases node with
      | file content mode => rfl
      | directory mode => simp only [walkWithin_nil, found, Option.getD_some]
      | link target => rfl

namespace IsTree

variable {disk : Disk} {base : Location}

theorem directory_above (tree : IsTree disk base) {place more : Location} {node : Node}
    (nonempty : more ≠ []) (found : disk.get? (base ++ place ++ more) = some node) :
    ∃ mode, disk.get? (base ++ place) = some (.directory mode) := by
  induction more generalizing place with
  | nil => exact absurd rfl nonempty
  | cons name rest ih =>
      cases rest with
      | nil => exact tree.outer place name node found
      | cons next rest =>
          obtain ⟨mode, inner⟩ := @ih (place ++ [name]) (by simp) (by simpa using found)
          exact tree.outer place name _ (by rwa [List.append_assoc])

/-- What lies below a directory of a tree is a tree. -/
theorem child (tree : IsTree disk base) {place : Location} {mode : Nat}
    (directory : disk.get? (base ++ place) = some (.directory mode)) :
    IsTree disk (base ++ place) := by
  constructor
  · exact ⟨mode, directory⟩
  · intro inner target
    rw [List.append_assoc]
    exact tree.noLink (place ++ inner) target
  · intro inner name node found
    rw [List.append_assoc base place inner] at found ⊢
    exact tree.outer (place ++ inner) name node found

/-- Nothing stands below a name that is no directory. -/
theorem no_directory_below (tree : IsTree disk base) {name : Text}
    (noDirectory : ∀ mode, disk.get? (base ++ [name]) ≠ some (.directory mode)) (front : List Text)
    (mode : Nat) : disk.get? (base ++ [name] ++ front) ≠ some (.directory mode) := by
  intro below
  cases front with
  | nil => exact noDirectory mode (by simpa using below)
  | cons next front =>
      obtain ⟨outer, directory⟩ := tree.directory_above (by simp) below
      exact noDirectory outer directory

/-- A walk along one name ends with what stands there. -/
theorem walkWithin_singleton_eq_ok_iff (tree : IsTree disk base) {name : Text}
    (descends : Descends [name]) (followLast : Bool) (links : Nat) {found : Found} :
    disk.walkWithin followLast links base [name] = .ok found ↔
      disk.allows Node.ownerSearches base = true ∧ ¬ longestName < Utf8.size name ∧
        found = disk.standing base name := by
  obtain ⟨ne_dot, ne_dots⟩ := descends name (by simp)
  rw [walkWithin_cons, if_neg ne_dot]
  by_cases refused : disk.allows Node.ownerSearches base = false
  · simp [refused]
  have searched := eq_true_of_ne_false refused
  rw [if_neg (by simp [searched]), if_neg ne_dots]
  by_cases long : longestName < Utf8.size name
  · simp [long]
  · simp only [searched, long, if_false, not_false_eq_true, true_and, standing]
    cases entry : disk.get? (base ++ [name]) with
    | none => simp [eq_comm]
    | some node =>
        cases node with
        | file content mode => simp [eq_comm]
        | directory mode => simp [walkWithin_nil, entry, eq_comm]
        | link target => exact absurd entry (tree.noLink [name] target)

/-- From the top of a tree a walk leads down to the directory of its last name, and
ends with what stands there under that name. -/
theorem walkWithin_eq_ok_iff (tree : IsTree disk base) {front : List Text} {last : Text}
    (descends : Descends (front ++ [last])) (followLast : Bool) (links : Nat) {found : Found} :
    disk.walkWithin followLast links base (front ++ [last]) = .ok found ↔
      MaySearch disk base (front ++ [last]) ∧
        (∀ name ∈ front ++ [last], ¬ longestName < Utf8.size name) ∧
        (∃ mode, disk.get? (base ++ front) = some (.directory mode)) ∧
        found = disk.standing (base ++ front) last := by
  induction front generalizing base with
  | nil =>
      rw [List.nil_append, tree.walkWithin_singleton_eq_ok_iff descends]
      simp [tree.top, MaySearch.cons_iff, MaySearch.nil]
  | cons name front ih =>
      obtain ⟨ne_dot, ne_dots⟩ := descends name (by simp)
      have inner : Descends (front ++ [last]) := fun other mem => descends other (by simp [mem])
      rw [List.cons_append, walkWithin_cons, if_neg ne_dot, MaySearch.cons_iff]
      by_cases refused : disk.allows Node.ownerSearches base = false
      · simp [refused]
      have searched := eq_true_of_ne_false refused
      rw [if_neg (by simp [searched]), if_neg ne_dots]
      by_cases long : longestName < Utf8.size name
      · simp only [long, if_true, reduceCtorEq, false_iff]
        exact fun all => all.2.1 name (by simp) long
      have down : base ++ name :: front = base ++ [name] ++ front := by simp
      simp only [searched, long, if_false, List.mem_cons, forall_eq_or_imp, not_false_eq_true,
        true_and, down]
      cases entry : disk.get? (base ++ [name]) with
      | none =>
          have noDirectory :
              ∀ mode, disk.get? (base ++ [name]) ≠ some (.directory mode) := by simp [entry]
          have blocked := tree.no_directory_below noDirectory front
          simp only [blocked, exists_false, false_and, and_false, iff_false]
          simp
      | some node =>
          cases node with
          | file content mode =>
              have noDirectory : ∀ mode, disk.get? (base ++ [name]) ≠ some (.directory mode) := by
                simp [entry]
              have blocked := tree.no_directory_below noDirectory front
              simp only [blocked, exists_false, false_and, and_false, iff_false]
              simp
          | directory mode => exact ih (tree.child entry) inner
          | link target => exact absurd entry (tree.noLink [name] target)

end IsTree

/-! ## Projects -/

/-- The names below a path that an operation on the path with these names accepts, where the
path leads to a location. -/
structure Fits (disk : Disk) (base : Location) (lead names : List Text) : Prop where
  noZero : (lead ++ names).any (·.contains '\x00') = false
  size : ¬ longestPath < spelledSize (lead ++ names)
  searches : MaySearch disk base names
  short : ∀ name ∈ names, ¬ longestName < Utf8.size name

theorem spelledSize_append (left right : List Text) :
    spelledSize (left ++ right) = spelledSize left + spelledSize right := by
  induction left with
  | nil => simp [spelledSize]
  | cons name left ih => simp only [List.cons_append, spelledSize, ih, Nat.add_assoc]

theorem Fits.front {disk : Disk} {base : Location} {lead front back : List Text}
    (fits : Fits disk base lead (front ++ back)) : Fits disk base lead front := by
  rcases fits with ⟨noZero, size, searches, short⟩
  rw [← List.append_assoc] at noZero size
  constructor
  · rw [List.any_append, Bool.or_eq_false_iff] at noZero
    exact noZero.1
  · rw [spelledSize_append] at size
    omega
  · exact (MaySearch.append_iff.1 searches).1
  · exact fun name mem => short name (by simp [mem])

/-- The walks that are not refused for the path as a whole. -/
theorem walk_eq_ok_iff {disk : Disk} {followLast : Bool} {names : List Text} {found : Found} :
    disk.walk followLast names = .ok found ↔
      names.any (·.contains '\x00') = false ∧ ¬ longestPath < spelledSize names ∧
        disk.walkWithin followLast mostLinks [] names = .ok found := by
  rw [walk, resolve]
  cases zero : names.any (·.contains '\x00') with
  | true => simp only [if_true, reduceCtorEq, Bool.true_eq_false, false_and]
  | false =>
      simp only [Bool.false_eq_true, if_false, true_and]
      by_cases long : longestPath < spelledSize names
      · simp only [long, if_true, reduceCtorEq, not_true_eq_false, false_and]
      · simp only [long, if_false, not_false_eq_true, true_and]

/-- A walk from the top that leads to a directory ends at one that is there. -/
theorem get?_of_walk {disk : Disk} {names : List Text} {place : Location} {mode : Nat}
    (reached : disk.walk true names = .ok (.node place (.directory mode))) :
    disk.get? place = some (.directory mode) := by
  have ends := (walk_eq_ok_iff.1 reached).2.2
  have leads := leads_of_walkWithin ends
  rcases (leads.isReached (.top disk)).directory with ⟨found, directory⟩
  rw [leads.walkWithin_eq, directory, Option.getD_some, Except.ok.injEq, Found.node.injEq] at ends
  rw [directory, ends.2]

/-- A path that leads to the top of a tree. -/
structure IsProject (disk : Disk) (root : Path) (base : Location) : Prop where
  leads : ∃ mode, disk.walk true root.segments = .ok (.node base (.directory mode))
  tree : IsTree disk base

namespace IsProject

variable {disk : Disk} {root : Path} {base : Location}

/-- The walks of a project: down from its top along the names behind its path. -/
theorem walk_below_eq_ok_iff (project : IsProject disk root base) {front : List Text} {last : Text}
    (descends : Descends (front ++ [last])) (followLast : Bool) {found : Found} :
    disk.walk followLast (root.segments ++ (front ++ [last])) = .ok found ↔
      Fits disk base root.segments (front ++ [last]) ∧
        (∃ mode, disk.get? (base ++ front) = some (.directory mode)) ∧
        found = disk.standing (base ++ front) last := by
  rcases project.leads with ⟨mode, reached⟩
  rcases (leads_of_walkWithin (walk_eq_ok_iff.1 reached).2.2).walkWithin_append with ⟨left, onwards⟩
  rw [walk_eq_ok_iff, onwards followLast _ (by simp),
    project.tree.walkWithin_eq_ok_iff descends followLast left]
  constructor
  · rintro ⟨noZero, size, searches, short, above, found_eq⟩
    exact ⟨⟨noZero, size, searches, short⟩, above, found_eq⟩
  · rintro ⟨fits, above, found_eq⟩
    exact ⟨fits.noZero, fits.size, fits.searches, fits.short, above, found_eq⟩

end IsProject

end DistDirectives.Disk
