import DistDirectives.Disk.Replace
import DistDirectives.Proofs.Disk.Project

/-!
# Where a path to a file leads

A path to a file leads to a directory, and then to a name in it under which the file stands,
or a link to it. Whatever a walk finds that does not follow a link in the last place, it finds
in a directory to which the names before lead (`exists_walk_of_concat`). Operations on the
path touch what stands there and what stands beside it, and nothing else, on any disk. The path
leads to the same place as long as no directory goes away, and no link that leads to a
directory; so it does not matter what becomes of the files of other paths.
-/

namespace DistDirectives.Disk

/-! ## The way to a file -/

theorem StandsForFile.exists_node {disk : Disk} {location : Location}
    (stands : StandsForFile disk location) : ∃ node, disk.get? location = some node := by
  cases stands with
  | file held => exact ⟨_, held⟩
  | link held => exact ⟨_, held⟩

/-- A walk to a directory and on to a name in it that stands for a file. -/
structure Approaches (disk : Disk) (links : Nat) (here : Location) (front : List Text)
    (place : Location)
    (last : Text) : Prop where
  leads : Leads disk place links here front
  lookedUp : IsLookedUp disk place last
  stands : StandsForFile disk (place ++ [last])

/-- A walk that comes to a file goes to a directory first. -/
theorem exists_approaches {disk : Disk} {location here : Location} {links mode : Nat}
    {content : Bytes}
    {names : List Text} (reached : IsReached disk here)
    (walked : disk.walkWithin true links here names = .ok (.node location (.file content mode))) :
    ∃ front last place, names = front ++ [last] ∧ Approaches disk links here front place last := by
  induction links using Nat.strongRecOn generalizing here names with
  | ind links fewerLinks =>
      induction names generalizing here with
      | nil => exact absurd walked (reached.walkWithin_nil_ne links location content mode)
      | cons name rest ih =>
          have arrived : Leads disk here links here [] := by
            obtain ⟨hereMode, directory⟩ := reached.directory
            exact .arrived links hereMode (by rw [directory, Option.getD_some])
          cases firstStep_of_walkWithin walked with
          | stay later =>
              obtain ⟨front, last, place, rfl, approaches⟩ := ih reached later
              exact ⟨_ :: front, last, place, rfl,
                { approaches with leads := .stay approaches.leads }⟩
          | up searched later =>
              obtain ⟨front, last, place, rfl, approaches⟩ := ih reached.dropLast later
              exact ⟨_ :: front, last, place, rfl,
                { approaches with leads := .up searched approaches.leads }⟩
          | vacant _ _ ends => contradiction
          | file lookedUp held => exact ⟨[], name, here, rfl, arrived, lookedUp, .file held⟩
          | down lookedUp held later =>
              obtain ⟨front, last, place, rfl, approaches⟩ := ih (reached.concat held) later
              exact ⟨name :: front, last, place, rfl,
                { approaches with leads := .down lookedUp held approaches.leads }⟩
          | @follow fewer _ target _ lookedUp held later =>
              obtain ⟨front, last, place, split, approaches⟩ :=
                fewerLinks fewer (Nat.lt_succ_self _) (reached.linkOrigin target) later
              -- a link in the last place is not part of the way
              rcases List.eq_nil_or_concat rest with rfl | ⟨inner, final, rfl⟩
              · rw [List.append_nil] at later
                exact ⟨[], name, here, rfl, arrived, lookedUp, .link held later⟩
              · rw [List.concat_eq_append, ← List.append_assoc] at split
                obtain ⟨rfl, same⟩ := List.append_inj' split rfl
                cases same
                exact ⟨name :: inner, last, place, by simp,
                  { approaches with leads := .follow lookedUp held approaches.leads }⟩

/-! ## The directory in which a walk ends -/

/-- Why the path of a file in a directory is refused, which stands at a location. -/
def refusal? (disk : Disk) (place : Location) (directory : List Text) (name : Text) :
    Option Fault :=
  if (directory ++ [name]).any (·.contains '\x00') then some .zeroInName
  else if longestPath < spelledSize (directory ++ [name]) then some .nameTooLong
  else if !disk.allows Node.ownerSearches place then some .accessDenied
  else if longestName < Utf8.size name then some .nameTooLong
  else none

theorem refusal?_congr {disk other : Disk} {place : Location}
    (rights : other.privileged = disk.privileged)
    (same : ∀ mode, other.get? place = some (.directory mode) ↔
      disk.get? place = some (.directory mode)) (directory : List Text) (name : Text) :
    other.refusal? place directory name = disk.refusal? place directory name := by
  rw [refusal?, refusal?, allows_congr rights same]

theorem SameDirectories.refusal? {disk other : Disk} (alike : SameDirectories disk other)
    (place : Location) (directory : List Text) (name : Text) :
    other.refusal? place directory name = disk.refusal? place directory name :=
  refusal?_congr alike.rights (alike.directories place) directory name

theorem IsLookedUp.congr {disk other : Disk} {here : Location} {name : Text}
    (lookedUp : IsLookedUp disk here name) (alike : SameDirectories disk other) :
    IsLookedUp other here name :=
  ⟨lookedUp.ne_dot, (alike.allows _ _).trans lookedUp.searched, lookedUp.ne_dots, lookedUp.short⟩

/-- A walk that leads to a directory goes on there along one name more. -/
theorem walk_concat {disk : Disk} {directory : List Text} {here : Location} {mode : Nat}
    (reached : disk.walk true directory = .ok (.node here (.directory mode))) {name : Text}
    (descends : Descends [name]) :
    disk.walk false (directory ++ [name]) =
      match disk.refusal? here directory name with
      | some fault => .error fault
      | none => .ok (disk.standing here name) := by
  have leads := leads_of_walkWithin (walk_eq_ok_iff.1 reached).2.2
  obtain ⟨ne_dot, ne_dots⟩ := descends name (by simp)
  rw [walk, resolve, refusal?]
  by_cases zero : (directory ++ [name]).any (·.contains '\x00') = true
  · rw [if_pos zero, if_pos zero]
  rw [if_neg zero, if_neg zero, if_neg zero]
  by_cases size : longestPath < spelledSize (directory ++ [name])
  · rw [if_pos size, if_pos size]
  rw [if_neg size, if_neg size]
  obtain ⟨left, onwards⟩ := leads.walkWithin_append
  by_cases refused : disk.allows Node.ownerSearches here = false
  · rw [if_pos (by simp [refused]), onwards false _ (by simp), walkWithin_cons, if_neg ne_dot,
      if_pos (by simp [refused])]
  have searched := eq_true_of_ne_false refused
  rw [if_neg (by simp [searched])]
  by_cases long : longestName < Utf8.size name
  · rw [if_pos long, onwards false _ (by simp), walkWithin_cons, if_neg ne_dot,
      if_neg (by simp [searched]), if_neg ne_dots, if_pos long]
  · rw [if_neg long]
    exact leads.walkWithin_concat ⟨ne_dot, searched, ne_dots, long⟩

section

variable {disk : Disk} {front : List Text} {place : Location} {last : Text} {mode : Nat}

/-- A walk to a name comes to a directory first. -/
theorem exists_leads_of_concat {here : Location} {links : Nat} {found : Found}
    (reached : IsReached disk here)
    (descends : Descends [last])
    (walked : disk.walkWithin false links here (front ++ [last]) = .ok found) :
    ∃ place, IsLookedUp disk place last ∧ Leads disk place links here front := by
  induction links using Nat.strongRecOn generalizing here front with
  | ind links fewerLinks =>
      induction front generalizing here with
      | nil =>
          obtain ⟨mode, directory⟩ := reached.directory
          obtain ⟨ne_dot, ne_dots⟩ := descends last (by simp)
          rw [List.nil_append, walkWithin_cons, if_neg ne_dot] at walked
          split at walked
          · contradiction
          rename_i searched
          split at walked
          · contradiction
          rename_i short
          exact ⟨here, ⟨ne_dot, by simpa using searched, ne_dots, short⟩,
            .arrived links mode (by rw [directory, Option.getD_some])⟩
      | cons name front ih =>
          have more : (front ++ [last]).isEmpty = false := by simp
          rw [List.cons_append, walkWithin_cons] at walked
          split at walked
          · rename_i dot
            obtain ⟨place, lookedUp, leads⟩ := ih reached walked
            exact ⟨place, lookedUp, dot ▸ .stay leads⟩
          split at walked
          · contradiction
          rename_i ne_dot refused
          have searched : disk.allows Node.ownerSearches here = true := by simpa using refused
          split at walked
          · rename_i dots
            obtain ⟨place, lookedUp, leads⟩ := ih reached.dropLast walked
            exact ⟨place, lookedUp, dots ▸ .up searched leads⟩
          split at walked
          · contradiction
          rename_i ne_dots short
          have nameLookedUp : IsLookedUp disk here name := ⟨ne_dot, searched, ne_dots, short⟩
          simp only [more, Bool.false_and, Bool.false_eq_true, if_false] at walked
          split at walked
          · contradiction
          · contradiction
          · rename_i held
            obtain ⟨place, lookedUp, leads⟩ := ih (reached.concat held) walked
            exact ⟨place, lookedUp, .down nameLookedUp held leads⟩
          · rename_i target held
            cases links with
            | zero => contradiction
            | succ links =>
                rw [← List.append_assoc] at walked
                obtain ⟨place, lookedUp, leads⟩ :=
                  fewerLinks links (Nat.lt_succ_self _) (reached.linkOrigin target) walked
                exact ⟨place, lookedUp, .follow nameLookedUp held leads⟩

theorem refusal?_eq_none_iff :
    disk.refusal? place front last = none ↔ (front ++ [last]).any (·.contains '\x00') = false ∧
      ¬longestPath < spelledSize (front ++ [last]) ∧
        disk.allows Node.ownerSearches place = true ∧ ¬longestName < Utf8.size last := by
  rw [refusal?]
  cases zero : (front ++ [last]).any (·.contains '\x00') with
  | true => simp only [if_true, reduceCtorEq, Bool.true_eq_false, false_and]
  | false =>
      simp only [Bool.false_eq_true, if_false, true_and]
      split_ifs with size refused long <;> simp_all

/-- A walk along names that leads to a directory is accepted, and ends there. -/
theorem walk_of_leads (leads : Leads disk place mostLinks [] front)
    (noZero : front.any (·.contains '\x00') = false) (size : ¬longestPath < spelledSize front) :
    ∃ mode, disk.walk true front = .ok (.node place (.directory mode)) := by
  obtain ⟨mode, directory⟩ := (leads.isReached (.top disk)).directory
  refine ⟨mode, walk_eq_ok_iff.2 ⟨noZero, size, ?_⟩⟩
  rw [leads.walkWithin_eq, directory, Option.getD_some]

theorem any_and_size_of_concat (noZero : (front ++ [last]).any (·.contains '\x00') = false)
    (size : ¬longestPath < spelledSize (front ++ [last])) :
    front.any (·.contains '\x00') = false ∧ ¬longestPath < spelledSize front := by
  rw [List.any_append, Bool.or_eq_false_iff] at noZero
  rw [spelledSize_append] at size
  exact ⟨noZero.1, by omega⟩

/-- Whatever a walk to a name finds, stands there in a directory. -/
theorem exists_walk_of_concat {found : Found} (descends : Descends [last])
    (walked : disk.walk false (front ++ [last]) = .ok found) :
    ∃ place mode, disk.refusal? place front last = none ∧
      disk.walk true front = .ok (.node place (.directory mode)) ∧
        found = disk.standing place last := by
  obtain ⟨noZero, size, within⟩ := walk_eq_ok_iff.1 walked
  obtain ⟨place, lookedUp, leads⟩ := exists_leads_of_concat (.top disk) descends within
  obtain ⟨frontZero, frontSize⟩ := any_and_size_of_concat noZero size
  obtain ⟨mode, reached⟩ := walk_of_leads leads frontZero frontSize
  have accepted := refusal?_eq_none_iff.2 ⟨noZero, size, lookedUp.searched, lookedUp.short⟩
  rw [walk_concat reached descends, accepted] at walked
  exact ⟨place, mode, accepted, reached, (Except.ok.inj walked).symm⟩

/-- A walk ends at a file or a directory whether or not it follows a link there. -/
theorem walk_concat_eq_node (reached : disk.walk true front = .ok (.node place (.directory mode)))
    (descends : Descends [last]) (accepted : disk.refusal? place front last = none) {node : Node}
    (held : disk.get? (place ++ [last]) = some node) (noLink : kindOf node ≠ .other)
    (followLast : Bool) :
    disk.walk followLast (front ++ [last]) = .ok (.node (place ++ [last]) node) := by
  obtain ⟨noZero, size, searched, short⟩ := refusal?_eq_none_iff.1 accepted
  obtain ⟨ne_dot, ne_dots⟩ := descends last (by simp)
  obtain ⟨left, onwards⟩ := (leads_of_walkWithin (walk_eq_ok_iff.1 reached).2.2).walkWithin_append
  refine walk_eq_ok_iff.2 ⟨noZero, size, ?_⟩
  rw [onwards followLast [last] (by simp),
    walkWithin_lookedUp _ _ _ _ ⟨ne_dot, searched, ne_dots, short⟩, held]
  cases node with
  | file content mode => rfl
  | directory mode => simp only [walkWithin_nil, held, Option.getD_some]
  | link target => exact absurd rfl noLink

end

/-! ## Sites -/

/-- A directory that is there need not be made. -/
theorem ensureDirectories_eq {disk : Disk} {reversed : List Text} {location : Location} {mode : Nat}
    (reached : disk.walk true reversed.reverse = .ok (.node location (.directory mode))) :
    disk.ensureDirectories reversed = (.ok (), disk) := by
  cases reversed with
  | nil => rfl
  | cons name outer =>
      have leads : disk.leadsToDirectory (name :: outer).reverse = true := by
        rw [leadsToDirectory, reached]
      obtain ⟨noZero, size, within⟩ := walk_eq_ok_iff.1 reached
      obtain ⟨place, node, ends⟩ := (leads_of_walkWithin within).exists_node
      rw [ensureDirectories, makeDirectory, walk_eq_ok_iff.2 ⟨noZero, size, ends⟩]
      simp only [leads, if_true]

/-- The directory to which a path leads, and the last name of the path. -/
structure IsSite (disk : Disk) (path : Path) (place : Location) (last : Text) : Prop where
  split : path.segments.dropLast ++ [last] = path.segments
  descends : Descends [last]
  reached : ∃ mode, disk.walk true path.segments.dropLast = .ok (.node place (.directory mode))

namespace IsSite

variable {disk after : Disk} {path : Path} {place : Location} {last : Text}

/-- What stands at the path, a link not followed. -/
theorem walk_eq (site : IsSite disk path place last) :
    disk.walk false path.segments =
      match disk.refusal? place path.segments.dropLast last with
      | some fault => .error fault
      | none => .ok (disk.standing place last) := by
  rcases site.reached with ⟨mode, reached⟩
  have onwards := walk_concat reached site.descends
  rwa [site.split] at onwards

/-- What stands beside it. -/
theorem walk_beside (site : IsSite disk path place last) {name : Text}
    (descends : Descends [name]) :
    disk.walk false (path.segments.dropLast ++ [name]) =
      match disk.refusal? place path.segments.dropLast name with
      | some fault => .error fault
      | none => .ok (disk.standing place name) := by
  rcases site.reached with ⟨mode, reached⟩
  exact walk_concat reached descends

/-- The directory need not be made. -/
theorem ensureDirectories_eq (site : IsSite disk path place last) :
    disk.ensureDirectories path.segments.dropLast.reverse = (.ok (), disk) := by
  rcases site.reached with ⟨mode, reached⟩
  exact Disk.ensureDirectories_eq (by rw [List.reverse_reverse, reached])

/-- A site stays where it is as long as all but files and links to files stays. -/
theorem mono (site : IsSite disk path place last)
    (rights : after.privileged = disk.privileged)
    (kept : ∀ location node, disk.get? location = some node → ¬ StandsForFile disk location →
      after.get? location = some node) : IsSite after path place last := by
  rcases site.reached with ⟨mode, reached⟩
  exact ⟨site.split, site.descends, mode, walk_of_kept reached rights kept⟩

end IsSite

theorem exists_walk_of_isFile {disk : Disk} {path : Path} (isFile : disk.isFile path = true) :
    ∃ location content mode, disk.walk true path.segments =
      .ok (.node location (.file content mode)) := by
  rw [Disk.isFile, lookup] at isFile
  cases walked : disk.walk true path.segments with
  | error fault => simp [walked] at isFile
  | ok found =>
      cases found with
      | vacant directory name => simp [walked] at isFile
      | node location node =>
          cases node with
          | file content mode => exact ⟨location, content, mode, rfl⟩
          | directory mode => simp [walked] at isFile
          | link target => simp [walked] at isFile

/-- A path at which a file stands leads to a site. -/
theorem exists_isSite_of_isFile {disk : Disk} {path : Path} (isFile : disk.isFile path = true) :
    ∃ place last, IsSite disk path place last ∧ StandsForFile disk (place ++ [last]) ∧
      ∃ node, disk.walk false path.segments = .ok (.node (place ++ [last]) node) := by
  obtain ⟨location, content, mode, walked⟩ := exists_walk_of_isFile isFile
  obtain ⟨noZero, size, within⟩ := walk_eq_ok_iff.1 walked
  obtain ⟨front, last, place, split, leads, lookedUp, stands⟩ :=
    exists_approaches (.top disk) within
  obtain ⟨node, held⟩ := stands.exists_node
  rw [split] at noZero size
  obtain ⟨frontZero, frontSize⟩ := any_and_size_of_concat noZero size
  obtain ⟨placeMode, reached⟩ := walk_of_leads leads frontZero frontSize
  have ends : disk.walk false (front ++ [last]) = .ok (.node (place ++ [last]) node) := by
    rw [walk_eq_ok_iff, leads.walkWithin_concat lookedUp, standing_of_some held]
    exact ⟨noZero, size, rfl⟩
  have descends : Descends [last] := by
    intro name mem
    rw [List.mem_singleton.1 mem]
    exact ⟨lookedUp.ne_dot, lookedUp.ne_dots⟩
  refine ⟨place, last, ⟨?_, descends, placeMode, ?_⟩, stands, node, ?_⟩
  · rw [split, List.dropLast_concat]
  · rw [split, List.dropLast_concat, reached]
  · rw [split, ends]

end DistDirectives.Disk
