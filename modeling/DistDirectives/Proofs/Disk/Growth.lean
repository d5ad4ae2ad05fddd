import DistDirectives.Proofs.Disk.Decision
import DistDirectives.Proofs.Disk.Site

/-!
# Directories that are made on the way

Before a file is written, the directories that lead to it are made, from the outermost
missing one on. Whether this succeeds or not, nothing that was there changes. What is new
are directories, to each of which a beginning of the names leads (`growsAlong_step` for one
directory, `growsAlong_ensureDirectories` for all of them). When it succeeds, either nothing was
missing, or the innermost directory is new and empty.
-/

namespace DistDirectives.Disk

variable {disk between after : Disk} {names front : List Text}
  {place location : Location} {last : Text}
  {mode : Nat}

/-! ## Rooted disks -/

/-- Whatever stands on the disk stands in a directory. -/
def IsRooted (disk : Disk) : Prop :=
  ∀ place name node, disk.get? (place ++ [name]) = some node →
    ∃ mode, disk.get? place = some (.directory mode)

theorem isRooted_iff :
    IsRooted disk ↔ ∀ entry ∈ disk.entries,
      isDirectoryNode (disk.get? entry.1.dropLast) = true := by
  simp only [isDirectoryNode_iff]
  constructor
  · rintro rooted ⟨location, node⟩ mem
    rcases List.eq_nil_or_concat' location with rfl | ⟨place, name, rfl⟩
    · exact ⟨_, disk.get?_nil⟩
    · rw [List.dropLast_concat]
      exact rooted place name node ((mem_entries_iff (by simp)).1 mem)
  · intro outer place name node held
    have above := outer _ ((mem_entries_iff (by simp)).2 held)
    rwa [List.dropLast_concat] at above

instance (disk : Disk) : Decidable (IsRooted disk) := decidable_of_iff' _ isRooted_iff

namespace IsRooted

theorem free_below (rooted : IsRooted disk) (free : disk.get? place = none) (name : Text) :
    disk.get? (place ++ [name]) = none := by
  refine Option.eq_none_iff_forall_ne_some.2 fun node held => ?_
  obtain ⟨mode, directory⟩ := rooted place name node held
  rw [free] at directory
  contradiction

theorem store (rooted : IsRooted disk) (directory : disk.get? place = some (.directory mode))
    (free : disk.get? (place ++ [last]) = none) (node : Node) :
    IsRooted (disk.store (place ++ [last]) node) := by
  intro outer name inner held
  rw [get?_store _ (by simp)] at held
  have kept {above : Location} {mode : Nat}
      (isDirectory : disk.get? above = some (.directory mode)) :
      (disk.store (place ++ [last]) node).get? above = some (.directory mode) := by
    rw [get?_store _ (by simp), if_neg, isDirectory]
    rintro rfl
    rw [free] at isDirectory
    contradiction
  split at held
  · rename_i same
    obtain ⟨rfl, -⟩ := List.append_inj' same rfl
    exact ⟨mode, kept directory⟩
  · obtain ⟨outerMode, outerDirectory⟩ := rooted outer name inner held
    exact ⟨outerMode, kept outerDirectory⟩

end IsRooted

/-! ## Growth -/

/-- A new directory, to which a beginning of the names leads. -/
structure IsMade (disk after : Disk) (names : List Text) (location : Location) : Prop where
  free : disk.get? location = none
  onWay : ∃ front mode, front <+: names ∧
    after.walk true front = .ok (.node location (.directory mode))

/-- Directories came along the names, and nothing else changed. -/
structure GrowsAlong (names : List Text) (disk after : Disk) : Prop where
  rights : after.privileged = disk.privileged
  places : ∀ location, after.get? location = disk.get? location ∨ IsMade disk after names location

namespace GrowsAlong

theorem refl (names : List Text) (disk : Disk) : GrowsAlong names disk disk :=
  ⟨rfl, fun _ => .inl rfl⟩

theorem kept (grows : GrowsAlong names disk after) {node : Node}
    (held : disk.get? location = some node) : after.get? location = some node := by
  rcases grows.places location with same | made
  · rw [same, held]
  · rw [made.free] at held
    contradiction

theorem free (grows : GrowsAlong names disk after) (free : after.get? location = none) :
    disk.get? location = none := by
  rcases grows.places location with same | made
  · rw [← same, free]
  · exact made.free

theorem walk (grows : GrowsAlong names disk after)
    (reached : disk.walk true front = .ok (.node place (.directory mode))) :
    after.walk true front = .ok (.node place (.directory mode)) :=
  walk_of_kept reached grows.rights fun _ _ held _ => grows.kept held

theorem trans (first : GrowsAlong names disk between) (second : GrowsAlong names between after) :
    GrowsAlong names disk after := by
  refine ⟨second.rights.trans first.rights, fun location => ?_⟩
  rcases second.places location with same | made
  · rcases first.places location with before | ⟨free, front, mode, isFront, reached⟩
    · exact .inl (same.trans before)
    · exact .inr ⟨free, front, mode, isFront, second.walk reached⟩
  · exact .inr ⟨first.free made.free, made.onWay⟩

theorem longer (grows : GrowsAlong names disk after) {more : List Text} (shorter : names <+: more) :
    GrowsAlong more disk after := by
  refine ⟨grows.rights, fun location => ?_⟩
  refine (grows.places location).imp_right fun ⟨free, front, mode, isFront, reached⟩ => ?_
  exact ⟨free, front, mode, isFront.trans shorter, reached⟩

/-- New directories hold nothing but new directories. -/
theorem isMade_below (grows : GrowsAlong names disk after) (rooted : IsRooted disk)
    (made : IsMade disk after names location) {name : Text} {node : Node}
    (held : after.get? (location ++ [name]) = some node) :
    IsMade disk after names (location ++ [name]) := by
  refine (grows.places (location ++ [name])).resolve_left fun same => ?_
  rw [same, rooted.free_below made.free] at held
  contradiction

end GrowsAlong

/-! ## Making directories -/

/-- The names lead to a directory that is new, and empty. -/
def EndsNew (disk after : Disk) (names : List Text) : Prop :=
  ∃ place mode, after.walk true names = .ok (.node place (.directory mode)) ∧
    disk.get? place = none ∧ ∀ name, after.get? (place ++ [name]) = none

/-- The names lead to a directory: it was there, and nothing changed, or it is new. -/
def IsEnsured (disk after : Disk) (names : List Text) : Prop :=
  after = disk ∧ disk.leadsToDirectory names = true ∨ EndsNew disk after names

theorem leadsToDirectory_iff :
    disk.leadsToDirectory names = true ↔
      ∃ place mode, disk.walk true names = .ok (.node place (.directory mode)) := by
  rw [leadsToDirectory]
  split
  · rename_i place mode reached
    simp [reached]
  · rename_i elsewhere
    simpa using elsewhere

/-- In a new directory nothing is found. -/
theorem EndsNew.not_leadsToDirectory (endsNew : EndsNew disk after front)
    (descends : Descends [last]) :
    ¬after.leadsToDirectory (front ++ [last]) = true := by
  intro leads
  obtain ⟨place, mode, reached, -, empty⟩ := endsNew
  obtain ⟨_, _, onwards⟩ := leadsToDirectory_iff.1 leads
  obtain ⟨noZero, size, within⟩ := walk_eq_ok_iff.1 onwards
  obtain ⟨location, node, ends⟩ := (leads_of_walkWithin within).exists_node
  obtain ⟨other, _, -, again, found⟩ :=
    exists_walk_of_concat descends (walk_eq_ok_iff.2 ⟨noZero, size, ends⟩)
  rw [reached] at again
  cases again
  rw [standing_of_none (empty last)] at found
  contradiction

/-- One directory is made where its name is free. -/
theorem growsAlong_step (rooted : IsRooted disk) (descends : Descends [last])
    (made : disk.makeDirectory (front ++ [last]) = .ok after) :
    GrowsAlong (front ++ [last]) disk after ∧ IsRooted after ∧
      EndsNew disk after (front ++ [last]) := by
  rw [makeDirectory] at made
  split at made
  · rename_i outer name walked
    split at made
    · contradiction
    cases made
    obtain ⟨place, mode, accepted, reached, ends⟩ := exists_walk_of_concat descends walked
    have free : disk.get? (place ++ [last]) = none := by
      cases held : disk.get? (place ++ [last]) with
      | none => rfl
      | some node =>
          rw [standing_of_some held] at ends
          contradiction
    rw [standing_of_none free] at ends
    obtain ⟨rfl, rfl⟩ : place = outer ∧ last = name := by simpa using ends.symm
    have stored (other : Location) :
        (disk.store (place ++ [last]) (.directory (disk.modeInside place))).get? other =
          if other = place ++ [last] then some (.directory (disk.modeInside place))
            else disk.get? other :=
      disk.get?_store (by simp) _ other
    have kept {other : Location} {node : Node} (held : disk.get? other = some node) :
        (disk.store (place ++ [last]) (.directory (disk.modeInside place))).get? other =
          some node := by
      rw [stored, if_neg, held]
      rintro rfl
      rw [free] at held
      contradiction
    have acceptedStill : (disk.store (place ++ [last])
        (.directory (disk.modeInside place))).refusal? place front last = none :=
      (refusal?_congr (disk.privileged_store _ _) (by simp [stored]) front last).trans accepted
    have reachedStill : (disk.store (place ++ [last])
        (.directory (disk.modeInside place))).walk true front =
          .ok (.node place (.directory mode)) :=
      walk_of_kept reached rfl fun _ _ held _ => kept held
    have onwards := walk_concat_eq_node reachedStill descends acceptedStill
      ((stored _).trans (if_pos rfl)) (by simp [kindOf]) true
    refine ⟨⟨rfl, fun other => ?_⟩, rooted.store (get?_of_walk reached) free _, _, _, onwards, free,
      fun name => ?_⟩
    · by_cases same : other = place ++ [last]
      · subst same
        exact .inr ⟨free, _, _, List.prefix_refl _, onwards⟩
      · exact .inl (by rw [stored, if_neg same])
    · rw [stored, if_neg (by simp), rooted.free_below free]
  · contradiction
  · contradiction

/-- In a directory that is ensured, the next one is there or is made. -/
theorem growsAlong_ensureDirectory (grows : GrowsAlong front disk between)
    (rooted : IsRooted between)
    (ensured : IsEnsured disk between front) (descends : Descends [last])
    (done : between.ensureDirectory (front ++ [last]) = .ok after) :
    GrowsAlong (front ++ [last]) disk after ∧ IsRooted after ∧
      IsEnsured disk after (front ++ [last]) := by
  have longer := grows.longer (List.prefix_append front [last])
  rw [ensureDirectory] at done
  split at done
  · rename_i made madeEq
    cases done
    obtain ⟨growsOnce, rootedAfter, place, mode, reached, free, empty⟩ :=
      growsAlong_step rooted descends madeEq
    exact ⟨longer.trans growsOnce, rootedAfter, .inr ⟨place, mode, reached, grows.free free, empty⟩⟩
  · split at done
    · rename_i leads
      cases done
      obtain ⟨rfl, -⟩ := ensured.resolve_right fun endsNew =>
        endsNew.not_leadsToDirectory descends leads
      exact ⟨longer, rooted, .inl ⟨rfl, leads⟩⟩
    · contradiction

/-- All missing directories are made, or as many as can be made. -/
theorem growsAlong_ensureDirectories (rooted : IsRooted disk) {reversed : List Text}
    (descends : Descends reversed) :
    GrowsAlong reversed.reverse disk (disk.ensureDirectories reversed).2 ∧
      IsRooted (disk.ensureDirectories reversed).2 ∧
        ((disk.ensureDirectories reversed).1 = .ok () →
          IsEnsured disk (disk.ensureDirectories reversed).2 reversed.reverse) := by
  induction reversed with
  | nil => exact ⟨.refl _ _, rooted, fun _ => .inl ⟨rfl, rfl⟩⟩
  | cons name outer ih =>
      obtain ⟨grows, rootedThen, ensured⟩ := ih fun other mem => descends other (by simp [mem])
      have nameDescends : Descends [name] := fun other mem => descends other (by simp_all)
      rw [ensureDirectories, List.reverse_cons]
      have longer {after : Disk} (grows : GrowsAlong outer.reverse disk after) :
          GrowsAlong (outer.reverse ++ [name]) disk after := grows.longer (List.prefix_append _ _)
      split
      · rename_i made madeEq
        obtain ⟨growsOnce, rootedAfter, endsNew⟩ := growsAlong_step rooted nameDescends madeEq
        exact ⟨growsOnce, rootedAfter, fun _ => .inr endsNew⟩
      · split
        · rename_i fault after outerEq
          rw [outerEq] at grows rootedThen
          exact ⟨longer grows, rootedThen, by simp⟩
        · rename_i after outerEq
          rw [outerEq] at grows rootedThen ensured
          cases done : after.ensureDirectory (outer.reverse ++ [name]) with
          | ok made =>
              obtain ⟨growsThen, rootedAfter, ensuredThen⟩ :=
                growsAlong_ensureDirectory grows rootedThen (ensured rfl) nameDescends done
              exact ⟨growsThen, rootedAfter, fun _ => ensuredThen⟩
          | error fault => exact ⟨longer grows, rootedThen, by simp⟩
      · split
        · rename_i leads
          exact ⟨.refl _ _, rooted, fun _ => .inl ⟨rfl, leads⟩⟩
        · exact ⟨.refl _ _, rooted, by simp⟩

end DistDirectives.Disk
