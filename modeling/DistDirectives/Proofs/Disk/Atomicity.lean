import DistDirectives.Proofs.Disk.Growth
import DistDirectives.Proofs.Disk.Staging

/-!
# All or nothing

A replacement can fail when the directories on the way are made, when the temporary file is
made, and when that file is to take its place. A replacement that fails leaves new
directories on the way at most. One that succeeds leaves them and the file, which stands
where nothing, a file or a link stood before.

The path then leads to that file, with one exception. A link at the end of a path can be
one that the path has passed on its way there. It is replaced nevertheless, and then the
path leads nowhere: its way ends at the new file.
-/

namespace DistDirectives.Disk

variable {disk after : Disk} {path : Path} {names front : List Text} {place location : Location}
  {last : Text} {content : Bytes} {mode : Nat}

/-! ## Replacements where the directory is there -/

theorem temporaryName_ne_last (site : IsSite disk path place last) (writer : Text) :
    temporaryName writer path.segments ≠ last := by
  intro same
  have apart :=
    @temporaryPlace_ne_self writer path.segments.dropLast last (site.descends last (by simp)).2
  rw [site.split, temporaryPlace, same, site.split] at apart
  exact apart rfl

/-- Where the directory is there, a replacement is refused and changes nothing, or it puts a
file in a place that does not hold a directory. The permission bits of the file are those that
are left of what stood at the path. -/
theorem IsSite.replaceFile_cases (site : IsSite disk path place last) (writer : Text)
    (content : Bytes) :
    (∃ error after, disk.replaceFile writer path content = (.error error, after) ∧
      after.privileged = disk.privileged ∧ ∀ other, after.get? other = disk.get? other) ∨
      ∃ after, disk.replaceFile writer path content = (.ok (), after) ∧
        after.privileged = disk.privileged ∧
        disk.refusal? place path.segments.dropLast last = none ∧
          (∀ inner, disk.get? (place ++ [last]) ≠ some (.directory inner)) ∧
            ∀ other, after.get? other =
              if other = place ++ [last] then some (.file content (disk.replacementMode path))
              else disk.get? other := by
  rw [replaceFile_eq]
  rcases site.stage_cases writer content with ⟨error, refused⟩ | ⟨free, staged⟩
  · rw [refused]
    exact .inl ⟨error, disk, rfl, rfl, fun _ => rfl⟩
  rw [staged]
  simp only
  generalize disk.replacementMode path = mode
  have differs : place ++ [last] ≠ place ++ [temporaryName writer path.segments] := by
    simpa using (temporaryName_ne_last site writer).symm
  have nonempty : place ++ [temporaryName writer path.segments] ≠ [] := by simp
  generalize place ++ [temporaryName writer path.segments] = temporary at *
  have stored (other : Location) : (disk.store temporary (.file content mode)).get? other =
      if other = temporary then some (.file content mode) else disk.get? other :=
    disk.get?_store nonempty _ other
  have erased (other : Location) :
      ((disk.store temporary (.file content mode)).erase temporary).get? other =
        disk.get? other := by
    rw [get?_erase _ nonempty, stored]
    split
    · rename_i same
      rw [same, free]
    · rfl
  have siteThen : IsSite (disk.store temporary (.file content mode)) path place last := by
    refine site.mono rfl fun other node held _ => ?_
    rw [stored, if_neg, held]
    rintro rfl
    rw [free] at held
    contradiction
  have own := (stored (place ++ [last])).trans (if_neg differs)
  rcases siteThen.settle_cases temporary (.file content mode) with
    ⟨error, failed⟩ | ⟨accepted, noDirectory, settled⟩
  · exact .inl ⟨error, _, failed, rfl, erased⟩
  · rw [own] at noDirectory
    have alike : SameDirectories disk (disk.store temporary (.file content mode)) :=
      .store nonempty (by rw [free]; simp) content mode
    rw [alike.refusal?] at accepted
    refine .inr ⟨_, settled, rfl, accepted, noDirectory, fun other => ?_⟩
    rw [get?_store _ (by simp), erased]

/-! ## Links that a path passes and ends at -/

theorem get?_erase_eq_some_iff (disk : Disk) (below : location ≠ []) {other : Location}
    {node : Node} :
    (disk.erase location).get? other = some node ↔
      other ≠ location ∧ disk.get? other = some node := by
  rw [get?_erase _ below]
  split <;> simp_all

/-- The names end at a link that they pass on their way there: without it they lead nowhere. -/
def PassesOwnEnd (disk : Disk) (names : List Text) : Prop :=
  ∃ location target, disk.walk false names = .ok (.node location (.link target)) ∧
    ∀ found, (disk.erase location).walk false names ≠ .ok found

/-- When a file takes the place of a link, a walk gets to where it led without the link, or it
comes to the file and ends there. -/
theorem Leads.erase_or_blocked {links : Nat} {here : Location} {target : Text}
    (leads : Leads disk place links here front) (reached : IsReached disk here)
    (alike : SameDirectories disk after)
    (held : disk.get? location = some (.link target))
    (replaced : after.get? location = some (.file content mode))
    (others : ∀ other, other ≠ location → after.get? other = disk.get? other) :
    Leads (disk.erase location) place links here front ∨
      ∀ followLast rest, rest ≠ [] →
        after.walkWithin followLast links here (front ++ rest) = .error .notDirectory := by
  have below : location ≠ [] := by
    rintro rfl
    cases held
  have directory_ne {other : Location} {inner : Nat}
      (directory : disk.get? other = some (.directory inner)) : other ≠ location := by
    rintro rfl
    cases held.symm.trans directory
  have kept {other : Location} (apart : other ≠ location) :
      (disk.erase location).get? other = disk.get? other := by
    rw [get?_erase _ below, if_neg apart]
  have without : SameDirectories disk (disk.erase location) := .erase below (by simp [held])
  induction leads with
  | arrived links mode directory =>
      obtain ⟨inner, isDirectory⟩ := reached.directory
      refine .inl (.arrived links mode ?_)
      rw [kept (directory_ne isDirectory), directory]
  | stay _ ih =>
      refine (ih reached).imp .stay fun blocked followLast rest nonempty => ?_
      rw [List.cons_append, walkWithin_stay, blocked followLast rest nonempty]
  | up searched _ ih =>
      refine (ih reached.dropLast).imp (.up ((without.allows _ _).trans searched)) ?_
      intro blocked followLast rest nonempty
      rw [List.cons_append, walkWithin_up ((alike.allows _ _).trans searched),
        blocked followLast rest nonempty]
  | down lookedUp found _ ih =>
      have apart := directory_ne found
      refine (ih (reached.concat found)).imp
        (.down (lookedUp.congr without) (by rw [kept apart, found])) ?_
      intro blocked followLast rest nonempty
      simp only [List.cons_append, walkWithin_lookedUp _ _ _ _ (lookedUp.congr alike),
        others _ apart, found, blocked followLast rest nonempty]
  | @follow links here name target names lookedUp found _ ih =>
      have more {rest : List Text} (nonempty : rest ≠ []) : (names ++ rest).isEmpty = false := by
        simp [nonempty]
      by_cases own : here ++ [name] = location
      · refine .inr fun followLast rest nonempty => ?_
        simp only [List.cons_append, walkWithin_lookedUp _ _ _ _ (lookedUp.congr alike), own,
          replaced, more nonempty, Bool.false_eq_true, if_false]
      · refine (ih (reached.linkOrigin target)).imp
          (.follow (lookedUp.congr without) (by rw [kept own, found])) ?_
        intro blocked followLast rest nonempty
        simp only [List.cons_append, walkWithin_lookedUp _ _ _ _ (lookedUp.congr alike),
          others _ own, found, more nonempty,
          Bool.false_and, Bool.false_eq_true, if_false, ← List.append_assoc]
        exact blocked followLast rest nonempty

/-- Without what stands at a path the directory is still reached, unless that is a link that the
path passes. -/
theorem IsSite.walk_erase (site : IsSite disk path place last)
    (accepted : disk.refusal? place path.segments.dropLast last = none)
    (noDirectory : ∀ inner, disk.get? (place ++ [last]) ≠ some (.directory inner))
    (passesNot : ¬PassesOwnEnd disk path.segments) {inner : Nat}
    (reached : disk.walk true path.segments.dropLast = .ok (.node place (.directory inner))) :
    (disk.erase (place ++ [last])).walk true path.segments.dropLast =
      .ok (.node place (.directory inner)) := by
  have unpassed
      (stands : ∀ node, disk.get? (place ++ [last]) = some node →
        StandsForFile disk (place ++ [last])) :
      (disk.erase (place ++ [last])).walk true path.segments.dropLast =
        .ok (.node place (.directory inner)) := by
    refine walk_of_kept reached rfl fun other node held noFile => ?_
    rw [get?_erase _ (by simp), if_neg, held]
    rintro rfl
    exact noFile (stands node held)
  cases held : disk.get? (place ++ [last]) with
  | none => exact unpassed fun node isNode => by simp [held] at isNode
  | some node =>
      cases node with
      | file content mode => exact unpassed fun _ _ => .file held
      | directory mode => exact absurd held (noDirectory mode)
      | link target =>
          have walked := site.walk_eq
          simp only [accepted, standing_of_some held] at walked
          obtain ⟨found, foundEq⟩ :
              ∃ found, (disk.erase (place ++ [last])).walk false path.segments = .ok found := by
            by_contra nothing
            exact passesNot ⟨_, target, walked, fun found foundEq => nothing ⟨found, foundEq⟩⟩
          rw [← site.split] at foundEq
          obtain ⟨other, mode, -, otherReached, -⟩ := exists_walk_of_concat site.descends foundEq
          -- the directory reached without the link is the same: more on the disk keeps a walk
          have same := walk_of_kept otherReached (disk.privileged_erase _).symm
            fun other node held _ => ((get?_erase_eq_some_iff _ (by simp)).1 held).2
          rw [reached] at same
          cases same
          exact otherReached

/-- When a file takes the place of what stands at a path, the path leads to it, unless that was a
link that the path passes. Then the way of the path ends at the file. -/
theorem IsSite.walk_of_replaced (site : IsSite disk path place last)
    (accepted : disk.refusal? place path.segments.dropLast last = none)
    (noDirectory : ∀ inner, disk.get? (place ++ [last]) ≠ some (.directory inner))
    (rights : after.privileged = disk.privileged)
    (replaced : ∀ other, after.get? other =
      if other = place ++ [last] then some (.file content mode) else disk.get? other)
        (followLast : Bool) :
    (¬PassesOwnEnd disk path.segments →
      after.walk followLast path.segments = .ok (.node (place ++ [last]) (.file content mode))) ∧
      (PassesOwnEnd disk path.segments →
        after.walk followLast path.segments = .error .notDirectory) := by
  have own := (replaced (place ++ [last])).trans (if_pos rfl)
  have others (other : Location) (apart : other ≠ place ++ [last]) :
      after.get? other = disk.get? other :=
    (replaced other).trans (if_neg apart)
  have alike : SameDirectories disk after := .of_replaced rights noDirectory replaced
  obtain ⟨inner, reached⟩ := site.reached
  constructor
  · intro passesNot
    have without := site.walk_erase accepted noDirectory passesNot reached
    have reachedThen :
        after.walk true path.segments.dropLast = .ok (.node place (.directory inner)) := by
      refine walk_of_kept without rights fun other node held _ => ?_
      obtain ⟨apart, held⟩ := (get?_erase_eq_some_iff _ (by simp)).1 held
      rw [others other apart, held]
    have onwards :=
      walk_concat_eq_node reachedThen site.descends ((alike.refusal? _ _ _).trans accepted) own
        (by simp [kindOf]) followLast
    rwa [site.split] at onwards
  · rintro ⟨location, target, ends, nothing⟩
    have walked := site.walk_eq
    simp only [accepted] at walked
    obtain ⟨noZero, size, -, short⟩ := refusal?_eq_none_iff.1 accepted
    obtain ⟨frontZero, frontSize⟩ := any_and_size_of_concat noZero size
    have leads := leads_of_walkWithin (walk_eq_ok_iff.1 reached).2.2
    obtain ⟨rfl, held⟩ : place ++ [last] = location ∧
        disk.get? (place ++ [last]) = some (.link target) := by
      rw [walked, standing] at ends
      split at ends
      · rename_i node held
        cases ends
        exact ⟨rfl, held⟩
      · cases ends
    rcases leads.erase_or_blocked (.top disk) alike held own others with clear | blocked
    · obtain ⟨_, reachedWithout⟩ := walk_of_leads clear frontZero frontSize
      have onwards := walk_concat reachedWithout site.descends
      have without : SameDirectories disk (disk.erase (place ++ [last])) :=
        .erase (by simp) noDirectory
      rw [site.split, without.refusal?, accepted] at onwards
      exact absurd onwards (nothing _)
    · have within := blocked followLast [last] (by simp)
      rw [site.split] at within noZero size
      rw [walk, resolve, if_neg (by simpa using noZero), if_neg size,
        if_neg (by simpa using noZero), within]

/-! ## All or nothing -/

/-- A file with the content took its place at the end of the path, where nothing, a file or a
link stood. All other locations hold what they held, or directories that were missing on the
way. The path leads to the file unless it passes the link that was replaced. -/
structure IsReplaced (disk after : Disk) (path : Path) (content : Bytes)
    (location : Location) : Prop where
  freed : ∀ node, disk.get? location = some node →
    kindOf node ≠ .directory ∧ disk.walk false path.segments = .ok (.node location node)
  others : ∀ other, other ≠ location →
    after.get? other = disk.get? other ∨ IsMade disk after path.segments.dropLast other
  held : ∃ mode, after.get? location = some (.file content mode) ∧
    (¬PassesOwnEnd disk path.segments → ∀ followLast,
      after.walk followLast path.segments = .ok (.node location (.file content mode)))
  lost : PassesOwnEnd disk path.segments → ∀ followLast,
    after.walk followLast path.segments = .error .notDirectory

/-- All locations hold what they held, or directories that were missing on the way, and these
hold nothing but each other. -/
structure IsRefused (disk after : Disk) (path : Path) : Prop where
  grows : GrowsAlong path.segments.dropLast disk after
  hollow : ∀ location, IsMade disk after path.segments.dropLast location → ∀ name node,
    after.get? (location ++ [name]) = some node →
      IsMade disk after path.segments.dropLast (location ++ [name])

/-- Where the directory is there, it takes nothing but the file. -/
theorem IsSite.isReplaced (site : IsSite disk path place last)
    (accepted : disk.refusal? place path.segments.dropLast last = none)
    (noDirectory : ∀ inner, disk.get? (place ++ [last]) ≠ some (.directory inner))
    (rights : after.privileged = disk.privileged)
    (replaced : ∀ other, after.get? other =
      if other = place ++ [last] then some (.file content mode) else disk.get? other) :
    IsReplaced disk after path content (place ++ [last]) := by
  have leads := site.walk_of_replaced accepted noDirectory rights replaced
  refine ⟨fun node held => ⟨?_, ?_⟩,
    fun other apart => .inl ((replaced other).trans (if_neg apart)),
    ⟨mode, (replaced _).trans (if_pos rfl),
      fun passesNot followLast => (leads followLast).1 passesNot⟩,
    fun passes followLast => (leads followLast).2 passes⟩
  · rintro isDirectory
    cases node with
    | file => contradiction
    | link => contradiction
    | directory inner => exact noDirectory inner held
  · rw [site.walk_eq, accepted, standing_of_some held]

/-- Where the directory is new, nothing was in the place of the file. -/
theorem IsSite.isReplaced_of_new {between : Disk} (site : IsSite between path place last)
    (accepted : between.refusal? place path.segments.dropLast last = none)
    (rights : after.privileged = between.privileged)
    (replaced : ∀ other, after.get? other =
      if other = place ++ [last] then some (.file content mode) else between.get? other)
    (grows : GrowsAlong path.segments.dropLast disk between) (rooted : IsRooted disk)
    (free : disk.get? place = none) (empty : between.get? (place ++ [last]) = none) :
    IsReplaced disk after path content (place ++ [last]) := by
  obtain ⟨inner, reached⟩ := site.reached
  have kept (other : Location) (node : Node) (held : between.get? other = some node) :
      after.get? other = some node := by
    rw [replaced, if_neg, held]
    rintro rfl
    rw [empty] at held
    contradiction
  have unpassed : ¬PassesOwnEnd between path.segments := by
    rintro ⟨location, target, ends, -⟩
    simp only [site.walk_eq, accepted, standing_of_none empty] at ends
    cases ends
  have unpassedBefore : ¬PassesOwnEnd disk path.segments := by
    rintro ⟨location, target, ends, -⟩
    rw [← site.split] at ends
    obtain ⟨other, otherMode, -, before, -⟩ := exists_walk_of_concat site.descends ends
    cases reached.symm.trans (grows.walk before)
    cases free.symm.trans (get?_of_walk before)
  refine ⟨fun node held => ?_, fun other apart => ?_,
    ⟨mode, (replaced _).trans (if_pos rfl), fun _ followLast => ?_⟩,
    fun passes => absurd passes unpassedBefore⟩
  · cases (rooted.free_below free last).symm.trans held
  · have same : after.get? other = between.get? other := (replaced other).trans (if_neg apart)
    rcases grows.places other with before | ⟨free, front, otherMode, isFront, onWay⟩
    · exact .inl (same.trans before)
    · exact .inr ⟨free, front, otherMode, isFront,
        walk_of_kept onWay rights fun _ _ held _ => kept _ _ held⟩
  · refine (site.walk_of_replaced accepted (fun inner held => ?_) rights replaced followLast).1
      unpassed
    cases empty.symm.trans held

theorem IsEnsured.exists_isSite {between : Disk}
    (ensured : IsEnsured disk between path.segments.dropLast)
    (split : path.segments.dropLast ++ [last] = path.segments) (descends : Descends [last]) :
    ∃ place, IsSite between path place last ∧
      (between = disk ∨ disk.get? place = none ∧ between.get? (place ++ [last]) = none) := by
  rcases ensured with ⟨rfl, leads⟩ | ⟨place, mode, reached, free, empty⟩
  · obtain ⟨place, mode, reached⟩ := leadsToDirectory_iff.1 leads
    exact ⟨place, ⟨split, descends, mode, reached⟩, .inl rfl⟩
  · exact ⟨place, ⟨split, descends, mode, reached⟩, .inr ⟨free, empty last⟩⟩

/-- When the directories were made, the replacement goes on as if they had always been there. -/
theorem replaceFile_of_ensured {between : Disk} (site : IsSite between path place last)
    (ensured : disk.ensureDirectories path.segments.dropLast.reverse = (.ok (), between))
    (writer : Text)
    (content : Bytes) :
    disk.replaceFile writer path content = between.replaceFile writer path content := by
  rw [replaceFile, replaceFile, ensured, site.ensureDirectories_eq]

/-- A replacement does all of its work, or none but for new directories on the way. This holds on
any disk, whatever stands at the path and however links lead there, for a path with a name
that does not go up. -/
theorem replaceFile_all_or_nothing (rooted : IsRooted disk) (named : path.segments ≠ [])
    (direct : ['.', '.'] ∉ path.segments) (writer : Text) (content : Bytes) :
    (∀ after, disk.replaceFile writer path content = (.ok (), after) →
      ∃ location, IsReplaced disk after path content location) ∧
      ∀ error after, disk.replaceFile writer path content = (.error error, after) →
        IsRefused disk after path := by
  have descends : Descends path.segments := fun name mem =>
    ⟨(Path.isSegment_of_mem_segments mem).ne_dot, fun up => direct (up ▸ mem)⟩
  obtain ⟨last, split⟩ : ∃ last, path.segments.dropLast ++ [last] = path.segments :=
    ⟨_, List.dropLast_concat_getLast named⟩
  have lastDescends : Descends [last] := fun name mem =>
    descends name (split ▸ List.mem_append_right _ mem)
  have frontDescends : Descends path.segments.dropLast.reverse := fun name mem =>
    descends name ((List.dropLast_sublist _).subset (List.mem_reverse.1 mem))
  obtain ⟨grows, rootedThen, ensured⟩ := growsAlong_ensureDirectories rooted frontDescends
  rw [List.reverse_reverse] at grows ensured
  have refused {after : Disk} (grows : GrowsAlong path.segments.dropLast disk after) :
      IsRefused disk after path :=
        ⟨grows, fun _ made _ _ held => grows.isMade_below rooted made held⟩
  cases made : disk.ensureDirectories path.segments.dropLast.reverse with
  | mk result between =>
      rw [made] at grows ensured
      cases result with
      | error fault =>
          have replaced : disk.replaceFile writer path content =
              (.error (.at (spelledParent path) fault), between) := by
            rw [replaceFile, made]
          rw [replaced]
          refine ⟨by simp, fun _ _ ended => ?_⟩
          cases ended
          exact refused grows
      | ok =>
          obtain ⟨place, site, fresh⟩ := (ensured rfl).exists_isSite split lastDescends
          rw [replaceFile_of_ensured site made]
          rcases site.replaceFile_cases writer content with
            ⟨error, after, replaced, rights, same⟩ |
              ⟨after, replaced, rights, accepted, noDirectory, stored⟩
          · rw [replaced]
            refine ⟨by simp, fun _ _ ended => ?_⟩
            cases ended
            exact refused (grows.trans ⟨rights, fun location => .inl (same location)⟩)
          · rw [replaced]
            refine ⟨fun _ ended => ?_, by simp⟩
            cases ended
            refine ⟨place ++ [last], ?_⟩
            rcases fresh with rfl | ⟨free, empty⟩
            · exact site.isReplaced accepted noDirectory rights stored
            · exact site.isReplaced_of_new accepted rights stored grows rooted free empty

/-- A directory, a link to it, and a link that leads round in a circle. -/
def circularDisk : Disk :=
  Disk.empty
    |>.store ["d".toList] (.directory Node.directoryMode)
    |>.store ["a".toList] (.link "d".toList)
    |>.store ["b".toList] (.link ".".toList)

/-- A path with a name on the way that is too long. -/
def blockedPath : Path := Path.ofText ("a/n/".toList ++ List.replicate 256 'x' ++ "/y".toList)

/-- Behind links a file is put into a new directory. Where a name on the way is too long, a new
directory is all that is left. -/
theorem replaceFile_all_or_nothing_circular :
    (∃ after location, circularDisk.replaceFile "1".toList (Path.ofText "b/a/n/x.js".toList) [120] =
        (.ok (), after) ∧
          IsReplaced circularDisk after (Path.ofText "b/a/n/x.js".toList) [120] location) ∧
      ∃ error after, circularDisk.replaceFile "1".toList blockedPath [120] = (.error error, after) ∧
        IsRefused circularDisk after blockedPath ∧ after ≠ circularDisk := by
  have rooted : IsRooted circularDisk := by decide +kernel
  constructor
  · have done : circularDisk.replaceFile "1".toList (Path.ofText "b/a/n/x.js".toList) [120] =
        (.ok (), (circularDisk.replaceFile "1".toList
          (Path.ofText "b/a/n/x.js".toList) [120]).2) := by
      decide +kernel
    obtain ⟨location, replaced⟩ :=
      (replaceFile_all_or_nothing rooted (by decide +kernel) (by decide +kernel) _ _).1 _ done
    exact ⟨_, location, done, replaced⟩
  · have failed : circularDisk.replaceFile "1".toList blockedPath [120] =
        (.error (.at ("a/n/".toList ++ List.replicate 256 'x') .nameTooLong),
          (circularDisk.replaceFile "1".toList blockedPath [120]).2) := by decide +kernel
    have refused :=
      (replaceFile_all_or_nothing rooted (by decide +kernel) (by decide +kernel) _ _).2 _ _ failed
    exact ⟨_, _, failed, refused, by decide +kernel⟩

/-- A file takes the place of the link that its path passes, and is not found there. -/
theorem replaceFile_not_read_back :
    ¬∀ (disk : Disk) (writer : Text) (path : Path) (content : Bytes) (after : Disk), IsRooted disk →
      path.segments ≠ [] → ['.', '.'] ∉ path.segments →
        disk.replaceFile writer path content = (.ok (), after) →
          after.readBytes path = .ok content := by
  intro readBack
  have read := readBack circularDisk "1".toList (Path.ofText "b/b".toList) [120]
    (circularDisk.replaceFile "1".toList (Path.ofText "b/b".toList) [120]).2 (by decide +kernel)
    (by decide +kernel) (by decide +kernel) (by decide +kernel)
  exact absurd read (by decide +kernel)

end DistDirectives.Disk
