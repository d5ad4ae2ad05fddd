import Mathlib.Data.Finset.Card
import DistDirectives.Run.Cache
import DistDirectives.Proofs.Disk.Children

/-!
# What a cache remembers

A cache is asked for the libraries, and for the registries of one library or another, in any
order and while the disk changes. What it answers for a key is what the directory of that key
held at the first lookup that could list it; a lookup that fails leaves no trace, and lookups of
other keys make no difference. So a directory is listed once for every lookup that fails, and
once for every key that was ever found (`lookups_answer_once`).

One lookup is described by what the cache recalls of its key (`ask_eq`). Everything about many
lookups is one invariant, which a lookup keeps (`Follows.ask`).
-/

namespace DistDirectives.Run.Cache

/-! ## Lookups -/

/-- What can be looked up: all libraries, or the registries of a library. -/
inductive Key where
  | libraries
  | registries (library : Text)
  deriving DecidableEq

/-- The directory that is listed for a key. -/
def Key.directory (root : Path) : Key → Path
  | libraries => root.join Target.librariesDirectory
  | registries library => (root.join Target.librariesDirectory).join library

/-- A key that is looked up, and the disk as it is at that moment. -/
structure Lookup where
  key : Key
  disk : Disk

/-- What a lookup yields. -/
abbrev Answer := Except Failure (List Text)

/-- The answer of a cache, and the cache after it. -/
def ask (cache : Cache) (lookup : Lookup) : Answer × Cache :=
  match lookup.key with
  | .libraries => cache.findLibraries lookup.disk
  | .registries library => cache.findRegistries lookup.disk library

/-- Lookups one after the other with their answers, and the cache after all of them. -/
def askAll (cache : Cache) : List Lookup → List (Lookup × Answer) × Cache
  | [] => ([], cache)
  | lookup :: lookups =>
    let (answer, next) := cache.ask lookup
    let (log, last) := askAll next lookups
    ((lookup, answer) :: log, last)

/-- The number of lookups that failed. -/
def failures (log : List (Lookup × Answer)) : Nat := log.countP fun entry => !entry.2.isOk

/-- The keys that were looked up with success at least once. -/
def foundKeys (log : List (Lookup × Answer)) : Finset Key :=
  ((log.filter (·.2.isOk)).map (·.1.key)).toFinset

/-! ## Snapshots -/

/-- A lookup whose directory holds directories with some names, at that moment. -/
def Lookup.Finds (root : Path) (lookup : Lookup) (names : List Text) : Prop :=
  lookup.disk.Lists (lookup.key.directory root) names

/-- The directory of a key could be listed at a lookup of the key. -/
def IsFound (root : Path) (key : Key) (lookups : List Lookup) : Prop :=
  ∃ lookup ∈ lookups, lookup.key = key ∧ ∃ names, lookup.Finds root names

/-- The names that the directory of a key held at the first lookup of the key at which it could
be listed. -/
def IsSnapshot (root : Path) (key : Key) (lookups : List Lookup) (names : List Text) : Prop :=
  ∃ front lookup back, lookups = front ++ lookup :: back ∧ ¬ IsFound root key front ∧
    lookup.key = key ∧ lookup.Finds root names

variable {root : Path} {exclude : List Text} {cache : Cache} {key : Key} {lookup : Lookup}
  {lookups : List Lookup} {names : List Text} {failure : Failure} {log : List (Lookup × Answer)}

theorem isFound_append_iff :
    IsFound root key (lookups ++ [lookup]) ↔
      IsFound root key lookups ∨ lookup.key = key ∧ ∃ names, lookup.Finds root names := by
  simp [IsFound, or_and_right, exists_or]

theorem isSnapshot_append_iff :
    IsSnapshot root key (lookups ++ [lookup]) names ↔
      IsSnapshot root key lookups names ∨
        ¬ IsFound root key lookups ∧ lookup.key = key ∧ lookup.Finds root names := by
  constructor
  · rintro ⟨front, first, back, split, unknown, same, finds⟩
    rcases List.eq_nil_or_concat back with rfl | ⟨more, last, rfl⟩
    · obtain ⟨rfl, last_eq⟩ := List.append_inj' split rfl
      cases last_eq
      exact .inr ⟨unknown, same, finds⟩
    · rw [List.concat_eq_append, ← List.cons_append, ← List.append_assoc] at split
      exact .inl ⟨front, first, more, (List.append_inj' split rfl).1, unknown, same, finds⟩
  · rintro (⟨front, first, back, rfl, unknown, same, finds⟩ | ⟨unknown, same, finds⟩)
    · exact ⟨front, first, back ++ [lookup], by simp, unknown, same, finds⟩
    · exact ⟨lookups, lookup, [], rfl, unknown, same, finds⟩

/-- What was found has a first time. -/
theorem isFound_iff : IsFound root key lookups ↔ ∃ names, IsSnapshot root key lookups names := by
  induction lookups using List.reverseRecOn with
  | nil => simp [IsFound, IsSnapshot]
  | append_singleton lookups lookup ih =>
      by_cases known : IsFound root key lookups
      · simp only [isFound_append_iff, isSnapshot_append_iff, known, true_or, not_true_eq_false,
          false_and, or_false, ih.1 known]
      · simp only [isFound_append_iff, isSnapshot_append_iff, known, false_or, not_false_eq_true,
          true_and, exists_or, exists_and_left]
        rw [or_iff_right (ih.not.1 known)]

/-! ## One lookup -/

/-- What the cache knows of a key. -/
def recalls (cache : Cache) : Key → Option (List Text)
  | .libraries => cache.libraries
  | .registries library => cache.registries.lookup library

/-- The cache after a directory was listed, with success. -/
def remember (cache : Cache) (key : Key) (names : List Text) : Cache :=
  match key with
  | .libraries => { cache with scans := cache.scans + 1, libraries := some names }
  | .registries library =>
    { cache with scans := cache.scans + 1, registries := (library, names) :: cache.registries }

/-- The cache after a directory was listed in vain. -/
def looked (cache : Cache) : Cache := { cache with scans := cache.scans + 1 }

@[simp]
theorem root_remember : (cache.remember key names).root = cache.root := by
  cases key <;> rfl

@[simp]
theorem scans_remember : (cache.remember key names).scans = cache.scans + 1 := by
  cases key <;> rfl

/-- What is remembered is recalled for its own key, and changes nothing about the others. -/
theorem recalls_remember (other : Key) :
    (cache.remember key names).recalls other = if other = key then some names
      else cache.recalls other := by
  cases key with
  | libraries => cases other <;> rfl
  | registries library =>
      cases other with
      | libraries => rfl
      | registries another =>
          by_cases same : another = library
          · simp [remember, recalls, same]
          · have differs : (another == library) = false := by simpa using same
            simp [remember, recalls, List.lookup_cons, same, differs]

@[simp]
theorem recalls_looked : cache.looked.recalls key = cache.recalls key := by
  cases key <;> rfl

/-- A lookup of a known key answers what is known. Any other lookup lists the directory, and is
remembered if that succeeds. -/
theorem ask_eq (cache : Cache) (lookup : Lookup) :
    cache.ask lookup =
      match cache.recalls lookup.key with
      | some names => (.ok names, cache)
      | none =>
        match lookup.disk.listDirectories (lookup.key.directory cache.root) with
        | .ok names => (.ok names, cache.remember lookup.key names)
        | .error error =>
          (.error (.discovery (lookup.key.directory cache.root) error), cache.looked) := by
  rcases lookup with ⟨key, disk⟩
  rcases cache with ⟨root, exclusions, libraries, registries, scans⟩
  cases key with
  | libraries =>
      simp only [ask, findLibraries, recalls, subdirectories, librariesPath, Key.directory]
      cases libraries with
      | some names => rfl
      | none => cases disk.listDirectories (root.join Target.librariesDirectory) <;> rfl
  | registries library =>
      simp only [ask, findRegistries, recalls, subdirectories, libraryPath, librariesPath,
        Key.directory]
      cases registries.lookup library with
      | some names => rfl
      | none =>
          cases disk.listDirectories ((root.join Target.librariesDirectory).join library) <;> rfl

theorem ask_of_recalls_eq_some (known : cache.recalls lookup.key = some names) :
    cache.ask lookup = (.ok names, cache) := by
  rw [ask_eq, known]

/-- A lookup yields what is recalled after it. -/
theorem ask_eq_ok_iff :
    (cache.ask lookup).1 = .ok names ↔ (cache.ask lookup).2.recalls lookup.key = some names := by
  rw [ask_eq]
  cases known : cache.recalls lookup.key with
  | some others => simp [known]
  | none =>
      cases lookup.disk.listDirectories (lookup.key.directory cache.root) with
      | ok others => simp [recalls_remember]
      | error error => simp [known]

/-- A lookup fails when its key is unknown and its directory cannot be listed. -/
theorem ask_eq_error_iff :
    (cache.ask lookup).1 = .error failure ↔
      cache.recalls lookup.key = none ∧
        ∃ error, lookup.disk.list (lookup.key.directory cache.root) = .error error ∧
          failure = .discovery (lookup.key.directory cache.root) error := by
  rw [ask_eq, Disk.listDirectories]
  cases cache.recalls lookup.key with
  | some names => simp
  | none =>
      cases lookup.disk.list (lookup.key.directory cache.root) with
      | ok entries => simp [bind, Except.bind, pure, Except.pure]
      | error error => simp [bind, Except.bind, eq_comm]

theorem scans_ask_of_recalls_eq_none (unknown : cache.recalls lookup.key = none) :
    (cache.ask lookup).2.scans = cache.scans + 1 := by
  rw [ask_eq, unknown]
  cases lookup.disk.listDirectories (lookup.key.directory cache.root) with
  | ok names => exact scans_remember
  | error error => rfl

/-! ## Many lookups -/

theorem failures_append (answer : Answer) :
    failures (log ++ [(lookup, answer)]) = failures log + if answer.isOk then 0 else 1 := by
  cases answer <;> simp [failures, List.countP_append, Except.isOk, Except.toBool]

theorem foundKeys_append_ok :
    foundKeys (log ++ [(lookup, .ok names)]) = insert lookup.key (foundKeys log) := by
  simp [foundKeys, Except.isOk, Except.toBool, Finset.union_comm]

theorem foundKeys_append_error :
    foundKeys (log ++ [(lookup, .error failure)]) = foundKeys log := by
  simp [foundKeys, Except.isOk, Except.toBool]

/-- A cache that follows from lookups and their answers. -/
structure Follows (root : Path) (log : List (Lookup × Answer)) (cache : Cache) : Prop where
  root_eq : cache.root = root
  recalls_iff : ∀ key names,
    cache.recalls key = some names ↔ IsSnapshot root key (log.map (·.1)) names
  mem_foundKeys_iff : ∀ key, key ∈ foundKeys log ↔ IsFound root key (log.map (·.1))
  scans_eq : cache.scans = failures log + (foundKeys log).card

theorem follows_fresh (root : Path) (exclude : List Text) :
    Follows root [] (fresh root exclude) := by
  refine ⟨rfl, fun key names => ?_, fun key => ?_, rfl⟩
  · cases key <;> simp [fresh, recalls, IsSnapshot]
  · simp [foundKeys, IsFound]

namespace Follows

/-- A key is recalled once it was found. -/
theorem recalls_eq_none_iff (follows : Follows root log cache) (key : Key) :
    cache.recalls key = none ↔ ¬ IsFound root key (log.map (·.1)) := by
  rw [isFound_iff, Option.eq_none_iff_forall_ne_some, not_exists]
  exact forall_congr' fun names => (follows.recalls_iff key names).not

theorem listed_iff (follows : Follows root log cache) :
    lookup.disk.listDirectories (lookup.key.directory cache.root) = .ok names ↔
      lookup.Finds root names := by
  rw [Disk.listDirectories_eq_ok_iff_lists, follows.root_eq, Lookup.Finds]

theorem recalled (follows : Follows root log cache)
    (known : cache.recalls lookup.key = some names) :
    Follows root (log ++ [(lookup, .ok names)]) cache := by
  have found : IsFound root lookup.key (log.map (·.1)) :=
    isFound_iff.2 ⟨names, (follows.recalls_iff _ _).1 known⟩
  have keys_eq : foundKeys (log ++ [(lookup, .ok names)]) = foundKeys log := by
    rw [foundKeys_append_ok, Finset.insert_eq_of_mem ((follows.mem_foundKeys_iff _).2 found)]
  refine ⟨follows.root_eq, fun key others => ?_, fun key => ?_, ?_⟩
  · rw [follows.recalls_iff, List.map_append, List.map_singleton, isSnapshot_append_iff]
    refine (or_iff_left ?_).symm
    rintro ⟨unknown, rfl, _⟩
    exact unknown found
  · rw [keys_eq, follows.mem_foundKeys_iff, List.map_append, List.map_singleton, isFound_append_iff]
    refine (or_iff_left_of_imp ?_).symm
    rintro ⟨rfl, _⟩
    exact found
  · rw [keys_eq, follows.scans_eq, failures_append]
    rfl

theorem remembered (follows : Follows root log cache) (unknown : cache.recalls lookup.key = none)
    (finds : lookup.Finds root names) :
    Follows root (log ++ [(lookup, .ok names)]) (cache.remember lookup.key names) := by
  have unfound := (follows.recalls_eq_none_iff lookup.key).1 unknown
  refine ⟨by rw [root_remember, follows.root_eq], fun key others => ?_, fun key => ?_, ?_⟩
  · rw [recalls_remember, List.map_append, List.map_singleton, isSnapshot_append_iff]
    split
    · rename_i same
      subst same
      have first : ¬ IsSnapshot root lookup.key (log.map (·.1)) others :=
        fun snapshot => unfound (isFound_iff.2 ⟨others, snapshot⟩)
      simp only [first, unfound, false_or, not_false_eq_true, true_and, Option.some.injEq]
      constructor
      · rintro rfl
        exact finds
      · exact fun again => again.unique finds
    · rename_i differs
      rw [follows.recalls_iff]
      exact (or_iff_left fun here => differs here.2.1.symm).symm
  · rw [foundKeys_append_ok, Finset.mem_insert, follows.mem_foundKeys_iff, List.map_append,
      List.map_singleton, isFound_append_iff, or_comm]
    refine or_congr_right ⟨?_, fun here => here.1.symm⟩
    rintro rfl
    exact ⟨rfl, names, finds⟩
  · have fresh : lookup.key ∉ foundKeys log := (follows.mem_foundKeys_iff _).not.2 unfound
    rw [foundKeys_append_ok, Finset.card_insert_of_notMem fresh, scans_remember, follows.scans_eq,
      failures_append]
    rfl

theorem failed (follows : Follows root log cache) (blocked : ∀ names, ¬ lookup.Finds root names) :
    Follows root (log ++ [(lookup, .error failure)]) cache.looked := by
  refine ⟨follows.root_eq, fun key others => ?_, fun key => ?_, ?_⟩
  · rw [recalls_looked, follows.recalls_iff, List.map_append, List.map_singleton,
      isSnapshot_append_iff]
    exact (or_iff_left fun here => blocked _ here.2.2).symm
  · rw [foundKeys_append_error, follows.mem_foundKeys_iff, List.map_append, List.map_singleton,
      isFound_append_iff]
    exact (or_iff_left fun here => here.2.elim blocked).symm
  · rw [foundKeys_append_error, failures_append, looked, follows.scans_eq, Nat.add_right_comm]
    rfl

/-- A lookup keeps what the cache follows from. -/
theorem ask (follows : Follows root log cache) (lookup : Lookup) :
    Follows root (log ++ [(lookup, (cache.ask lookup).1)]) (cache.ask lookup).2 := by
  rw [ask_eq]
  cases known : cache.recalls lookup.key with
  | some names => exact follows.recalled known
  | none =>
      cases listed : lookup.disk.listDirectories (lookup.key.directory cache.root) with
      | ok names => exact follows.remembered known (follows.listed_iff.1 listed)
      | error error =>
          refine follows.failed fun names finds => ?_
          rw [follows.listed_iff.2 finds] at listed
          contradiction

theorem askAll (follows : Follows root log cache) (lookups : List Lookup) :
    Follows root (log ++ (cache.askAll lookups).1) (cache.askAll lookups).2 := by
  induction lookups generalizing log cache with
  | nil => rwa [Cache.askAll, List.append_nil]
  | cons lookup lookups ih =>
      have next := ih (follows.ask lookup)
      rwa [List.append_assoc] at next

end Follows

theorem map_askAll (cache : Cache) (lookups : List Lookup) :
    (cache.askAll lookups).1.map (·.1) = lookups := by
  induction lookups generalizing cache with
  | nil => rfl
  | cons lookup lookups ih => exact congrArg (lookup :: ·) (ih _)

/-! ## Snapshots and scans -/

/-- What is known of the next lookup after a sequence of lookups with their answers: it yields
what the directory of its key held when it could be listed for the first time, and fails as that
directory fails to be listed if that never succeeded. It lists the directory unless its key was
found before. So far, directories were listed once for every lookup that failed and once for every
key that was found. -/
structure AnswersOnce (root : Path) (lookups : List Lookup) (lookup : Lookup)
    (before : List (Lookup × Answer) × Cache) (next : Answer × Cache) : Prop where
  ok_iff : ∀ names, next.1 = .ok names ↔ IsSnapshot root lookup.key (lookups ++ [lookup]) names
  error_iff : ∀ failure, next.1 = .error failure ↔
    ¬ IsFound root lookup.key (lookups ++ [lookup]) ∧
      ∃ error, lookup.disk.list (lookup.key.directory root) = .error error ∧
        failure = .discovery (lookup.key.directory root) error
  kept : IsFound root lookup.key lookups → next.2 = before.2
  scansAgain : ¬ IsFound root lookup.key lookups → next.2.scans = before.2.scans + 1
  logged : before.1.map (·.1) = lookups
  scans_eq : before.2.scans = failures before.1 + (foundKeys before.1).card

theorem Follows.answersOnce (follows : Follows root log cache) (lookup : Lookup) :
    AnswersOnce root (log.map (·.1)) lookup (log, cache) (cache.ask lookup) := by
  have unknown_iff := follows.recalls_eq_none_iff lookup.key
  constructor
  case ok_iff =>
    intro names
    have next := (follows.ask lookup).recalls_iff lookup.key names
    rwa [List.map_append, ← ask_eq_ok_iff] at next
  case error_iff =>
    intro failure
    rw [ask_eq_error_iff, unknown_iff, follows.root_eq, isFound_append_iff, not_or, and_assoc]
    refine and_congr_right fun _ => (and_iff_right_of_imp ?_).symm
    -- a directory that is not listed does not hold any names
    rintro ⟨error, refused, _⟩ ⟨_, names, finds⟩
    have listed := Disk.listDirectories_eq_ok_iff_lists.2 finds
    rw [Disk.listDirectories, refused] at listed
    contradiction
  case kept =>
    intro found
    cases known : cache.recalls lookup.key with
    | none => exact absurd found (unknown_iff.1 known)
    | some names => rw [ask_of_recalls_eq_some known]
  case scansAgain => exact fun unfound => scans_ask_of_recalls_eq_none (unknown_iff.2 unfound)
  case logged => rfl
  case scans_eq => exact follows.scans_eq

/-- Whatever a fresh cache is asked for, and however the disk changes in between, every lookup
answers once and for all. -/
theorem lookups_answer_once (root : Path) (exclude : List Text) (lookups : List Lookup)
    (lookup : Lookup) :
    AnswersOnce root lookups lookup ((fresh root exclude).askAll lookups)
      (((fresh root exclude).askAll lookups).2.ask lookup) := by
  have follows := (follows_fresh root exclude).askAll lookups
  rw [List.nil_append] at follows
  have answers := follows.answersOnce lookup
  rwa [map_askAll] at answers

end DistDirectives.Run.Cache
