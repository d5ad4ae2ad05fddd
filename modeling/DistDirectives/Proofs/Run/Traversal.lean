import DistDirectives.Run.Discovery
import DistDirectives.Proofs.Disk.Descent
import DistDirectives.Proofs.Lists

/-!
# The walk of a discovery

A discovery takes entries from a stack until none is left. That is a recursion over
directories in pre-order: the entries of a directory are put onto the stack from the last to
the first, so everything below the first one is taken before the second one is.

The recursion goes down a number of levels. On every disk, what the loop yields the recursion
yields, with levels enough. The converse also needs that the loop has steps enough, and this
is so where names are plain: a path grows on every level, and paths that are too long are not
listed. There the two are equal, also in how they fail.
-/

namespace DistDirectives.Run.Discovery

open Disk (HasPlainNames Reaches Spells)

variable {disk other : Disk} {root path : Path} {exclusions : List Path} {entry : Disk.Entry}
  {entries stack : List Disk.Entry} {found sources : List SourceFile} {depth steps : Nat}

/-- What an entry brings, given what is found below directories. -/
def visit (disk : Disk) (root : Path) (exclusions : List Path)
    (descend : Path → Except Failure (List SourceFile)) (entry : Disk.Entry) :
    Except Failure (List SourceFile) :=
  match entry.path.relativeTo? root with
  | none => .ok []
  | some relative =>
    if isExcluded exclusions relative then
      .ok []
    else
      match entry.kind with
      | .directory => descend entry.path
      | .file => sourceAt disk relative entry.path
      | .other => .ok []

/-- The sources below a directory in pre-order, with a number of levels to go down. -/
def sourcesBelow (disk : Disk) (root : Path) (exclusions : List Path) :
    Nat → Path → Except Failure (List SourceFile)
  | 0, path => .error (.discovery path (.at path.text .nameTooLong))
  | depth + 1, path =>
    match disk.list path with
    | .error error => .error (.discovery path error)
    | .ok entries => do
      let pieces ← entries.mapM
          (visit disk root exclusions (sourcesBelow disk root exclusions depth))
      return pieces.flatten

/-- The sources among entries and below them. -/
def sourcesAmong (disk : Disk) (root : Path) (exclusions : List Path) (depth : Nat)
    (entries : List Disk.Entry) : Except Failure (List SourceFile) := do
  let pieces ← entries.mapM (visit disk root exclusions (sourcesBelow disk root exclusions depth))
  return pieces.flatten

theorem sourcesBelow_succ (disk : Disk) (root : Path) (exclusions : List Path) (depth : Nat)
    (path : Path) :
    sourcesBelow disk root exclusions (depth + 1) path =
      match disk.list path with
      | .error error => .error (.discovery path error)
      | .ok entries => sourcesAmong disk root exclusions depth entries := rfl

@[simp]
theorem sourcesAmong_nil : sourcesAmong disk root exclusions depth [] = .ok [] := rfl

theorem sourcesAmong_cons :
    sourcesAmong disk root exclusions depth (entry :: entries) =
      (visit disk root exclusions (sourcesBelow disk root exclusions depth) entry >>= fun first =>
        sourcesAmong disk root exclusions depth entries >>= fun rest => .ok (first ++ rest)) := by
  simp only [sourcesAmong, List.mapM_cons, bind_assoc, pure_bind, List.flatten_cons]
  rfl

theorem sourcesAmong_append :
    sourcesAmong disk root exclusions depth (entries ++ stack) =
      (sourcesAmong disk root exclusions depth entries >>= fun first =>
        sourcesAmong disk root exclusions depth stack >>= fun rest => .ok (first ++ rest)) := by
  simp only [sourcesAmong, List.mapM_append, bind_assoc, pure_bind, List.flatten_append]
  rfl

/-- A directory is listed as the entries are put onto the stack. -/
theorem stacked_reverse (stack entries : List Disk.Entry) :
    stacked stack entries.reverse = entries ++ stack := by
  simp [stacked]

/-! ## One entry -/

/-- An entry is a directory to go down into. -/
def IsEntered (root : Path) (exclusions : List Path) (entry : Disk.Entry) : Prop :=
  entry.kind = .directory ∧
    ∃ relative, entry.path.relativeTo? root = some relative ∧ isExcluded exclusions relative = false

theorem visit_of_isEntered (entered : IsEntered root exclusions entry)
    (descend : Path → Except Failure (List SourceFile)) :
    visit disk root exclusions descend entry = descend entry.path := by
  obtain ⟨directory, relative, seen, kept⟩ := entered
  simp only [visit, seen, kept, directory, if_neg Bool.false_ne_true]

/-- The entries of a directory are taken before those that stood below it on the stack. -/
theorem sweep_of_isEntered (entered : IsEntered root exclusions entry) :
    sweep disk root exclusions (steps + 1) (entry :: stack) found =
      match disk.list entry.path with
      | .error error => .error (.discovery entry.path error)
      | .ok entries => sweep disk root exclusions steps (entries ++ stack) found := by
  obtain ⟨directory, relative, seen, kept⟩ := entered
  simp only [sweep, seen, kept, directory, if_neg Bool.false_ne_true, listReversed]
  cases disk.list entry.path with
  | error error => rfl
  | ok entries => simp only [stacked_reverse]

theorem sweep_of_not_isEntered (passed : ¬ IsEntered root exclusions entry)
    (descend : Path → Except Failure (List SourceFile)) :
    sweep disk root exclusions (steps + 1) (entry :: stack) found =
      (visit disk root exclusions descend entry >>= fun sources =>
        sweep disk root exclusions steps stack (found ++ sources)) := by
  have nothing : (Except.ok [] : Except Failure (List SourceFile)) >>= (fun sources =>
      sweep disk root exclusions steps stack (found ++ sources)) =
        sweep disk root exclusions steps stack found := by
    simp only [bind, Except.bind, List.append_nil]
  rw [sweep, visit]
  cases seen : entry.path.relativeTo? root with
  | none => exact nothing.symm
  | some relative =>
      simp only
      cases excluded : isExcluded exclusions relative with
      | true => simpa using nothing.symm
      | false =>
          cases kind : entry.kind with
          | directory => exact absurd ⟨kind, relative, seen, excluded⟩ passed
          | file => cases sourceAt disk relative entry.path <;> rfl
          | other => simpa using nothing.symm

/-! ## From the loop to the recursion -/

theorem sourceAt_congr {relative full : Path} {sources : List SourceFile}
    (reads : ∀ content, disk.readBytes full = .ok content → other.readBytes full = .ok content)
    (found : sourceAt disk relative full = .ok sources) :
    sourceAt other relative full = .ok sources := by
  rw [sourceAt] at found ⊢
  split
  · rename_i binary
    rwa [if_pos binary] at found
  · rename_i noBinary
    rw [if_neg noBinary] at found
    cases read : disk.readBytes full with
    | error error => simp [read] at found
    | ok bytes =>
        rw [reads bytes read]
        rwa [read] at found

theorem visit_congr {descend otherDescend : Path → Except Failure (List SourceFile)}
    {entry : Disk.Entry} {sources : List SourceFile}
    (descends : ∀ sources, descend entry.path = .ok sources → otherDescend entry.path = .ok sources)
    (reads : ∀ content, disk.readBytes entry.path = .ok content →
      other.readBytes entry.path = .ok content)
    (found : visit disk root exclusions descend entry = .ok sources) :
    visit other root exclusions otherDescend entry = .ok sources := by
  rw [visit] at found ⊢
  cases seen : entry.path.relativeTo? root with
  | none => rwa [seen] at found
  | some relative =>
      simp only [seen] at found ⊢
      by_cases excluded : isExcluded exclusions relative = true
      · rwa [if_pos excluded] at found ⊢
      rw [if_neg excluded] at found ⊢
      cases kind : entry.kind with
      | directory =>
          rw [kind] at found
          exact descends sources found
      | file =>
          rw [kind] at found
          exact sourceAt_congr reads found
      | other => rwa [kind] at found

/-- More levels to go down yield the same. -/
theorem sourcesBelow_mono (found : sourcesBelow disk root exclusions depth path = .ok sources) :
    sourcesBelow disk root exclusions (depth + 1) path = .ok sources := by
  induction depth generalizing path sources with
  | zero => contradiction
  | succ depth ih =>
      rw [sourcesBelow_succ] at found ⊢
      cases listed : disk.list path with
      | error error => simp [listed] at found
      | ok entries =>
          simp only [listed, sourcesAmong, mapM_flatten_eq_ok_iff] at found ⊢
          obtain ⟨pieces, brought, rfl⟩ := found
          refine ⟨pieces, forall₂_imp_of_mem brought fun entry _ piece visited => ?_, rfl⟩
          exact visit_congr (fun _ => ih) (fun _ => id) visited

theorem sourcesAmong_mono (found : sourcesAmong disk root exclusions depth entries = .ok sources) :
    sourcesAmong disk root exclusions (depth + 1) entries = .ok sources := by
  simp only [sourcesAmong, mapM_flatten_eq_ok_iff] at found ⊢
  obtain ⟨pieces, brought, rfl⟩ := found
  refine ⟨pieces, forall₂_imp_of_mem brought fun entry _ piece visited => ?_, rfl⟩
  exact visit_congr (fun _ => sourcesBelow_mono) (fun _ => id) visited

/-- Whatever the loop adds to what was found before is what the recursion yields for the entries on
the stack. -/
theorem exists_sourcesAmong_of_sweep
    (swept : sweep disk root exclusions steps stack found = .ok sources) :
    ∃ added, sourcesAmong disk root exclusions steps stack = .ok added ∧
      sources = found ++ added := by
  induction steps generalizing stack found with
  | zero =>
      cases stack with
      | nil =>
          cases swept
          exact ⟨[], rfl, by simp⟩
      | cons entry stack => contradiction
  | succ steps ih =>
      cases stack with
      | nil =>
          cases swept
          exact ⟨[], rfl, by simp⟩
      | cons entry stack =>
          by_cases entered : IsEntered root exclusions entry
          · rw [sweep_of_isEntered entered] at swept
            cases listed : disk.list entry.path with
            | error error => simp [listed] at swept
            | ok entries =>
                simp only [listed] at swept
                obtain ⟨added, below, rfl⟩ := ih swept
                -- the entries of the directory come first among those that are taken next
                rw [sourcesAmong_append] at below
                obtain ⟨first, inside, below⟩ := bind_eq_ok_iff.1 below
                obtain ⟨rest, behind, below⟩ := bind_eq_ok_iff.1 below
                refine ⟨first ++ rest, ?_, by rw [Except.ok.inj below]⟩
                rw [sourcesAmong_cons, visit_of_isEntered entered, sourcesBelow_succ, listed]
                simp only [inside, sourcesAmong_mono behind]
                rfl
          · rw [sweep_of_not_isEntered entered
              (sourcesBelow disk root exclusions (steps + 1))] at swept
            obtain ⟨first, brought, swept⟩ := bind_eq_ok_iff.1 swept
            obtain ⟨rest, behind, rfl⟩ := ih swept
            refine ⟨first ++ rest, ?_, by rw [List.append_assoc]⟩
            rw [sourcesAmong_cons, brought, sourcesAmong_mono behind]
            rfl

/-! ## From the recursion to the loop -/

/-- Taking some entries from the top of the stack comes to an outcome, after at most a number of
steps and whatever stands below them. -/
def Takes (disk : Disk) (root : Path) (exclusions : List Path) (entries : List Disk.Entry)
    (outcome : Except Failure (List SourceFile)) (most : Nat) : Prop :=
  ∃ used ≤ most, ∀ more stack found,
    sweep disk root exclusions (used + more) (entries ++ stack) found =
      (outcome >>= fun sources => sweep disk root exclusions more stack (found ++ sources))

variable {outcome : Except Failure (List SourceFile)} {most : Nat}

theorem Takes.mono (takes : Takes disk root exclusions entries outcome most) {bound : Nat}
    (bounded : most ≤ bound) : Takes disk root exclusions entries outcome bound := by
  obtain ⟨used, few, swept⟩ := takes
  exact ⟨used, few.trans bounded, swept⟩

theorem takes_nil : Takes disk root exclusions [] (.ok []) 0 :=
  ⟨0, Nat.le_refl 0, fun more stack found => by simp [bind, Except.bind]⟩

/-- A directory is taken with everything below it. -/
theorem takes_of_isEntered (entered : IsEntered root exclusions entry)
    (below : ∀ entries, disk.list entry.path = .ok entries →
      Takes disk root exclusions entries (sourcesAmong disk root exclusions depth entries) most) :
    Takes disk root exclusions [entry]
      (visit disk root exclusions (sourcesBelow disk root exclusions (depth + 1)) entry)
        (most + 1) := by
  rw [visit_of_isEntered entered, sourcesBelow_succ]
  cases listed : disk.list entry.path with
  | error error =>
      refine ⟨1, Nat.le_add_left 1 most, fun more stack found => ?_⟩
      rw [Nat.add_comm, List.singleton_append, sweep_of_isEntered entered, listed]
      rfl
  | ok entries =>
      obtain ⟨used, few, swept⟩ := below entries listed
      refine ⟨used + 1, Nat.succ_le_succ few, fun more stack found => ?_⟩
      rw [Nat.add_right_comm, List.singleton_append, sweep_of_isEntered entered, listed]
      exact swept more stack found

theorem takes_of_not_isEntered (passed : ¬ IsEntered root exclusions entry)
    (descend : Path → Except Failure (List SourceFile)) :
    Takes disk root exclusions [entry] (visit disk root exclusions descend entry) 1 := by
  refine ⟨1, Nat.le_refl 1, fun more stack found => ?_⟩
  rw [Nat.add_comm, List.singleton_append, sweep_of_not_isEntered passed descend]

/-- Entries are taken one after the other. -/
theorem takes_sourcesAmong
    (each : ∀ entry ∈ entries, Takes disk root exclusions [entry]
      (visit disk root exclusions (sourcesBelow disk root exclusions depth) entry) most) :
    Takes disk root exclusions entries (sourcesAmong disk root exclusions depth entries)
      (entries.length * most) := by
  induction entries with
  | nil => simpa using takes_nil
  | cons entry entries ih =>
      obtain ⟨used, few, swept⟩ := each entry (by simp)
      obtain ⟨usedLater, fewLater, sweptLater⟩ := ih fun other mem => each other (by simp [mem])
      refine ⟨used + usedLater, ?_, fun more stack found => ?_⟩
      · rw [List.length_cons, Nat.succ_mul]
        omega
      · calc
          sweep disk root exclusions (used + usedLater + more) (entry :: entries ++ stack) found
          _ = visit disk root exclusions
            (sourcesBelow disk root exclusions depth) entry >>= fun first =>
              sweep disk root exclusions (usedLater + more) (entries ++ stack)
                (found ++ first) := by
            rw [Nat.add_assoc, List.cons_append]
            exact swept (usedLater + more) (entries ++ stack) found
          _ = visit disk root exclusions
            (sourcesBelow disk root exclusions depth) entry >>= fun first =>
              sourcesAmong disk root exclusions depth entries >>= fun rest =>
                sweep disk root exclusions more stack (found ++ (first ++ rest)) := by
            simp only [sweptLater, List.append_assoc]
          _ = sourcesAmong disk root exclusions depth (entry :: entries) >>= fun sources =>
              sweep disk root exclusions more stack (found ++ sources) := by
            simp only [sourcesAmong_cons, bind_assoc]
            rfl

/-! ## Steps enough -/

theorem length_le_of_list (listed : disk.list path = .ok entries) :
    entries.length ≤ disk.entries.length := by
  obtain ⟨place, mode, -, -, rfl⟩ := Disk.list_eq_ok_iff.1 listed
  rw [List.length_map, Disk.children]
  exact List.length_filterMap_le _ _

theorem spelledSize_le_of_list (listed : disk.list path = .ok entries) :
    Disk.spelledSize path.segments ≤ Disk.longestPath := by
  obtain ⟨place, mode, leads, -, -⟩ := Disk.list_eq_ok_iff.1 listed
  exact Nat.le_of_not_lt (Disk.walk_eq_ok_iff.1 leads).2.1

theorem mostSteps_succ (disk : Disk) (levels : Nat) :
    mostSteps disk (levels + 1) = (disk.entries.length + 1) * mostSteps disk levels := Nat.pow_succ'

theorem mostSteps_pos (disk : Disk) (levels : Nat) : 0 < mostSteps disk levels :=
  Nat.one_le_pow _ _ (Nat.succ_pos _)

theorem length_mul_mostSteps_le (listed : disk.list path = .ok entries) (levels : Nat) :
    entries.length * mostSteps disk levels ≤ mostSteps disk (levels + 1) := by
  rw [mostSteps_succ]
  exact Nat.mul_le_mul_right _ ((length_le_of_list listed).trans (Nat.le_add_right _ 1))

variable {start : Path} {place : Location} {names : List Text} {top mode : Nat}
  (leads : disk.walk true start.segments = .ok (.node place (.directory top)))
  (plain : HasPlainNames disk place)

include leads plain

/-- The entries of a directory are taken with all that is below them. The levels are enough because
paths grow and are not listed when they are too long. -/
theorem takes_entries (spells : Spells start path names)
    (reaches : Reaches disk place names (.directory mode))
    (listed : disk.list path = .ok entries)
    (deep : Disk.longestPath < Disk.spelledSize path.segments + depth) :
    Takes disk root exclusions entries (sourcesAmong disk root exclusions depth entries)
      (entries.length * mostSteps disk depth) := by
  induction depth generalizing path names mode entries with
  | zero =>
      have short := spelledSize_le_of_list listed
      omega
  | succ depth ih =>
      obtain ⟨-, entries_eq⟩ := (Disk.list_eq_ok_iff_of_reaches leads spells reaches).1 listed
      refine takes_sourcesAmong fun entry mem => ?_
      obtain ⟨⟨name, node⟩, isChild, rfl⟩ := List.mem_map.1 (entries_eq ▸ mem)
      have held := Disk.mem_children_iff.1 isChild
      have named := plain names name node held
      by_cases entered : IsEntered root exclusions (Disk.IsProject.entryOf path (name, node))
      · obtain ⟨childMode, rfl⟩ : ∃ childMode, node = .directory childMode := by
          have kind := entered.1
          cases node with
          | directory childMode => exact ⟨childMode, rfl⟩
          | file content fileMode => contradiction
          | link target => contradiction
        have deeper :
            Disk.spelledSize path.segments < Disk.spelledSize (path.join name).segments := by
          rw [Path.segments_join_segment path named.toIsSegment, Disk.spelledSize_append]
          simp only [Disk.spelledSize]
          omega
        have below (inner : List Disk.Entry)
            (innerListed : disk.list (path.join name) = .ok inner) :
            Takes disk root exclusions inner (sourcesAmong disk root exclusions depth inner)
              (disk.entries.length * mostSteps disk depth) :=
          (ih (spells.join named) (reaches.concat held) innerListed (by omega)).mono
            (Nat.mul_le_mul_right _ (length_le_of_list innerListed))
        refine (takes_of_isEntered entered below).mono ?_
        rw [mostSteps_succ, Nat.succ_mul]
        exact Nat.add_le_add_left (mostSteps_pos disk depth) _
      · exact (takes_of_not_isEntered entered _).mono (mostSteps_pos disk (depth + 1))

/-- Where names are plain, the loop over a stack is the recursion in pre-order. -/
theorem sweep_eq_sourcesBelow :
    (match listReversed disk start with
      | .error failure => .error failure
      | .ok entries =>
          sweep disk root exclusions (mostSteps disk mostLevels) (stacked [] entries) []) =
      sourcesBelow disk root exclusions mostLevels start := by
  have reaches : Reaches disk place [] (.directory top) := .here (Disk.get?_of_walk leads)
  have spells : Spells start start [] := ⟨by simp, by simp [Disk.Descends]⟩
  rw [listReversed, mostLevels, sourcesBelow_succ]
  cases listed : disk.list start with
  | error error => rfl
  | ok entries =>
      have taken :=
        @takes_entries _ root _ exclusions _ (Disk.longestPath + 1) _ _ _ _ _ leads plain
        spells reaches listed (by omega)
      obtain ⟨used, bounded, swept⟩ := taken.mono (length_mul_mostSteps_le listed _)
      simp only [stacked_reverse]
      rw [← Nat.add_sub_cancel' bounded, swept]
      cases sourcesAmong disk root exclusions (Disk.longestPath + 1) entries with
      | error failure => rfl
      | ok sources => simp [bind, Except.bind, sweep]

end DistDirectives.Run.Discovery

namespace DistDirectives.Run

open Disk (HasPlainNames)
open Discovery

variable {disk : Disk} {root : Path} {sourceDir : Text} {exclusions : List Path}
  {sources : List SourceFile}

/-- What is discovered was found by going down from a source directory. -/
theorem exists_sourcesBelow_of_discover
    (found : discover disk root sourceDir exclusions = .ok sources) :
    disk.requireDirectory (root.join sourceDir) = .ok () ∧
      ∃ depth, sourcesBelow disk root exclusions depth (root.join sourceDir) = .ok sources := by
  rw [discover] at found
  cases required : disk.requireDirectory (root.join sourceDir) with
  | error error => simp [required] at found
  | ok =>
      refine ⟨rfl, mostSteps disk mostLevels + 1, ?_⟩
      rw [sourcesBelow_succ]
      cases listed : disk.list (root.join sourceDir) with
      | error error => simp [required, listReversed, listed] at found
      | ok entries =>
          simp only [required, listReversed, listed, stacked_reverse, List.append_nil] at found
          obtain ⟨added, among, rfl⟩ := exists_sourcesAmong_of_sweep found
          exact among

/-- Where names are plain, discovery is a recursion over directories in pre-order. -/
theorem discover_eq_sourcesBelow {place : Location} {mode : Nat}
    (leads : disk.walk true (root.join sourceDir).segments = .ok (.node place (.directory mode)))
    (plain : HasPlainNames disk place) :
    discover disk root sourceDir exclusions =
      sourcesBelow disk root exclusions mostLevels (root.join sourceDir) := by
  have required : disk.requireDirectory (root.join sourceDir) = .ok () := by
    rw [Disk.requireDirectory, Disk.lookup, leads]
  simp only [discover, required]
  exact sweep_eq_sourcesBelow leads plain

end DistDirectives.Run
