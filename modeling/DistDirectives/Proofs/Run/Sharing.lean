import DistDirectives.Proofs.Run.Effect
import DistDirectives.Proofs.Run.Phases

/-!
# Files that share a disk

While distribution files are processed beside each other, the disk differs from what it was
before all of them at two kinds of locations: at the places of files that were processed, and
at the temporary files of those whose new content is being moved in place. `Shared` says so,
and that every change that a moment of a file can make keeps it so; what a processed file
shows at its place is left open (`shows`).

A file may bear the name of another one's temporary file. Then the temporary file can be made
once the file is gone, and it is the only thing that can stand at the place of another file.
-/

namespace DistDirectives.Run

open Disk (IsProject HoldsFile Reshapes SameDirectories temporaryPlace)

/-! ## The first disk -/

/-- A project with distribution files that are there. -/
structure IsScene (setting : Setting) (disk : Disk) (base : Location) (files : List DistFile) :
    Prop where
  project : IsProject disk setting.root base
  apart : AreApart files
  present : ∀ dist ∈ files, disk.isFile (setting.root.join dist.path.text) = true

/-- The location of a file. -/
def placeOf (base : Location) (dist : DistFile) : Location := base ++ dist.path.segments

/-- The location of its temporary file. -/
def besideOf (setting : Setting) (base : Location) (dist : DistFile) : Location :=
  base ++ temporaryPlace setting.writer dist.path.segments

variable {setting : Setting} {disk now after : Disk} {base : Location} {files : List DistFile}
  {dist other : DistFile} {warnings : Nat}

namespace IsScene

theorem nodup (scene : IsScene setting disk base files) : files.Nodup :=
  scene.apart.distinct.imp fun differ same => differ (by rw [same])

variable (scene : IsScene setting disk base files) (mem : dist ∈ files)

include scene mem

theorem isDist : IsDistPath dist.path := scene.apart.areDist dist mem

/-- The file stands at its location. -/
theorem exists_held :
    ∃ content mode, disk.get? (placeOf base dist) = some (.file content mode) := by
  obtain ⟨_, content, mode, held⟩ := (scene.project.isFile_iff
    ((scene.isDist mem).spells setting.root)).1 (scene.present dist mem)
  exact ⟨content, mode, held⟩

/-- The file stands in a directory. -/
theorem exists_front : ∃ front last mode, dist.path.segments = front ++ [last] ∧
    disk.get? (base ++ front) = some (.directory mode) := by
  obtain ⟨front, last, _, segments⟩ := (scene.isDist mem).exists_front
  obtain ⟨content, mode, held⟩ := scene.exists_held mem
  rw [placeOf, segments, ← List.append_assoc] at held
  obtain ⟨outerMode, outer⟩ := scene.project.tree.outer front last _ held
  exact ⟨front, last, outerMode, segments, outer⟩

theorem eq_of_path_eq (otherMem : other ∈ files) (same : other.path = dist.path) :
    other = dist := by
  have nodup : (files.map (·.path)).Nodup := List.pairwise_map.2 scene.apart.distinct
  exact List.inj_on_of_nodup_map nodup otherMem mem same

/-- A file is among files of which one has its path. -/
theorem mem_of_path_mem {part : List DistFile} (inside : ∀ other ∈ part, other ∈ files)
    (pathMem : dist.path ∈ part.map (·.path)) : dist ∈ part := by
  obtain ⟨other, otherMem, same⟩ := List.mem_map.1 pathMem
  rwa [← scene.eq_of_path_eq mem (inside other otherMem) same]

theorem eq_of_segments_eq (otherMem : other ∈ files)
    (same : other.path.segments = dist.path.segments) :
    other = dist := by
  apply scene.eq_of_path_eq mem otherMem
  exact Path.ext_segments
    (by rw [(scene.isDist mem).relative, (scene.isDist otherMem).relative]) same

theorem placeOf_ne (otherMem : other ∈ files) (differ : other ≠ dist) :
    placeOf base other ≠ placeOf base dist := by
  intro same
  rw [placeOf, placeOf, List.append_cancel_left_eq] at same
  exact differ (scene.eq_of_segments_eq mem otherMem same)

/-- Different files have different temporary files. -/
theorem besideOf_ne (otherMem : other ∈ files) (differ : other ≠ dist) :
    besideOf setting base other ≠ besideOf setting base dist := by
  intro same
  rw [besideOf, besideOf, List.append_cancel_left_eq] at same
  obtain ⟨front, last, _, segments⟩ := (scene.isDist mem).exists_front
  obtain ⟨otherFront, otherLast, _, otherSegments⟩ := (scene.isDist otherMem).exists_front
  have plain := (scene.isDist mem).plain last (by simp [segments])
  have otherPlain := (scene.isDist otherMem).plain otherLast (by simp [otherSegments])
  rw [segments, otherSegments] at same
  apply differ (scene.eq_of_segments_eq mem otherMem _)
  rw [segments, otherSegments]
  exact Disk.temporaryPlace_inj otherPlain.ne_dots plain.ne_dots same

/-- No file is its own temporary file. -/
theorem besideOf_ne_placeOf : besideOf setting base dist ≠ placeOf base dist := by
  obtain ⟨front, last, _, segments⟩ := (scene.isDist mem).exists_front
  have plain := (scene.isDist mem).plain last (by simp [segments])
  intro same
  rw [besideOf, placeOf, List.append_cancel_left_eq, segments] at same
  exact Disk.temporaryPlace_ne_self plain.ne_dots same

/-- The temporary file stands in a directory that is there. -/
theorem exists_directory : ∃ outer name mode, besideOf setting base dist = outer ++ [name] ∧
    disk.get? outer = some (.directory mode) := by
  obtain ⟨front, last, mode, segments, directory⟩ := scene.exists_front mem
  refine ⟨base ++ front, Disk.temporaryName setting.writer (front ++ [last]), mode, ?_, directory⟩
  rw [besideOf, segments, temporaryPlace, List.dropLast_concat, List.append_assoc]

end IsScene

/-! ## Phases -/

/-- A file was processed. -/
def isSettled : Option Phase → Bool
  | some (.done (.ok _)) => true
  | _ => false

/-- The temporary file of a file is there. -/
def isMoving : Option Phase → Bool
  | some (.moving _ _ _) => true
  | _ => false

theorem exists_of_isSettled {come : Option Phase} (settled : isSettled come = true) :
    ∃ result, come = some (.done (.ok result)) := by
  unfold isSettled at settled
  split at settled
  · exact ⟨_, rfl⟩
  · contradiction

theorem exists_of_isMoving {come : Option Phase} (moves : isMoving come = true) :
    ∃ temporary file warnings, come = some (.moving temporary file warnings) := by
  unfold isMoving at moves
  split at moves
  · exact ⟨_, _, _, rfl⟩
  · contradiction

/-- A file that has something left to do was not processed yet. -/
theorem isSettled_of_isDone {come : Phase} (busy : come.isDone = false) :
    isSettled (some come) = false := by
  cases come with
  | done result => contradiction
  | _ => rfl

theorem isSettled_of_isMoving {come : Option Phase} (moves : isMoving come = true) :
    isSettled come = false := by
  rcases exists_of_isMoving moves with ⟨_, _, _, rfl⟩
  rfl

/-- The disk that files share, while they are in some phases: it differs from the first one
at files that were processed, and at the temporary files of those that are being moved. A
temporary file can stand at the place of a file that was removed. What a file that was
processed with some result may show at its place is up to `shows`. -/
structure Shared (setting : Setting) (disk : Disk) (base : Location) (files : List DistFile)
    (shows : DistFile → FileResult → Option Node → Prop) (now : Disk)
    (phase : DistFile → Option Phase) : Prop where
  known : ∀ dist, phase dist ≠ none → dist ∈ files
  regular : ∀ dist ∈ files, ∀ node, now.get? (placeOf base dist) = some node →
    ∃ content mode, node = .file content mode
  kept : ∀ dist ∈ files, isSettled (phase dist) = false →
    now.get? (placeOf base dist) = disk.get? (placeOf base dist)
  left : ∀ dist result, phase dist = some (.done (.ok result)) →
    shows dist result (now.get? (placeOf base dist)) ∨
      ∃ other, isMoving (phase other) = true ∧ besideOf setting base other = placeOf base dist
  temporary : ∀ dist place file warnings, phase dist = some (.moving place file warnings) →
    place = besideOf setting base dist ∧ (∃ content mode, file = .file content mode) ∧
      now.get? place = some file
  cleared : ∀ dist, isMoving (phase dist) = true → ∀ other ∈ files,
    placeOf base other = besideOf setting base dist →
      ∃ result, phase other = some (.done (.ok result)) ∧ shows other result none
  vacant : ∀ dist, isMoving (phase dist) = true →
    (∀ other ∈ files, placeOf base other ≠ besideOf setting base dist) →
    disk.get? (besideOf setting base dist) = none
  elsewhere : ∀ location, (∀ dist ∈ files, location ≠ placeOf base dist) →
    (∀ dist, isMoving (phase dist) = true → location ≠ besideOf setting base dist) →
    now.get? location = disk.get? location
  top : now.background = disk.background

variable {shows : DistFile → FileResult → Option Node → Prop} {phase : DistFile → Option Phase}

/-- At first no file was started. -/
theorem IsScene.shared (scene : IsScene setting disk base files) :
    Shared setting disk base files shows disk fun _ => none := by
  constructor
  case regular =>
    intro dist mem node held
    obtain ⟨content, mode, there⟩ := scene.exists_held mem
    rw [held, Option.some.injEq] at there
    exact ⟨content, mode, there⟩
  all_goals simp [isMoving]

/-- A temporary file is a file. -/
theorem Shared.exists_temporary (shared : Shared setting disk base files shows now phase)
    (moves : isMoving (phase dist) = true) :
    dist ∈ files ∧
      ∃ content mode, now.get? (besideOf setting base dist) = some (.file content mode) := by
  obtain ⟨place, file, warnings, come⟩ := exists_of_isMoving moves
  obtain ⟨rfl, ⟨content, mode, rfl⟩, there⟩ := shared.temporary dist _ _ _ come
  exact ⟨shared.known dist (by simp [come]), content, mode, there⟩

/-! ## One file changes its phase -/

/-- What happens to the location of a temporary file between two phases. -/
inductive Beside (now after : Disk) (location : Location) : Option Phase → Phase → Prop
  | same {come : Option Phase} {next : Phase} (before : isMoving come = false)
      (behind : isMoving (some next) = false) (same : after.get? location = now.get? location) :
      Beside now after location come next
  | staged {come : Option Phase} {content : Bytes} {mode warnings : Nat}
      (before : isMoving come = false) (free : now.get? location = none)
      (stored : after.get? location = some (.file content mode)) :
      Beside now after location come (.moving location (.file content mode) warnings)
  | moved {come : Option Phase} {next : Phase} (before : isMoving come = true)
      (behind : isMoving (some next) = false) (erased : after.get? location = none) :
      Beside now after location come next

/-- A temporary file that is there now was made where nothing was. -/
theorem Beside.free_of_isMoving {location : Location} {come : Option Phase} {next : Phase}
    (beside : Beside now after location come next) (moves : isMoving (some next) = true) :
    isMoving come = false ∧ now.get? location = none := by
  cases beside with
  | staged before free _ => exact ⟨before, free⟩
  | same _ behind _ => simp [behind] at moves
  | moved _ behind _ => simp [behind] at moves

/-- One file changes its phase: nothing but its own two locations is touched, and these hold
what the new phase asks for. -/
structure Turn (setting : Setting) (disk : Disk) (base : Location) (files : List DistFile)
    (shows : DistFile → FileResult → Option Node → Prop) (now : Disk)
    (phase : DistFile → Option Phase) (dist : DistFile) (next : Phase) (after : Disk) : Prop where
  mem : dist ∈ files
  unsettled : isSettled (phase dist) = false
  frame : ∀ location, location ≠ placeOf base dist → location ≠ besideOf setting base dist →
    after.get? location = now.get? location
  regular : ∀ node, after.get? (placeOf base dist) = some node →
    ∃ content mode, node = .file content mode
  unsettledThen : isSettled (some next) = false →
    after.get? (placeOf base dist) = disk.get? (placeOf base dist)
  settledThen : ∀ result, next = .done (.ok result) →
    shows dist result (after.get? (placeOf base dist))
  beside : Beside now after (besideOf setting base dist) (phase dist) next
  top : after.background = now.background

/-- A file that is being moved is none that is not. -/
theorem ne_of_isMoving (moves : isMoving (phase other) = true)
    (unmoved : isMoving (phase dist) = false) : other ≠ dist := by
  rintro rfl
  rw [moves] at unmoved
  contradiction

namespace Turn

variable {next : Phase} (turn : Turn setting disk base files shows now phase dist next after)
  (shared : Shared setting disk base files shows now phase)
  (scene : IsScene setting disk base files)

include turn shared scene

/-- A file at the place of a temporary file that comes or goes was processed. -/
theorem get?_place (mem : other ∈ files) (differ : other ≠ dist)
    (unsettled : isSettled (phase other) = false) :
    after.get? (placeOf base other) = now.get? (placeOf base other) := by
  by_cases here : placeOf base other = besideOf setting base dist
  · cases turn.beside with
    | same _ _ same => rw [here, same]
    | staged _ free _ =>
        obtain ⟨content, mode, there⟩ := scene.exists_held mem
        rw [← here, shared.kept other mem unsettled, there] at free
        contradiction
    | moved before _ _ =>
        obtain ⟨result, come, _⟩ := shared.cleared dist before other mem here
        simp [come, isSettled] at unsettled
  · exact turn.frame _ (scene.placeOf_ne turn.mem mem differ) here

/-- The temporary file of another file does not stand in the way. -/
theorem besideOf_ne (moves : isMoving (phase other) = true) (differ : other ≠ dist) :
    besideOf setting base other ≠ placeOf base dist ∧
      besideOf setting base other ≠ besideOf setting base dist := by
  refine ⟨fun same => ?_, scene.besideOf_ne turn.mem (shared.exists_temporary moves).1 differ⟩
  obtain ⟨result, come, _⟩ := shared.cleared other moves dist turn.mem same.symm
  have unsettled := turn.unsettled
  simp [come, isSettled] at unsettled

/-- Where a new temporary file stands, all is gone that was there at first. -/
theorem staged_cleared (free : now.get? (besideOf setting base dist) = none) (mem : other ∈ files)
    (here : placeOf base other = besideOf setting base dist) :
    other ≠ dist ∧ ∃ result, phase other = some (.done (.ok result)) ∧ shows other result none := by
  obtain ⟨content, mode, held⟩ := scene.exists_held mem
  rw [← here] at free
  have settled : isSettled (phase other) = true := by
    by_contra unsettled
    rw [shared.kept other mem (by simpa using unsettled), held] at free
    contradiction
  obtain ⟨result, come⟩ := exists_of_isSettled settled
  refine ⟨?_, result, come, ?_⟩
  · rintro rfl
    rw [turn.unsettled] at settled
    contradiction
  · rcases shared.left other result come with left | ⟨third, moves, there⟩
    · rwa [free] at left
    · obtain ⟨_, content, mode, held⟩ := shared.exists_temporary moves
      rw [there, free] at held
      contradiction

theorem left {result : FileResult} (come : phase other = some (.done (.ok result)))
    (differ : other ≠ dist) :
    shows other result (after.get? (placeOf base other)) ∨
      ∃ third, isMoving (Function.update phase dist (some next) third) = true ∧
        besideOf setting base third = placeOf base other := by
  have mem : other ∈ files := shared.known other (by simp [come])
  have still {third : DistFile} (moves : isMoving (phase third) = true) (apart : third ≠ dist) :
      isMoving (Function.update phase dist (some next) third) = true := by
    rwa [Function.update_of_ne apart]
  by_cases here : placeOf base other = besideOf setting base dist
  · rw [here]
    cases turn.beside with
    | staged => exact .inr ⟨dist, by rw [Function.update_self]; rfl, rfl⟩
    | moved before _ erased =>
        obtain ⟨again, comeAgain, gone⟩ := shared.cleared dist before other mem here
        rw [come] at comeAgain
        cases comeAgain
        exact .inl (erased ▸ gone)
    | same before _ unchanged =>
        rw [unchanged, ← here]
        refine (shared.left other result come).imp id ?_
        rintro ⟨third, moves, there⟩
        exact ⟨third, still moves (ne_of_isMoving moves before), there⟩
  · rw [turn.frame _ (scene.placeOf_ne turn.mem mem differ) here]
    refine (shared.left other result come).imp id ?_
    rintro ⟨third, moves, there⟩
    refine ⟨third, still moves ?_, there⟩
    rintro rfl
    exact here there.symm

omit scene in
theorem elsewhere {location : Location} (apart : ∀ other ∈ files, location ≠ placeOf base other)
    (away : ∀ other, isMoving (Function.update phase dist (some next) other) = true →
      location ≠ besideOf setting base other) : after.get? location = disk.get? location := by
  have away_of_ne {other : DistFile} (differ : other ≠ dist)
      (moves : isMoving (phase other) = true) :
      location ≠ besideOf setting base other := away other (by rwa [Function.update_of_ne differ])
  by_cases here : location = besideOf setting base dist
  · subst here
    cases turn.beside with
    | staged => exact absurd rfl (away dist (by rw [Function.update_self]; rfl))
    | moved before _ erased =>
        rw [erased, shared.vacant dist before fun other mem there => apart other mem there.symm]
    | same before _ unchanged =>
        rw [unchanged]
        exact shared.elsewhere _ apart fun other moves =>
          away_of_ne (ne_of_isMoving moves before) moves
  · rw [turn.frame location (apart dist turn.mem) here]
    refine shared.elsewhere location apart fun other moves => ?_
    by_cases same : other = dist
    · exact same ▸ here
    · exact away_of_ne same moves

/-- What stands at the place of a file is a file, the temporary file of another one at most. -/
theorem regular_place (mem : other ∈ files) {node : Node}
    (held : after.get? (placeOf base other) = some node) :
    ∃ content mode, node = .file content mode := by
  by_cases same : other = dist
  · subst same
    exact turn.regular node held
  by_cases here : placeOf base other = besideOf setting base dist
  · cases turn.beside with
    | same _ _ unchanged =>
        rw [here, unchanged, ← here] at held
        exact shared.regular other mem node held
    | staged _ _ stored =>
        rw [here, stored, Option.some.injEq] at held
        exact ⟨_, _, held.symm⟩
    | moved _ _ erased =>
        rw [here, erased] at held
        contradiction
  · rw [turn.frame _ (scene.placeOf_ne turn.mem mem same) here] at held
    exact shared.regular other mem node held

/-- The files share the disk as before when one of them takes its turn. -/
theorem keeps :
    Shared setting disk base files shows after (Function.update phase dist (some next)) := by
  have other_phase {other : DistFile} (differ : other ≠ dist) :
      Function.update phase dist (some next) other = phase other := Function.update_of_ne differ _ _
  have own_phase : Function.update phase dist (some next) dist = some next :=
    Function.update_self ..
  constructor
  case known =>
    intro other started
    by_cases same : other = dist
    · exact same ▸ turn.mem
    · exact shared.known other (other_phase same ▸ started)
  case regular => exact fun other mem node held => turn.regular_place shared scene mem held
  case kept =>
    intro other mem unsettled
    by_cases same : other = dist
    · subst same
      exact turn.unsettledThen (own_phase ▸ unsettled)
    · rw [other_phase same] at unsettled
      rw [turn.get?_place shared scene mem same unsettled, shared.kept other mem unsettled]
  case left =>
    intro other result come
    by_cases same : other = dist
    · subst same
      rw [own_phase, Option.some.injEq] at come
      exact .inl (turn.settledThen result come)
    · exact turn.left shared scene (other_phase same ▸ come) same
  case temporary =>
    intro other place file warnings come
    by_cases same : other = dist
    · subst same
      rw [own_phase, Option.some.injEq] at come
      subst come
      have beside := turn.beside
      generalize besideOf setting base other = location at beside
      cases beside with
      | staged _ _ stored => exact ⟨rfl, ⟨_, _, rfl⟩, stored⟩
      | same _ behind _ => contradiction
      | moved _ behind _ => contradiction
    · rw [other_phase same] at come
      obtain ⟨rfl, isFile, there⟩ := shared.temporary other place file warnings come
      obtain ⟨notPlace, notBeside⟩ := turn.besideOf_ne shared scene (by rw [come]; rfl) same
      exact ⟨rfl, isFile, (turn.frame _ notPlace notBeside).trans there⟩
  case cleared =>
    intro other moves third mem there
    by_cases same : other = dist
    · subst same
      obtain ⟨_, free⟩ := turn.beside.free_of_isMoving (own_phase ▸ moves)
      obtain ⟨differ, gone⟩ := turn.staged_cleared shared scene free mem there
      rwa [other_phase differ]
    · rw [other_phase same] at moves
      have differ : third ≠ dist := by
        rintro rfl
        exact (turn.besideOf_ne shared scene moves same).1 there.symm
      rw [other_phase differ]
      exact shared.cleared other moves third mem there
  case vacant =>
    intro other moves apart
    by_cases same : other = dist
    · subst same
      obtain ⟨before, free⟩ := turn.beside.free_of_isMoving (own_phase ▸ moves)
      rw [← shared.elsewhere _ (fun third mem here => apart third mem here.symm) _, free]
      intro third moves here
      exact (turn.besideOf_ne shared scene moves (ne_of_isMoving moves before)).2 here.symm
    · exact shared.vacant other (other_phase same ▸ moves) apart
  case elsewhere => exact fun location apart away => turn.elsewhere shared apart away
  case top => rw [turn.top, shared.top]

end Turn

namespace Shared

variable (shared : Shared setting disk base files shows now phase)
  (scene : IsScene setting disk base files)

include shared

/-! ## What a file sees -/

theorem rights : now.privileged = disk.privileged := Disk.privileged_of_background shared.top

include scene

/-- The disk of any moment is that of the same project. -/
theorem reshapes : Reshapes disk now := by
  refine ⟨shared.rights, fun location => ?_⟩
  have directory_of_place {dist : DistFile} (mem : dist ∈ files) :
      ∃ outer name mode, placeOf base dist = outer ++ [name] ∧
        disk.get? outer = some (.directory mode) := by
    obtain ⟨front, last, mode, segments, directory⟩ := scene.exists_front mem
    exact ⟨base ++ front, last, mode, by rw [placeOf, segments, List.append_assoc], directory⟩
  by_cases own : ∃ dist ∈ files, location = placeOf base dist
  · rcases own with ⟨dist, mem, rfl⟩
    refine .inr ⟨fun node held => ?_, fun node held => ⟨?_, directory_of_place mem⟩⟩
    · obtain ⟨content, mode, there⟩ := scene.exists_held mem
      rw [held, Option.some.injEq] at there
      exact ⟨content, mode, there⟩
    · exact shared.regular dist mem node held
  by_cases beside : ∃ dist, isMoving (phase dist) = true ∧ location = besideOf setting base dist
  · rcases beside with ⟨dist, moves, rfl⟩
    obtain ⟨mem, content, mode, there⟩ := shared.exists_temporary moves
    have free := shared.vacant dist moves
      fun other otherMem here => own ⟨other, otherMem, here.symm⟩
    refine .inr ⟨fun node held => ?_, fun node held => ⟨?_, scene.exists_directory mem⟩⟩
    · rw [free] at held
      contradiction
    · rw [there, Option.some.injEq] at held
      exact ⟨content, mode, held.symm⟩
  · refine .inl (shared.elsewhere location ?_ ?_)
    · exact fun dist mem here => own ⟨dist, mem, here⟩
    · exact fun dist moves here => beside ⟨dist, moves, here⟩

theorem sameDirectories : SameDirectories disk now := (shared.reshapes scene).sameDirectories

theorem isProject : IsProject now setting.root base :=
  (shared.reshapes scene).isProject scene.project

variable (mem : dist ∈ files) (unsettled : isSettled (phase dist) = false)

include mem unsettled

/-- A file that was not processed is read as at first. -/
theorem readBytes_own :
    now.readBytes (setting.root.join dist.path.text) =
      disk.readBytes (setting.root.join dist.path.text) :=
  scene.project.readBytes_congr (shared.isProject scene) ((scene.isDist mem).spells setting.root)
    shared.rights ((shared.sameDirectories scene).sameAt (shared.kept dist mem unsettled))
    (scene.present dist mem)

/-- A file that was read and not processed is there as it was. -/
theorem holdsFile {current : Bytes}
    (read : disk.readBytes (setting.root.join dist.path.text) = .ok current) :
    ∃ front last, dist.path.segments = front ++ [last] ∧
      HoldsFile disk setting.root base (setting.root.join dist.path.text) front last current ∧
      HoldsFile now setting.root base (setting.root.join dist.path.text) front last current := by
  obtain ⟨front, last, segments, file⟩ := (scene.isDist mem).holdsFile scene.project read
  have own := shared.kept dist mem unsettled
  rw [placeOf, segments] at own
  exact ⟨front, last, segments, file,
    file.congr (shared.isProject scene) (shared.sameDirectories scene) own⟩

/-- A file that was read is removed, or is not as it would not be from the first disk. -/
theorem advance_remove (wet : setting.dryRun = false) {current : Bytes}
    (read : disk.readBytes (setting.root.join dist.path.text) = .ok current) :
    advance setting dist now (.decided .remove warnings) =
      match attempt setting disk dist .remove with
      | .error error => (.done (.error error), now)
      | .ok () =>
        (.done (.ok (Decision.remove.result dist warnings)), now.erase (placeOf base dist)) := by
  obtain ⟨front, last, segments, fileFirst, file⟩ := shared.holdsFile scene mem unsettled read
  simp only [advance, attempt, wet, Bool.false_eq_true, if_false, file.removeFile_eq,
    fileFirst.removeFile_eq, (shared.sameDirectories scene).allows, placeOf, segments]
  cases disk.allows Node.ownerWrites (base ++ front) <;> rfl

/-- A temporary file takes the place of a file that was read. -/
theorem advance_moving {current : Bytes}
    (read : disk.readBytes (setting.root.join dist.path.text) = .ok current)
    (temporary : Location) (node : Node) :
    advance setting dist now (.moving temporary node warnings) =
      (.done (.ok ((Decision.write []).result dist warnings)),
        (now.erase temporary).store (placeOf base dist) node) := by
  obtain ⟨front, last, segments, _, file⟩ := shared.holdsFile scene mem unsettled read
  simp only [advance, file.settle_eq, placeOf, segments]

/-- New content is refused, or put where nothing stands. -/
theorem stage_cases {current : Bytes}
    (read : disk.readBytes (setting.root.join dist.path.text) = .ok current) (content : Bytes) :
    (∃ error, now.stage setting.writer (setting.root.join dist.path.text) content =
      (.error error, now)) ∨
    now.get? (besideOf setting base dist) = none ∧
      now.stage setting.writer (setting.root.join dist.path.text) content =
        (.ok (besideOf setting base dist,
            .file content (disk.replacementMode (setting.root.join dist.path.text))),
          now.store (besideOf setting base dist)
            (.file content (disk.replacementMode (setting.root.join dist.path.text)))) := by
  obtain ⟨front, last, segments, fileFirst, file⟩ := shared.holdsFile scene mem unsettled read
  have own := shared.kept dist mem unsettled
  rw [placeOf, segments] at own
  have modes : now.replacementMode (setting.root.join dist.path.text) =
      disk.replacementMode (setting.root.join dist.path.text) := by
    rcases fileFirst.held with ⟨mode, held, _⟩
    rw [fileFirst.replacementMode_eq held, file.replacementMode_eq (own.trans held)]
  have cases := file.stage_cases setting.writer content
  rwa [modes, ← segments] at cases

end Shared

/-! ## What a moment can do -/

namespace Turn

section

variable (mem : dist ∈ files) (unsettled : isSettled (phase dist) = false)

include mem unsettled

/-- A moment at which the disk is not changed. -/
theorem quiet (shared : Shared setting disk base files shows now phase)
    (unmoved : isMoving (phase dist) = false) {next : Phase}
    (stays : isMoving (some next) = false)
    (shown : ∀ result, next = .done (.ok result) →
      shows dist result (disk.get? (placeOf base dist))) :
    Turn setting disk base files shows now phase dist next now := by
  have own := shared.kept dist mem unsettled
  exact ⟨mem, unsettled, fun _ _ _ => rfl, shared.regular dist mem, fun _ => own,
    fun result ended => own ▸ shown result ended, .same unmoved stays rfl, rfl⟩

/-- A file is removed. -/
theorem remove (scene : IsScene setting disk base files)
    (unmoved : isMoving (phase dist) = false) {result : FileResult}
    (shown : shows dist result none) :
    Turn setting disk base files shows now phase dist (.done (.ok result))
      (now.erase (placeOf base dist)) := by
  obtain ⟨front, last, _, segments⟩ := (scene.isDist mem).exists_front
  have below : placeOf base dist ≠ [] := by simp [placeOf, segments]
  have gone : (now.erase (placeOf base dist)).get? (placeOf base dist) = none := by
    rw [Disk.get?_erase _ below, if_pos rfl]
  have frame {location : Location} (apart : location ≠ placeOf base dist) :
      (now.erase (placeOf base dist)).get? location = now.get? location := by
    rw [Disk.get?_erase _ below, if_neg apart]
  refine ⟨mem, unsettled, fun _ apart _ => frame apart, ?_, by simp [isSettled], ?_,
    .same unmoved rfl (frame (scene.besideOf_ne_placeOf mem)), Disk.background_erase _ below⟩
  · intro node held
    rw [gone] at held
    contradiction
  · intro other ended
    cases ended
    rwa [gone]

/-- New content is put into a temporary file where nothing stands. -/
theorem stage (scene : IsScene setting disk base files)
    (shared : Shared setting disk base files shows now phase)
    (unmoved : isMoving (phase dist) = false)
    (free : now.get? (besideOf setting base dist) = none) (content : Bytes) (mode warnings : Nat) :
    Turn setting disk base files shows now phase dist
      (.moving (besideOf setting base dist) (.file content mode) warnings)
      (now.store (besideOf setting base dist) (.file content mode)) := by
  have below : besideOf setting base dist ≠ [] := by simp [besideOf, temporaryPlace]
  have frame {location : Location} (apart : location ≠ besideOf setting base dist) :
      (now.store (besideOf setting base dist) (.file content mode)).get? location =
        now.get? location := by
    rw [Disk.get?_store _ below, if_neg apart]
  have own := frame (scene.besideOf_ne_placeOf mem).symm
  refine ⟨mem, unsettled, fun _ _ => frame, fun node held => ?_, fun _ => ?_,
    fun _ ended => by contradiction, .staged unmoved free ?_, Disk.background_store _ below _⟩
  · exact shared.regular dist mem node (own ▸ held)
  · rw [own, shared.kept dist mem unsettled]
  · rw [Disk.get?_store _ below, if_pos rfl]

/-- The temporary file of a file takes its place. -/
theorem move (scene : IsScene setting disk base files) {content : Bytes} {mode : Nat}
    {result : FileResult}
    (moves : isMoving (phase dist) = true) (shown : shows dist result (some (.file content mode))) :
    Turn setting disk base files shows now phase dist (.done (.ok result))
      ((now.erase (besideOf setting base dist)).store (placeOf base dist)
        (.file content mode)) := by
  obtain ⟨front, last, _, segments⟩ := (scene.isDist mem).exists_front
  have below : placeOf base dist ≠ [] := by simp [placeOf, segments]
  have besideBelow : besideOf setting base dist ≠ [] := by simp [besideOf, temporaryPlace]
  have stored : ((now.erase (besideOf setting base dist)).store (placeOf base dist)
      (.file content mode)).get? (placeOf base dist) = some (.file content mode) := by
    rw [Disk.get?_store _ below, if_pos rfl]
  refine ⟨mem, unsettled, ?_, ?_, by simp [isSettled], ?_, .moved moves rfl ?_, ?_⟩
  · intro location notPlace notBeside
    rw [Disk.get?_store _ below, if_neg notPlace, Disk.get?_erase _ besideBelow, if_neg notBeside]
  · intro node held
    rw [stored, Option.some.injEq] at held
    exact ⟨_, _, held.symm⟩
  · intro other ended
    cases ended
    rwa [stored]
  · rw [Disk.get?_store _ below, if_neg (scene.besideOf_ne_placeOf mem),
      Disk.get?_erase _ besideBelow, if_pos rfl]
  · rw [Disk.background_store _ below, Disk.background_erase _ besideBelow]

end

end Turn

end DistDirectives.Run
