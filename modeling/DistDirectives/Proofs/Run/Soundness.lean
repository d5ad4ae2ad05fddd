import DistDirectives.Proofs.Run.Sharing

/-!
# What files see of each other

While distribution files are processed beside each other, each of them sees the disk as it
was before all of them: no source is touched, and a file is touched by itself only. What a
file knows at each phase, and what it leaves when it was processed, is said in terms of that
first disk (`Knows`, `Sound`); `Sound.advance` says that every moment of every file keeps it
so.

One thing depends on the others: whether a temporary file can be made whose name is that of
another file.
-/

namespace DistDirectives.Run

open Disk (temporaryPlace)

/-! ## Decisions -/

/-- A project with distribution files that are there, and with sources apart from them. -/
structure IsGround (setting : Setting) (disk : Disk) (base : Location) (files : List DistFile) :
    Prop extends IsScene setting disk base files where
  isSourceDirectory : IsSourceDirectory (Path.ofText setting.sourceDir)

/-- No file bears the name of a temporary file of one. -/
def IsClear (setting : Setting) (files : List DistFile) : Prop :=
  ∀ dist ∈ files, ∀ other ∈ files,
    other.path.segments ≠ temporaryPlace setting.writer dist.path.segments

/-- What the first disk makes of a file. It is refused when its bytes cannot be read, or those that
its content is based on. -/
inductive Decides (setting : Setting) (disk : Disk) (dist : DistFile) : Decision → Nat → Prop
  | judged {current bytes : Bytes}
      (read : disk.readBytes (setting.root.join dist.path.text) = .ok current)
      (basis : baseBytes setting disk dist.path = .ok bytes) :
      Decides setting disk dist (decisionOf dist.path current bytes) (editOf dist.path bytes).2
  | unread {error : DiskError}
      (failed : disk.readBytes (setting.root.join dist.path.text) = .error error) :
      Decides setting disk dist (.refuse error) 0
  | baseless {current : Bytes} {error : DiskError}
      (read : disk.readBytes (setting.root.join dist.path.text) = .ok current)
      (failed : baseBytes setting disk dist.path = .error error) :
        Decides setting disk dist (.refuse error) 0

/-- What a decision leaves at the location of a file. -/
def leaves (setting : Setting) (disk : Disk) (base : Location) (dist : DistFile)
    (decision : Decision) : Option Node :=
  if setting.dryRun then disk.get? (placeOf base dist)
  else
    match decision with
    | .keep | .refuse _ => disk.get? (placeOf base dist)
    | .remove => none
    | .write content =>
      some (.file content (disk.replacementMode (setting.root.join dist.path.text)))

variable {setting : Setting} {disk now : Disk} {base : Location} {files : List DistFile}
  {dist other : DistFile} {decision : Decision} {warnings : Nat} {clear : Prop}

namespace Decides

theorem unique {otherDecision : Decision} {otherWarnings : Nat}
    (decides : Decides setting disk dist decision warnings)
    (again : Decides setting disk dist otherDecision otherWarnings) :
    otherDecision = decision ∧ otherWarnings = warnings := by
  cases decides <;> cases again <;> simp_all

/-- What is not refused was read. -/
theorem exists_read (decides : Decides setting disk dist decision warnings)
    (accepted : ∀ error, decision ≠ .refuse error) :
    ∃ current bytes, disk.readBytes (setting.root.join dist.path.text) = .ok current ∧
      baseBytes setting disk dist.path = .ok bytes ∧ decision = decisionOf dist.path current bytes ∧
      warnings = (editOf dist.path bytes).2 := by
  cases decides with
  | judged read basis => exact ⟨_, _, read, basis, rfl, rfl⟩
  | unread failed => exact absurd rfl (accepted _)
  | baseless read failed => exact absurd rfl (accepted _)

end Decides

/-- There is something to be done to every file, or a reason to refuse it. -/
theorem exists_decides (setting : Setting) (disk : Disk) (dist : DistFile) :
    ∃ decision warnings, Decides setting disk dist decision warnings := by
  cases read : disk.readBytes (setting.root.join dist.path.text) with
  | error error => exact ⟨_, _, .unread read⟩
  | ok current =>
      cases basis : baseBytes setting disk dist.path with
      | error error => exact ⟨_, _, .baseless read basis⟩
      | ok bytes => exact ⟨_, _, .judged read basis⟩

/-- No source stands where a file or a temporary file can be. -/
theorem IsSourceDirectory.ne_placeOf {directory : Path}
    (isSourceDirectory : IsSourceDirectory directory)
    (isDist : IsDistPath dist.path) (place : List Text) :
    base ++ (directory.segments ++ place) ≠ placeOf base dist := by
  intro same
  rw [placeOf, List.append_cancel_left_eq] at same
  exact isSourceDirectory.ne_segments isDist place same

theorem IsSourceDirectory.ne_besideOf {directory : Path}
    (isSourceDirectory : IsSourceDirectory directory)
    (isDist : IsDistPath dist.path) (place : List Text) :
    base ++ (directory.segments ++ place) ≠ besideOf setting base dist := by
  intro same
  rw [besideOf, List.append_cancel_left_eq] at same
  obtain ⟨front, last, nested, segments⟩ := isDist.exists_front
  rcases isDist.top with ⟨top, topMem, rest, _, fromTop⟩
  have head := congrArg List.head? same
  rw [temporaryPlace, segments, List.dropLast_concat,
    List.head?_append_of_ne_nil _ isSourceDirectory.nonempty,
    List.head?_append_of_ne_nil _ nested] at head
  have topHead := congrArg List.head? (segments.symm.trans fromTop)
  rw [List.head?_append_of_ne_nil _ nested, List.head?_cons] at topHead
  exact isSourceDirectory.apart top topMem (head.trans topHead)

/-! ## What a file knows -/

/-- How a file can end. Whether a change is refused depends on the first disk only, when names
are clear. -/
inductive Ends (setting : Setting) (disk : Disk) (clear : Prop) (dist : DistFile) (warnings : Nat)
    (decision : Decision) : Except DiskError FileResult → Prop
  | finished {result : Except DiskError FileResult}
      (answered : result = decision.answer dist warnings)
      (attempted : clear → setting.dryRun = false → attempt setting disk dist decision = .ok ()) :
      Ends setting disk clear dist warnings decision result
  | refused {error : DiskError} (wet : setting.dryRun = false) (acts : decision.action ≠ none)
      (attempted : clear → attempt setting disk dist decision = .error error) :
      Ends setting disk clear dist warnings decision (.error error)

/-- What holds of a file at a phase, in terms of the first disk. -/
def Knows (setting : Setting) (disk : Disk) (base : Location) (clear : Prop) (dist : DistFile) :
    Phase → Prop
  | .begun => True
  | .searching current candidates =>
    setting.fresh = true ∧ disk.readBytes (setting.root.join dist.path.text) = .ok current ∧
      (∀ candidate ∈ candidates, candidate ∈ Mapping.reverse dist.path setting.sourceDir) ∧
      resolveSource disk setting.root setting.sourceDir dist.path =
        candidates.find? fun source => disk.isFile (setting.root.join source.text)
  | .fetching current source =>
    setting.fresh = true ∧ disk.readBytes (setting.root.join dist.path.text) = .ok current ∧
      resolveSource disk setting.root setting.sourceDir dist.path = some source
  | .decided decision warnings => Decides setting disk dist decision warnings
  | .moving temporary file warnings =>
    setting.dryRun = false ∧ temporary = besideOf setting base dist ∧
      ∃ content, Decides setting disk dist (.write content) warnings ∧
        file = .file content (disk.replacementMode (setting.root.join dist.path.text)) ∧
        (clear → attempt setting disk dist (.write content) = .ok ())
  | .done result => ∃ decision warnings, Decides setting disk dist decision warnings ∧
      Ends setting disk clear dist warnings decision result

/-- A file whose base bytes are known knows its decision. -/
theorem knows_judged {current bytes : Bytes}
    (read : disk.readBytes (setting.root.join dist.path.text) = .ok current)
    (basis : baseBytes setting disk dist.path = .ok bytes) :
    Knows setting disk base clear dist (.judged dist current bytes) :=
  .judged read basis

/-- What is left of a file that was processed is what its decision leaves. -/
def AsDecided (setting : Setting) (disk : Disk) (base : Location) (dist : DistFile) (_ : FileResult)
    (node : Option Node) : Prop :=
  ∀ decision warnings, Decides setting disk dist decision warnings →
    node = leaves setting disk base dist decision

/-- Files share a disk, on which those that were processed are as the first disk has it, and what
they know of the first disk is true of it. -/
structure Sound (setting : Setting) (disk : Disk) (base : Location) (files : List DistFile)
    (clear : Prop) (now : Disk) (phase : DistFile → Option Phase) : Prop
    extends Shared setting disk base files (AsDecided setting disk base) now phase where
  knows : ∀ dist come, phase dist = some come → Knows setting disk base clear dist come

theorem IsGround.sound (ground : IsGround setting disk base files) :
    Sound setting disk base files clear disk fun _ => none :=
  ⟨ground.shared, by simp⟩

/-- A file takes its turn, and what it knows then is true of the first disk. -/
structure Moment (setting : Setting) (disk : Disk) (base : Location) (files : List DistFile)
    (clear : Prop) (now : Disk) (phase : DistFile → Option Phase) (dist : DistFile)
    (there : Phase × Disk) : Prop
    extends Turn setting disk base files (AsDecided setting disk base) now phase dist there.1
      there.2 where
  knows : Knows setting disk base clear dist there.1

namespace Sound

variable {phase : DistFile → Option Phase}
  (sound : Sound setting disk base files clear now phase)

include sound

/-- The disk stays sound when a file takes its turn. -/
theorem keeps (scene : IsScene setting disk base files) {there : Phase × Disk}
    (moment : Moment setting disk base files clear now phase dist there) :
    Sound setting disk base files clear there.2 (Function.update phase dist (some there.1)) := by
  refine ⟨moment.toTurn.keeps sound.toShared scene, fun other come isCome => ?_⟩
  by_cases same : other = dist
  · subst same
    rw [Function.update_self, Option.some.injEq] at isCome
    exact isCome ▸ moment.knows
  · rw [Function.update_of_ne same] at isCome
    exact sound.knows other come isCome

variable (ground : IsGround setting disk base files)

include ground

/-! ## What a file sees -/

theorem sameSources : SameSources (Path.ofText setting.sourceDir) disk base now base := by
  intro place
  apply (sound.sameDirectories ground.toIsScene).sameAt
  apply sound.elsewhere
  · exact fun dist mem => ground.isSourceDirectory.ne_placeOf (ground.isDist mem) place
  · intro dist moves
    exact ground.isSourceDirectory.ne_besideOf
      (ground.isDist (sound.exists_temporary moves).1) place

variable (mem : dist ∈ files)

include mem

theorem sameCandidates : SameCandidates setting disk base now base dist.path :=
  (sound.sameSources ground).sameCandidates ground.isSourceDirectory (ground.isDist mem)

/-- Sources are seen as they were. -/
theorem isFile_source {source : Path}
    (isCandidate : source ∈ Mapping.reverse dist.path setting.sourceDir) :
    now.isFile (setting.root.join source.text) = disk.isFile (setting.root.join source.text) := by
  obtain ⟨names, spells, same⟩ := sound.sameCandidates ground mem source isCandidate
  exact ground.project.isFile_congr (sound.isProject ground.toIsScene) spells same

theorem readBytes_source {source : Path}
    (resolved : resolveSource disk setting.root setting.sourceDir dist.path = some source) :
    now.readBytes (setting.root.join source.text) =
      disk.readBytes (setting.root.join source.text) := by
  rw [resolveSource] at resolved
  have isFile := List.find?_some resolved
  obtain ⟨names, spells, same⟩ :=
    sound.sameCandidates ground mem source (List.mem_of_find?_eq_some resolved)
  exact ground.project.readBytes_congr (sound.isProject ground.toIsScene) spells sound.rights
    same isFile

/-- When names are clear, the temporary place of a file is as it was at first. -/
theorem get?_beside (isClear : IsClear setting files) (unmoved : isMoving (phase dist) = false) :
    now.get? (besideOf setting base dist) = disk.get? (besideOf setting base dist) := by
  apply sound.elsewhere
  · intro other otherMem same
    rw [besideOf, placeOf, List.append_cancel_left_eq] at same
    exact isClear dist mem other otherMem same.symm
  · intro other moves
    have differ := ne_of_isMoving moves unmoved
    exact (ground.besideOf_ne mem (sound.exists_temporary moves).1 differ).symm

/-! ## Moments -/

omit ground in
/-- A moment at which the disk is not changed. -/
theorem quiet (unsettled : isSettled (phase dist) = false) (unmoved : isMoving (phase dist) = false)
    {next : Phase} (knows : Knows setting disk base clear dist next)
    (stays : isMoving (some next) = false)
    (shown : ∀ result, next = .done (.ok result) → ∀ decision warnings,
      Decides setting disk dist decision warnings →
        leaves setting disk base dist decision = disk.get? (placeOf base dist)) :
    Moment setting disk base files clear now phase dist (next, now) :=
  ⟨Turn.quiet mem unsettled sound.toShared unmoved stays
    fun result ended _ _ decides => (shown result ended _ _ decides).symm, knows⟩

omit ground in
/-- A file is started. -/
theorem start (waiting : phase dist = none) :
    Moment setting disk base files clear now phase dist (.begun, now) :=
  sound.quiet mem (by rw [waiting]; rfl) (by rw [waiting]; rfl) trivial rfl (by simp)

omit ground in
/-- A file that cannot be read is given up. -/
theorem refused (unsettled : isSettled (phase dist) = false)
    (unmoved : isMoving (phase dist) = false) {error : DiskError}
    (decides : Decides setting disk dist (.refuse error) warnings) :
    Moment setting disk base files clear now phase dist (.done (.error error), now) :=
  sound.quiet mem unsettled unmoved ⟨_, _, decides, .finished rfl fun _ _ => rfl⟩ rfl (by simp)

theorem advance_begun (come : phase dist = some .begun) :
    Moment setting disk base files clear now phase dist
      (advance setting dist now .begun) := by
  have unsettled : isSettled (phase dist) = false := by rw [come]; rfl
  have unmoved : isMoving (phase dist) = false := by rw [come]; rfl
  simp only [advance, sound.readBytes_own ground.toIsScene mem unsettled]
  cases read : disk.readBytes (setting.root.join dist.path.text) with
  | error error => exact sound.refused mem unsettled unmoved (.unread read)
  | ok current =>
      simp only
      cases fresh : setting.fresh with
      | true =>
          exact sound.quiet mem unsettled unmoved ⟨fresh, read, fun _ => id, rfl⟩ rfl
            (by simp)
      | false =>
          refine sound.quiet mem unsettled unmoved (knows_judged read ?_) rfl
            (by simp [Phase.judged])
          rw [baseBytes, fresh]
          exact read

theorem advance_searching {current : Bytes} {candidates : List Path}
    (come : phase dist = some (.searching current candidates)) :
    Moment setting disk base files clear now phase dist
      (advance setting dist now (.searching current candidates)) := by
  have unsettled : isSettled (phase dist) = false := by rw [come]; rfl
  have unmoved : isMoving (phase dist) = false := by rw [come]; rfl
  obtain ⟨fresh, read, candidatesMem, resolved⟩ := sound.knows dist _ come
  cases candidates with
  | nil =>
      simp only [advance]
      refine sound.quiet mem unsettled unmoved (knows_judged read ?_) rfl
        (by simp [Phase.judged])
      rw [baseBytes, if_pos fresh, resolved]
      exact read
  | cons candidate others =>
      simp only [advance, sound.isFile_source ground mem (candidatesMem candidate (by simp))]
      cases isFile : disk.isFile (setting.root.join candidate.text) with
      | true =>
          rw [List.find?_cons_of_pos (by exact isFile)] at resolved
          exact sound.quiet mem unsettled unmoved ⟨fresh, read, resolved⟩ rfl (by simp)
      | false =>
          rw [List.find?_cons_of_neg (by simp [isFile])] at resolved
          refine sound.quiet mem unsettled unmoved
            ⟨fresh, read, fun other otherMem => ?_, resolved⟩ rfl (by simp)
          exact candidatesMem other (by simp [otherMem])

theorem advance_fetching {current : Bytes} {source : Path}
    (come : phase dist = some (.fetching current source)) :
    Moment setting disk base files clear now phase dist
      (advance setting dist now (.fetching current source)) := by
  have unsettled : isSettled (phase dist) = false := by rw [come]; rfl
  have unmoved : isMoving (phase dist) = false := by rw [come]; rfl
  obtain ⟨fresh, read, resolved⟩ := sound.knows dist _ come
  have basis :
      baseBytes setting disk dist.path = disk.readBytes (setting.root.join source.text) := by
    rw [baseBytes, if_pos fresh, resolved]
  simp only [advance, sound.readBytes_source ground mem resolved]
  cases readSource : disk.readBytes (setting.root.join source.text) with
  | error error =>
      exact sound.refused mem unsettled unmoved (.baseless read (basis.trans readSource))
  | ok bytes =>
      exact sound.quiet mem unsettled unmoved
        (knows_judged read (basis.trans readSource)) rfl (by simp [Phase.judged])

theorem advance_moving {temporary : Location} {file : Node}
    (come : phase dist = some (.moving temporary file warnings)) :
    Moment setting disk base files clear now phase dist
      (advance setting dist now (.moving temporary file warnings)) := by
  have moves : isMoving (phase dist) = true := by rw [come]; rfl
  have unsettled := isSettled_of_isMoving moves
  obtain ⟨wet, rfl, content, decides, rfl, attempted⟩ := sound.knows dist _ come
  obtain ⟨current, _, read, _⟩ := decides.exists_read (by simp)
  rw [sound.toShared.advance_moving ground.toIsScene mem unsettled read]
  refine ⟨Turn.move mem unsettled ground.toIsScene moves ?_,
    _, warnings, decides, .finished rfl fun isClear _ => attempted isClear⟩
  intro decision otherWarnings again
  rw [(decides.unique again).1, leaves, if_neg (by simp [wet])]

theorem advance_remove (wet : setting.dryRun = false)
    (come : phase dist = some (.decided .remove warnings)) :
    Moment setting disk base files clear now phase dist
      (advance setting dist now (.decided .remove warnings)) := by
  have unsettled : isSettled (phase dist) = false := by rw [come]; rfl
  have unmoved : isMoving (phase dist) = false := by rw [come]; rfl
  have decides : Decides setting disk dist .remove warnings := sound.knows dist _ come
  obtain ⟨current, _, read, _⟩ := decides.exists_read (by simp)
  rw [sound.toShared.advance_remove ground.toIsScene mem unsettled wet read]
  cases attempted : attempt setting disk dist .remove with
  | error error =>
      exact sound.quiet mem unsettled unmoved
        ⟨_, warnings, decides, .refused wet (by simp [Decision.action]) fun _ => attempted⟩ rfl
        (by simp)
  | ok =>
      refine ⟨Turn.remove mem unsettled ground.toIsScene unmoved ?_,
        _, warnings, decides, .finished rfl fun _ _ => attempted⟩
      intro decision otherWarnings again
      rw [(decides.unique again).1, leaves, if_neg (by simp [wet])]

theorem advance_write (isClear : clear → IsClear setting files) (wet : setting.dryRun = false)
    {content : Bytes} (come : phase dist = some (.decided (.write content) warnings)) :
    Moment setting disk base files clear now phase dist
      (advance setting dist now (.decided (.write content) warnings)) := by
  have unsettled : isSettled (phase dist) = false := by rw [come]; rfl
  have unmoved : isMoving (phase dist) = false := by rw [come]; rfl
  have decides : Decides setting disk dist (.write content) warnings := sound.knows dist _ come
  obtain ⟨current, _, read, _⟩ := decides.exists_read (by simp)
  have attempted (holds : clear) : attempt setting disk dist (.write content) =
      (now.stage setting.writer (setting.root.join dist.path.text) content).1.map
        fun _ => () := by
    obtain ⟨front, last, segments, fileFirst, file⟩ :=
      sound.holdsFile ground.toIsScene mem unsettled read
    have own := sound.kept dist mem unsettled
    have beside := sound.get?_beside ground mem (isClear holds) unmoved
    rw [placeOf, segments] at own
    rw [besideOf, segments] at beside
    rw [attempt, fileFirst.stage_congr file (sound.sameDirectories ground.toIsScene) own _ beside
      content]
  simp only [advance, wet, Bool.false_eq_true, if_false]
  rcases sound.stage_cases ground.toIsScene mem unsettled read content with
    ⟨error, refused⟩ | ⟨free, staged⟩
  · simp only [refused] at attempted ⊢
    exact sound.quiet mem unsettled unmoved
      ⟨_, warnings, decides, .refused wet (by simp [Decision.action]) attempted⟩ rfl (by simp)
  · simp only [staged] at attempted ⊢
    exact ⟨Turn.stage mem unsettled ground.toIsScene sound.toShared unmoved free content _ warnings,
      wet, rfl, content, decides, rfl, attempted⟩

theorem advance_decided (isClear : clear → IsClear setting files)
    (come : phase dist = some (.decided decision warnings)) :
    Moment setting disk base files clear now phase dist
      (advance setting dist now (.decided decision warnings)) := by
  have decides : Decides setting disk dist decision warnings := sound.knows dist _ come
  have quietly (same : leaves setting disk base dist decision = disk.get? (placeOf base dist))
      (attempted : clear → setting.dryRun = false → attempt setting disk dist decision = .ok ()) :
      Moment setting disk base files clear now phase dist
        (.done (decision.answer dist warnings), now) := by
    refine sound.quiet mem (by rw [come]; rfl) (by rw [come]; rfl)
      ⟨decision, warnings, decides, .finished rfl attempted⟩ rfl ?_
    intro _ _ otherDecision otherWarnings again
    rw [(decides.unique again).1, same]
  cases dry : setting.dryRun with
  | true =>
      simp only [advance, dry, if_true]
      exact quietly (by rw [leaves.eq_def, if_pos dry]) fun _ wet => by simp [dry] at wet
  | false =>
      cases decision with
      | keep =>
          simp only [advance, dry, Bool.false_eq_true, if_false]
          exact quietly (by rw [leaves, if_neg (by simp [dry])]) fun _ _ => rfl
      | remove => exact sound.advance_remove ground mem dry come
      | write content => exact sound.advance_write ground mem isClear dry come
      | refuse error =>
          simp only [advance, dry, Bool.false_eq_true, if_false]
          exact quietly (by rw [leaves, if_neg (by simp [dry])]) fun _ _ => rfl

omit mem in
/-- Every moment of every file is a turn that it takes. -/
theorem advance (isClear : clear → IsClear setting files) {come : Phase}
    (isCome : phase dist = some come) (busy : come.isDone = false) :
    Moment setting disk base files clear now phase dist
      (Run.advance setting dist now come) := by
  have mem : dist ∈ files := sound.known dist (by simp [isCome])
  cases come with
  | begun => exact sound.advance_begun ground mem isCome
  | searching current candidates => exact sound.advance_searching ground mem isCome
  | fetching current source => exact sound.advance_fetching ground mem isCome
  | decided decision warnings => exact sound.advance_decided ground mem isClear isCome
  | moving temporary file warnings => exact sound.advance_moving ground mem isCome
  | done result => contradiction

end Sound

end DistDirectives.Run
