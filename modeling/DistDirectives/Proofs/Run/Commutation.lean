import DistDirectives.Proofs.Run.Completion

/-!
# Files that do not meet

What a file does at a moment depends on what it sees: the directories, the sources, itself, and
the place of its temporary file (`Sound.advance_congr`). So processing it comes to the same
wherever it sees the same (`process_congr`), and it touches the file at most. Files that are
neither each other nor each other's temporary files do not notice each other, then: groups of
such files can be processed in any order, with the same results and the same disk in the end
(`afterEach_eq_of_perm`). Inside of a group the order stays what it was, so its files may well
meet.
-/

namespace DistDirectives.Run

open Disk (IsProject HoldsFile SameDirectories temporaryPlace)
open Relation (ReflTransGen)

variable {setting : Setting} {disk other now : Disk} {base : Location} {dist : DistFile}
  {files : List DistFile} {clear : Prop}

/-! ## What a file sees -/

/-- Disks on which files see the same: the directories, the sources, themselves, and the places of
their temporary files. -/
structure SeeAlike (setting : Setting) (base : Location) (files : List DistFile)
    (disk other : Disk) : Prop where
  directories : SameDirectories disk other
  sources : SameSourceTree (Path.ofText setting.sourceDir) disk base other base
  own : ∀ dist ∈ files, other.get? (placeOf base dist) = disk.get? (placeOf base dist)
  beside : ∀ dist ∈ files,
    other.get? (besideOf setting base dist) = disk.get? (besideOf setting base dist)

theorem SeeAlike.refl (disk : Disk) : SeeAlike setting base files disk disk :=
  ⟨.refl disk, fun _ => rfl, fun _ _ => rfl, fun _ _ => rfl⟩

theorem SeeAlike.tail (alike : SeeAlike setting base (dist :: files) disk other) :
    SeeAlike setting base files disk other :=
  ⟨alike.directories, alike.sources, fun file mem => alike.own file (by simp [mem]),
    fun file mem => alike.beside file (by simp [mem])⟩

/-- The candidates for sources are found where they were. -/
theorem SeeAlike.sameCandidates (alike : SeeAlike setting base files disk other)
    (isSourceDirectory : IsSourceDirectory (Path.ofText setting.sourceDir))
    (isDist : IsDistPath dist.path) : SameCandidates setting disk base other base dist.path :=
  SameSources.sameCandidates (fun place => alike.directories.sameAt (alike.sources place))
    isSourceDirectory isDist

/-- A file is found where it was. -/
theorem SeeAlike.sameAt (alike : SeeAlike setting base files disk other) (mem : dist ∈ files) :
    Disk.SameAt disk base other base dist.path.segments :=
  alike.directories.sameAt (alike.own dist mem)

/-- Files see the same still where the directories are what they were, and where what was the same
is the same. -/
theorem SeeAlike.onwards (alike : SeeAlike setting base files disk other) {after otherAfter : Disk}
    (directories : SameDirectories disk after) (otherDirectories : SameDirectories other otherAfter)
    (agree : ∀ location, other.get? location = disk.get? location →
      otherAfter.get? location = after.get? location) :
    SeeAlike setting base files after otherAfter :=
  ⟨directories.symm.trans (alike.directories.trans otherDirectories),
    fun place => agree _ (alike.sources place), fun dist mem => agree _ (alike.own dist mem),
    fun dist mem => agree _ (alike.beside dist mem)⟩

/-! ## What one moment depends on -/

/-- The same came of a moment on two disks, and where these agreed they still do. -/
def GoAlike (disk other : Disk) (there otherThere : Phase × Disk) : Prop :=
  otherThere.1 = there.1 ∧ ∀ location, other.get? location = disk.get? location →
    otherThere.2.get? location = there.2.get? location

theorem GoAlike.symm {there otherThere : Phase × Disk}
    (alike : GoAlike disk other there otherThere) : GoAlike other disk otherThere there :=
  ⟨alike.1.symm, fun location same => (alike.2 location same.symm).symm⟩

theorem GoAlike.trans {here otherHere there otherThere : Phase × Disk}
    (first : GoAlike disk other here otherHere)
    (second : GoAlike here.2 otherHere.2 there otherThere) : GoAlike disk other there otherThere :=
  ⟨second.1, fun location same => second.2 location (first.2 location same)⟩

theorem goAlike_refl (next : Phase) : GoAlike disk other (next, disk) (next, other) :=
  ⟨rfl, fun _ => id⟩

namespace Sound

variable {phase : DistFile → Option Phase}
  (sound : Sound setting disk base files clear now phase)
  (ground : IsGround setting disk base files) (otherProject : IsProject other setting.root base)
  (alike : SeeAlike setting base files now other)

include sound ground otherProject alike

theorem advance_decided_congr {decision : Decision} {warnings : Nat}
    (come : phase dist = some (.decided decision warnings)) :
    GoAlike now other (Run.advance setting dist now (.decided decision warnings))
      (Run.advance setting dist other (.decided decision warnings)) := by
  have mem : dist ∈ files := sound.known dist (by simp [come])
  have unsettled : isSettled (phase dist) = false := by rw [come]; rfl
  have decides : Decides setting disk dist decision warnings := sound.knows dist _ come
  cases dry : setting.dryRun with
  | true =>
      simp only [Run.advance, dry, if_true]
      exact goAlike_refl _
  | false =>
      simp only [Run.advance, dry, Bool.false_eq_true, if_false]
      cases decision with
      | keep => exact goAlike_refl _
      | refuse error => exact goAlike_refl _
      | remove =>
          obtain ⟨current, _, read, _⟩ := decides.exists_read (by simp)
          obtain ⟨front, last, segments, _, file⟩ :=
            sound.holdsFile ground.toIsScene mem unsettled read
          have own := alike.own dist mem
          rw [placeOf, segments] at own
          have otherFile := file.congr otherProject alike.directories own
          simp only [file.removeFile_eq, otherFile.removeFile_eq, alike.directories.allows]
          cases now.allows Node.ownerWrites (base ++ front) with
          | false => exact goAlike_refl _
          | true => exact ⟨rfl, fun _ => Disk.get?_erase_congr (by simp)⟩
      | write content =>
          obtain ⟨current, _, read, _⟩ := decides.exists_read (by simp)
          obtain ⟨front, last, segments, _, file⟩ :=
            sound.holdsFile ground.toIsScene mem unsettled read
          have own := alike.own dist mem
          have beside := alike.beside dist mem
          rw [placeOf, segments] at own
          rw [besideOf, segments] at beside
          have otherFile := file.congr otherProject alike.directories own
          rcases file.stage_cases_congr otherFile alike.directories own setting.writer beside
            content with ⟨error, refused, otherRefused⟩ | ⟨place, node, below, staged, otherStaged⟩
          · simp only [refused, otherRefused]
            exact goAlike_refl _
          · simp only [staged, otherStaged]
            exact ⟨rfl, fun _ => Disk.get?_store_congr below node⟩

/-- What a moment of a file does depends on what the file sees. -/
theorem advance_congr {come : Phase} (isCome : phase dist = some come)
    (busy : come.isDone = false) :
    GoAlike now other (Run.advance setting dist now come)
      (Run.advance setting dist other come) := by
  have mem : dist ∈ files := sound.known dist (by simp [isCome])
  have unsettled : isSettled (phase dist) = false := by
    rw [isCome]
    exact isSettled_of_isDone busy
  have project := sound.isProject ground.toIsScene
  have isDist := ground.isDist mem
  have candidates := alike.sameCandidates ground.isSourceDirectory isDist
  cases come with
  | begun =>
      have isFile : now.isFile (setting.root.join dist.path.text) = true := by
        rw [ground.project.isFile_congr project (isDist.spells setting.root)
          ((sound.sameDirectories ground.toIsScene).sameAt (sound.kept dist mem unsettled))]
        exact ground.present dist mem
      have reads := project.readBytes_congr otherProject (isDist.spells setting.root)
        alike.directories.rights (alike.sameAt mem) isFile
      simp only [Run.advance, reads]
      cases now.readBytes (setting.root.join dist.path.text) with
      | error error => exact goAlike_refl _
      | ok current => exact goAlike_refl _
  | searching current left =>
      obtain ⟨_, _, leftMem, _⟩ := sound.knows dist _ isCome
      cases left with
      | nil => exact goAlike_refl _
      | cons candidate others =>
          obtain ⟨names, spells, same⟩ := candidates candidate (leftMem candidate (by simp))
          have stands := project.isFile_congr otherProject spells same
          simp only [Run.advance, stands]
          exact goAlike_refl _
  | fetching current source =>
      obtain ⟨_, _, resolved⟩ := sound.knows dist _ isCome
      rw [resolveSource] at resolved
      have candidate := List.mem_of_find?_eq_some resolved
      obtain ⟨names, spells, same⟩ := candidates source candidate
      have isFile := List.find?_some resolved
      rw [← sound.isFile_source ground mem candidate] at isFile
      have reads := project.readBytes_congr otherProject spells alike.directories.rights
        same isFile
      simp only [Run.advance, reads]
      cases now.readBytes (setting.root.join source.text) with
      | error error => exact goAlike_refl _
      | ok bytes => exact goAlike_refl _
  | decided decision warnings =>
      exact sound.advance_decided_congr ground otherProject alike isCome
  | moving temporary file warnings =>
      obtain ⟨_, rfl, content, decides, rfl, _⟩ := sound.knows dist _ isCome
      obtain ⟨current, _, read, _⟩ := decides.exists_read (by simp)
      obtain ⟨front, last, segments, _, here⟩ :=
        sound.holdsFile ground.toIsScene mem unsettled read
      have own := alike.own dist mem
      rw [placeOf, segments] at own
      have otherHere := here.congr otherProject alike.directories own
      simp only [Run.advance, here.settle_eq, otherHere.settle_eq]
      refine ⟨rfl, fun location same => ?_⟩
      exact Disk.get?_store_congr (by simp) _
        (Disk.get?_erase_congr (by simp [besideOf, temporaryPlace]) same)
  | done result => contradiction

end Sound

/-! ## What all moments depend on -/

/-- A file alone on a disk comes to one end. -/
theorem alone_unique {start : Phase × Disk} {result again : Except DiskError FileResult}
    {after afterAgain : Disk}
    (ends : ReflTransGen (Alone setting dist) start (.done result, after))
    (endsAgain : ReflTransGen (Alone setting dist) start (.done again, afterAgain)) :
    again = result ∧ afterAgain = after := by
  have deterministic : Relator.RightUnique (Alone setting dist) := by
    rintro here _ _ ⟨_, rfl⟩ ⟨_, rfl⟩
    rfl
  have stuck {there : Phase × Disk} {last : Except DiskError FileResult} {disk : Disk}
      (steps : ReflTransGen (Alone setting dist) (.done last, disk) there) :
      there = (.done last, disk) := by
    rcases steps.cases_head with same | ⟨_, ⟨busy, _⟩, _⟩
    · exact same.symm
    · contradiction
  rcases ends.total_of_right_unique deterministic endsAgain with more | more
  · cases stuck more
    exact ⟨rfl, rfl⟩
  · cases stuck more
    exact ⟨rfl, rfl⟩

/-- A file is there on every disk on which it sees the same. -/
theorem IsGround.congr (ground : IsGround setting disk base files)
    (otherProject : IsProject other setting.root base)
    (alike : SeeAlike setting base files disk other) : IsGround setting other base files := by
  refine ⟨⟨otherProject, ground.apart, fun dist mem => ?_⟩, ground.isSourceDirectory⟩
  rw [ground.project.isFile_congr otherProject ((ground.isDist mem).spells setting.root)
    (alike.sameAt mem)]
  exact ground.present dist mem

/-- A disk on which one file has come to a phase is sound. -/
theorem IsGround.sound_of_alone (ground : IsGround setting disk base files) (mem : dist ∈ files)
    {there : Phase × Disk} (steps : ReflTransGen (Alone setting dist) (.begun, disk) there) :
    Sound setting disk base files False there.2
      (Function.update (fun _ => none) dist (some there.1)) := by
  induction steps with
  | refl => exact ground.sound.keeps ground.toIsScene (ground.sound.start mem rfl)
  | tail _ step sound =>
      obtain ⟨busy, rfl⟩ := step
      have moment := sound.advance ground False.elim (Function.update_self ..) busy
      have soundThen := sound.keeps ground.toIsScene moment
      rwa [Function.update_idem] at soundThen

/-- Alone on disks on which it sees the same, a file comes to the same. -/
theorem exists_alone_congr (ground : IsGround setting disk base files) (mem : dist ∈ files)
    (otherProject : IsProject other setting.root base)
    (alike : SeeAlike setting base files disk other) {there : Phase × Disk}
    (steps : ReflTransGen (Alone setting dist) (.begun, disk) there) :
    ∃ otherThere, ReflTransGen (Alone setting dist) (.begun, other) otherThere ∧
      GoAlike disk other there otherThere := by
  have otherGround := ground.congr otherProject alike
  induction steps with
  | refl => exact ⟨_, .refl, goAlike_refl _⟩
  | tail steps step ih =>
      obtain ⟨busy, rfl⟩ := step
      obtain ⟨otherHere, otherSteps, goAlike⟩ := ih
      have sound := ground.sound_of_alone mem steps
      have otherSound := otherGround.sound_of_alone mem otherSteps
      have alikeHere := alike.onwards (sound.sameDirectories ground.toIsScene)
        (otherSound.sameDirectories otherGround.toIsScene) goAlike.2
      have goAlikeThen := sound.advance_congr ground (otherSound.isProject otherGround.toIsScene)
        alikeHere (Function.update_self ..) busy
      rw [← goAlike.1] at busy
      refine ⟨_, otherSteps.tail ⟨busy, rfl⟩, ?_⟩
      rw [goAlike.1]
      exact goAlike.trans goAlikeThen

/-- What comes of a file depends on the sources, on the file, and on what the place of its
temporary file holds. -/
theorem process_congr (ground : IsGround setting disk base files) (mem : dist ∈ files)
    (otherProject : IsProject other setting.root base)
    (alike : SeeAlike setting base files disk other) :
    (process setting other dist).1 = (process setting disk dist).1 ∧
      ∀ location, other.get? location = disk.get? location →
        (process setting other dist).2.get? location =
          (process setting disk dist).2.get? location := by
  obtain ⟨⟨phase, after⟩, otherSteps, samePhase, places⟩ :=
    exists_alone_congr ground mem otherProject alike (alone_process setting dist disk)
  simp only at samePhase places
  subst samePhase
  obtain ⟨same, rfl⟩ := alone_unique otherSteps (alone_process setting dist other)
  exact ⟨same, places⟩

/-! ## Files one after the other -/

/-- The files behind a file are still there after it was processed. -/
theorem IsGround.step (ground : IsGround setting disk base (dist :: files))
    (wet : setting.dryRun = false) : IsGround setting (process setting disk dist).2 base files := by
  obtain ⟨rewrites, elsewhere⟩ :=
    process_frame ground.project (ground.isDist List.mem_cons_self) wet
  have projectAfter := rewrites.isProject ground.project
  refine ⟨⟨projectAfter, ground.apart.tail, fun other mem => ?_⟩, ground.isSourceDirectory⟩
  have otherDist := ground.apart.tail.areDist other mem
  have differ := (List.pairwise_cons.1 ground.apart.distinct).1 other mem
  have unchanged := elsewhere _
    (location_ne_of_path_ne otherDist (ground.isDist (by simp)) differ.symm)
  rw [ground.project.isFile_congr projectAfter (otherDist.spells setting.root)
    (rewrites.sameDirectories.sameAt unchanged)]
  exact ground.present other (List.mem_cons_of_mem _ mem)

theorem IsGround.onwards {more : List DistFile}
    (ground : IsGround setting disk base (files ++ more))
    (wet : setting.dryRun = false) : IsGround setting (afterEach setting disk files) base more := by
  induction files generalizing disk with
  | nil => exact ground
  | cons dist files ih => exact ih (ground.step wet)

theorem IsGround.front {more : List DistFile}
    (ground : IsGround setting disk base (files ++ more)) :
    IsGround setting disk base files :=
  ⟨⟨ground.project,
      ⟨fun dist mem => ground.apart.areDist dist (List.mem_append_left _ mem),
        (List.pairwise_append.1 ground.apart.distinct).1⟩,
      fun dist mem => ground.present dist (List.mem_append_left _ mem)⟩,
    ground.isSourceDirectory⟩

theorem IsGround.back {more : List DistFile} (ground : IsGround setting disk base (files ++ more)) :
    IsGround setting disk base more :=
  (ground.perm List.perm_append_comm).front

/-- Files that have nothing to do with those at rest are still there. -/
theorem Rests.onwards {agenda : Agenda} {pool : Pool} {more : List DistFile} {clear : Prop}
    (rests : Rests agenda setting disk base clear pool)
    (ground : IsGround setting disk base (agenda.files ++ more)) :
    IsGround setting pool.disk base more := by
  have rewrites := rests.rewrites ground.front
  have project := rewrites.isProject ground.project
  refine ⟨⟨project, ground.back.apart, fun dist mem => ?_⟩, ground.isSourceDirectory⟩
  have unchanged : pool.disk.get? (placeOf base dist) = disk.get? (placeOf base dist) := by
    refine rests.elsewhere _ fun other otherMem => ?_
    refine ground.placeOf_ne (List.mem_append_left _ otherMem) (List.mem_append_right _ mem) ?_
    rintro rfl
    exact (List.nodup_append.1 ground.nodup).2.2 dist otherMem dist mem rfl
  rw [ground.project.isFile_congr project ((ground.back.isDist mem).spells setting.root)
    (rewrites.sameDirectories.sameAt unchanged)]
  exact ground.back.present dist mem

/-- Files one after the other are at rest in the end. -/
theorem IsGround.exists_rests (ground : IsGround setting disk base files) :
    ∃ agenda pool, Rests agenda setting disk base False pool ∧ agenda.files = files ∧
      pool.disk = afterEach setting disk files ∧ pool.log = outcomes setting disk files := by
  obtain ⟨agenda, all, goesOn, positive⟩ : ∃ agenda : Agenda, agenda.files = files ∧
      agenda.stopOnError = false ∧ 0 < agenda.concurrency ∧ 0 < agenda.targetsConcurrency :=
    ⟨⟨[[files]], 1, 1, false⟩, by simp [Agenda.files], rfl, Nat.zero_lt_one, Nat.zero_lt_one⟩
  subst all
  obtain ⟨pool, executes, disk_eq, log_eq⟩ :=
    @Pool.exists_executes agenda setting ground.nodup positive.1
    positive.2 disk (by simp [Passes, goesOn])
  exact ⟨agenda, pool, executes.rests ground False.elim, rfl, disk_eq, log_eq⟩

/-- Nothing happens at the top of the disk. -/
theorem IsGround.background_afterEach (ground : IsGround setting disk base files) :
    (afterEach setting disk files).background = disk.background := by
  obtain ⟨agenda, pool, rests, _, disk_eq, _⟩ := ground.exists_rests
  rw [← disk_eq, rests.top]

theorem IsGround.areOwn_outcomes (ground : IsGround setting disk base files) :
    AreOwn (outcomes setting disk files) := by
  obtain ⟨agenda, pool, rests, rfl, _, log_eq⟩ := ground.exists_rests
  rw [← log_eq]
  exact rests.areOwn ground

/-- Files one after the other have the same results on a disk that is the same as far as they
see. Where it is the same before it is the same afterwards. -/
theorem outcomes_congr (ground : IsGround setting disk base files) (wet : setting.dryRun = false)
    (otherProject : IsProject other setting.root base)
    (alike : SeeAlike setting base files disk other) :
    outcomes setting other files = outcomes setting disk files ∧
      ∀ location, other.get? location = disk.get? location →
        (afterEach setting other files).get? location =
          (afterEach setting disk files).get? location := by
  induction files generalizing disk other with
  | nil => exact ⟨rfl, fun _ same => same⟩
  | cons dist files ih =>
      have isDist := ground.isDist List.mem_cons_self
      obtain ⟨result, agree⟩ := process_congr ground List.mem_cons_self otherProject alike
      obtain ⟨rewrites, _⟩ := process_frame ground.project isDist wet
      obtain ⟨otherRewrites, _⟩ := process_frame otherProject isDist wet
      have alikeThen :=
        alike.onwards rewrites.sameDirectories otherRewrites.sameDirectories agree
      obtain ⟨results, later⟩ :=
        ih (ground.step wet) (otherRewrites.isProject otherProject) alikeThen.tail
      constructor
      · rw [outcomes, outcomes, result, results]
      · exact fun location same => later location (agree location same)

/-! ## Groups of files -/

/-- No file of the one group is a file of the other one, or the temporary file of one. -/
def AreStrangers (writer : Text) (left right : List DistFile) : Prop :=
  ∀ first ∈ left, ∀ second ∈ right, first.path.segments ≠ second.path.segments ∧
    first.path.segments ≠ temporaryPlace writer second.path.segments ∧
      second.path.segments ≠ temporaryPlace writer first.path.segments

theorem AreStrangers.symm {writer : Text} {left right : List DistFile}
    (strangers : AreStrangers writer left right) : AreStrangers writer right left := by
  intro first firstMem second secondMem
  obtain ⟨differ, beside, besideToo⟩ := strangers second secondMem first firstMem
  exact ⟨differ.symm, besideToo, beside⟩

theorem areStrangers_flatten_iff {writer : Text} {left : List DistFile}
    {groups : List (List DistFile)} :
    AreStrangers writer left groups.flatten ↔ ∀ group ∈ groups, AreStrangers writer left group := by
  constructor
  · intro strangers group mem first firstMem second secondMem
    exact strangers first firstMem second (List.mem_flatten.2 ⟨group, mem, secondMem⟩)
  · intro strangers first firstMem second secondMem
    obtain ⟨group, mem, inside⟩ := List.mem_flatten.1 secondMem
    exact strangers group mem first firstMem second inside

/-- Files see the same as long as nothing but strangers was touched. -/
theorem AreStrangers.seeAlike {left right : List DistFile}
    (strangers : AreStrangers setting.writer left right)
    (isSourceDirectory : IsSourceDirectory (Path.ofText setting.sourceDir))
    (areDist : ∀ dist ∈ left, IsDistPath dist.path) (directories : SameDirectories disk other)
    (elsewhere : ∀ location, (∀ dist ∈ left, location ≠ placeOf base dist) →
      other.get? location = disk.get? location) :
    SeeAlike setting base right disk other := by
  have unseen {names : List Text} (differ : ∀ first ∈ left, first.path.segments ≠ names) :
      other.get? (base ++ names) = disk.get? (base ++ names) := by
    apply elsewhere
    intro first firstMem same
    exact differ first firstMem (List.append_cancel_left same).symm
  refine ⟨directories, fun place => elsewhere _ fun first firstMem => ?_, ?_, ?_⟩
  · exact isSourceDirectory.ne_placeOf (areDist first firstMem) place
  · exact fun second secondMem => unseen fun first firstMem =>
      (strangers first firstMem second secondMem).1
  · exact fun second secondMem => unseen fun first firstMem =>
      (strangers first firstMem second secondMem).2.1

section

variable {left right : List DistFile} (ground : IsGround setting disk base (left ++ right))
  (strangers : AreStrangers setting.writer left right) (wet : setting.dryRun = false)

include ground strangers wet

/-- A group does not notice that another one was processed before. -/
theorem outcomes_behind :
    outcomes setting (afterEach setting disk left) right = outcomes setting disk right ∧
      ∀ location, (∀ dist ∈ left, location ≠ placeOf base dist) →
        (afterEach setting (afterEach setting disk left) right).get? location =
          (afterEach setting disk right).get? location := by
  obtain ⟨rewrites, elsewhere⟩ := afterEach_frame ground.project ground.front.apart.areDist wet
  obtain ⟨results, later⟩ := outcomes_congr ground.back wet (rewrites.isProject ground.project)
    (strangers.seeAlike ground.isSourceDirectory ground.front.apart.areDist
      rewrites.sameDirectories elsewhere)
  exact ⟨results, fun location apart => later location (elsewhere location apart)⟩

/-- Groups that are strangers can change places. -/
theorem afterEach_comm :
    afterEach setting (afterEach setting disk right) left =
      afterEach setting (afterEach setting disk left) right := by
  have swapped : IsGround setting disk base (right ++ left) := ground.perm List.perm_append_comm
  obtain ⟨_, behindLeft⟩ := outcomes_behind ground strangers wet
  obtain ⟨_, behindRight⟩ := outcomes_behind swapped strangers.symm wet
  refine Disk.eq_of_get? ?_ fun location => ?_
  · rw [(swapped.onwards wet).background_afterEach, swapped.front.background_afterEach,
      (ground.onwards wet).background_afterEach, ground.front.background_afterEach]
  by_cases inLeft : ∃ first ∈ left, location = placeOf base first
  · rcases inLeft with ⟨first, firstMem, rfl⟩
    have outside : ∀ second ∈ right, placeOf base first ≠ placeOf base second := by
      intro second secondMem same
      exact (strangers first firstMem second secondMem).1 (List.append_cancel_left same)
    rw [behindRight _ outside]
    exact ((afterEach_frame (ground.onwards wet).project ground.back.apart.areDist wet).2
      _ outside).symm
  · have outside : ∀ first ∈ left, location ≠ placeOf base first :=
      fun first firstMem same => inLeft ⟨first, firstMem, same⟩
    rw [behindLeft _ outside]
    exact (afterEach_frame (swapped.onwards wet).project ground.front.apart.areDist wet).2 _ outside

end

/-- Groups that are strangers to each other can be processed in any order. -/
theorem afterEach_eq_of_perm {groups others : List (List DistFile)} (perm : groups.Perm others)
    (strangers : groups.Pairwise (AreStrangers setting.writer))
    (ground : IsGround setting disk base groups.flatten) (wet : setting.dryRun = false) :
    (outcomes setting disk others.flatten).Perm (outcomes setting disk groups.flatten) ∧
      afterEach setting disk others.flatten = afterEach setting disk groups.flatten := by
  induction perm generalizing disk with
  | nil => exact ⟨.refl _, rfl⟩
  | cons group _ ih =>
      rw [List.flatten_cons] at ground
      obtain ⟨results, disks⟩ := ih (List.pairwise_cons.1 strangers).2 (ground.onwards wet)
      rw [List.flatten_cons, List.flatten_cons, outcomes_append, outcomes_append, afterEach_append,
        afterEach_append]
      exact ⟨results.append_left _, disks⟩
  | swap first second groups =>
      have apart := (List.pairwise_cons.1 strangers).1 first (by simp)
      simp only [List.flatten_cons] at ground ⊢
      rw [← List.append_assoc] at ground
      have pair := ground.front
      have comm := afterEach_comm pair apart wet
      have swapped := pair.perm List.perm_append_comm
      simp only [outcomes_append, afterEach_append, comm, (outcomes_behind pair apart wet).1,
        (outcomes_behind swapped apart.symm wet).1, and_true, ← List.append_assoc]
      exact List.perm_append_comm.append_right _
  | trans first second ih again =>
      obtain ⟨results, disks⟩ := ih strangers ground
      obtain ⟨resultsAgain, disksAgain⟩ :=
        again (first.pairwise strangers fun apart => apart.symm) (ground.perm first.flatten)
      exact ⟨resultsAgain.trans results, disksAgain.trans disks⟩

end DistDirectives.Run
