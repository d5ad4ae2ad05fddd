import DistDirectives.Proofs.Lists
import DistDirectives.Proofs.Run.Commutation

/-!
# Executions of some of the files

What a file does at a moment depends on what it sees (`Sound.advance_congr`). So what files do in
an execution, if they are strangers to the others, is an execution of their own, on every disk
on which they see the same (`Pool.Executes.restrict`). And an execution of some files and then
one of others is an execution of all of them (`Pool.Executes.join`).
-/

namespace DistDirectives.Run

open Relation (ReflTransGen)

variable {setting : Setting} {disk other : Disk} {base : Location} {files : List DistFile}
  {dist : DistFile}

/-! ## Agendas in parts -/

/-- An agenda with further targets before and behind its own. -/
def Agenda.amid (part : Agenda) (before behind : List (List (List DistFile))) : Agenda :=
  { part with targets := before ++ part.targets ++ behind }

variable {part agenda : Agenda} {before behind : List (List (List DistFile))}
  {pool small : Pool}

theorem Agenda.files_amid (part : Agenda) (before behind : List (List (List DistFile))) :
    (part.amid before behind).files =
      before.flatten.flatten ++ part.files ++ behind.flatten.flatten := by
  simp [amid, files]

theorem Agenda.mem_files_of_mem {target : List (List DistFile)} (mem : target ∈ part.targets)
    (distMem : dist ∈ target.flatten) : dist ∈ part.files :=
  mem_flatten_flatten mem distMem

/-- A target with a file of a part is a target of the part. -/
theorem Agenda.exists_split_of_amid (nodup : (part.amid before behind).files.Nodup)
    (mem : dist ∈ part.files) {front rest : List (List (List DistFile))}
    {target : List (List DistFile)}
    (split : (part.amid before behind).targets = front ++ target :: rest)
    (distMem : dist ∈ target.flatten) :
    ∃ first last, front = before ++ first ∧ part.targets = first ++ target :: last := by
  rw [files_amid, List.nodup_append, List.nodup_append] at nodup
  obtain ⟨⟨_, _, apart⟩, _, apartBehind⟩ := nodup
  rw [amid, List.append_assoc] at split
  obtain ⟨first, rfl, parts⟩ := exists_behind_of_append_eq split fun targetMem =>
    apart dist (mem_flatten_flatten targetMem distMem) dist mem rfl
  obtain ⟨last, targets_eq⟩ := exists_inside_of_append_eq parts fun targetMem =>
    apartBehind dist (List.mem_append_right _ mem) dist (mem_flatten_flatten targetMem distMem) rfl
  exact ⟨first, last, rfl, targets_eq⟩

namespace Pool

/-- The files of an agenda stand alike in two pools. -/
structure StandAlike (part : Agenda) (pool small : Pool) : Prop where
  phase : ∀ dist ∈ part.files, small.phase dist = pool.phase dist
  noted : ∀ dist ∈ part.files, dist ∈ small.noted ↔ dist ∈ pool.noted

namespace StandAlike

variable (alike : StandAlike part pool small)

include alike

theorem isOver_eq {target : List (List DistFile)} (mem : target ∈ part.targets) :
    small.isOver target = pool.isOver target := by
  rw [Bool.eq_iff_iff]
  simp only [isOver, List.all_eq_true, List.contains_iff_mem]
  exact forall₂_congr fun dist distMem => alike.noted dist (Agenda.mem_files_of_mem mem distMem)

theorem countP_isBusy {target : List (List DistFile)} (mem : target ∈ part.targets)
    {batch : List DistFile} (batchMem : batch ∈ target) :
    batch.countP small.isBusy = batch.countP pool.isBusy := by
  refine List.countP_congr fun dist distMem => ?_
  rw [isBusy, isBusy, alike.phase dist
    (Agenda.mem_files_of_mem mem (List.mem_flatten.2 ⟨batch, batchMem, distMem⟩))]

/-- A file whose turn it is among others has its turn among its own. -/
theorem mayStart (mem : dist ∈ part.files) (running : Passes part.stopOnError small.log)
    (may : MayStart (part.amid before behind) pool dist) : MayStart part small dist := by
  have inside {target : List (List DistFile)} (targetMem : target ∈ part.targets) :
      target ∈ (part.amid before behind).targets := by
    simp [Agenda.amid, targetMem]
  constructor
  · exact mem
  · exact (alike.phase dist mem).trans may.waiting
  · exact running
  · intro front target rest split distMem
    have few := may.targets (before ++ front) target (rest ++ behind)
      (by simp [Agenda.amid, split]) distMem
    rw [List.countP_append] at few
    have same : (front.countP fun other => !small.isOver other) =
        front.countP fun other => !pool.isOver other := by
      refine List.countP_congr fun other otherMem => ?_
      rw [alike.isOver_eq (by simp [split, otherMem])]
    rw [same]
    exact Nat.lt_of_le_of_lt (Nat.le_add_left _ _) few
  · intro target targetMem front batch rest split distMem other otherMem
    have isNoted := may.batches target (inside targetMem) front batch rest split distMem other
      otherMem
    refine (alike.noted other (Agenda.mem_files_of_mem targetMem ?_)).2 isNoted
    rw [split, List.flatten_append]
    exact List.mem_append_left _ otherMem
  · intro target targetMem batch batchMem front rest split
    obtain ⟨started, few⟩ := may.files target (inside targetMem) batch batchMem front rest split
    refine ⟨fun other otherMem => ?_, by rwa [alike.countP_isBusy targetMem batchMem]⟩
    rw [alike.phase other (Agenda.mem_files_of_mem targetMem
      (List.mem_flatten.2 ⟨batch, batchMem, by simp [split, otherMem]⟩))]
    exact started other otherMem

/-- A file whose turn it is among its own has its turn among others when those before are
done. -/
theorem mayStart_amid (nodup : (part.amid before behind).files.Nodup)
    (ended : ∀ other ∈ before.flatten.flatten, other ∈ pool.noted)
    (running : Passes part.stopOnError pool.log) (may : MayStart part small dist) :
    MayStart (part.amid before behind) pool dist := by
  have mem := may.known
  -- what holds the file is a target of the part
  have inside {target : List (List DistFile)}
      (targetMem : target ∈ (part.amid before behind).targets)
      (distMem : dist ∈ target.flatten) : target ∈ part.targets := by
    obtain ⟨front, rest, split⟩ := List.append_of_mem targetMem
    obtain ⟨first, last, _, parts⟩ := Agenda.exists_split_of_amid nodup mem split distMem
    simp [parts]
  constructor
  · rw [Agenda.files_amid]
    exact List.mem_append_left _ (List.mem_append_right _ mem)
  · exact (alike.phase dist mem).symm.trans may.waiting
  · exact running
  · intro front target rest split distMem
    obtain ⟨first, last, rfl, parts⟩ := Agenda.exists_split_of_amid nodup mem split distMem
    have none_left : (before.countP fun other => !pool.isOver other) = 0 := by
      rw [List.countP_eq_zero]
      intro other otherMem
      simp only [isOver, Bool.not_eq_true', Bool.not_eq_false, List.all_eq_true,
        List.contains_iff_mem]
      exact fun file fileMem => ended file (mem_flatten_flatten otherMem fileMem)
    have same : (first.countP fun other => !pool.isOver other) =
        first.countP fun other => !small.isOver other := by
      refine List.countP_congr fun other otherMem => ?_
      rw [alike.isOver_eq (by simp [parts, otherMem])]
    rw [List.countP_append, none_left, Nat.zero_add, same]
    exact may.targets first target last parts distMem
  · intro target targetMem front batch rest split distMem other otherMem
    have own := inside targetMem (by simp [split, distMem])
    have isNoted := may.batches target own front batch rest split distMem other otherMem
    refine (alike.noted other (Agenda.mem_files_of_mem own ?_)).1 isNoted
    rw [split, List.flatten_append]
    exact List.mem_append_left _ otherMem
  · intro target targetMem batch batchMem front rest split
    have own := inside targetMem (List.mem_flatten.2 ⟨batch, batchMem, by simp [split]⟩)
    obtain ⟨started, few⟩ := may.files target own batch batchMem front rest split
    refine ⟨fun other otherMem => ?_, by rwa [← alike.countP_isBusy own batchMem]⟩
    rw [← alike.phase other (Agenda.mem_files_of_mem own
      (List.mem_flatten.2 ⟨batch, batchMem, by simp [split, otherMem]⟩))]
    exact started other otherMem

end StandAlike

/-! ## What some files do is an execution of their own -/

/-- A pool that holds what some files do in another one. -/
structure Mirrors (setting : Setting) (base : Location) (part : Agenda) (pool small : Pool) :
    Prop where
  phase : ∀ dist ∈ part.files, small.phase dist = pool.phase dist
  log : small.log = pool.log.filter fun outcome => decide (outcome.1 ∈ part.files)
  own : ∀ dist ∈ part.files,
    small.disk.get? (placeOf base dist) = pool.disk.get? (placeOf base dist)
  beside : ∀ dist ∈ part.files,
    small.disk.get? (besideOf setting base dist) = pool.disk.get? (besideOf setting base dist)

namespace Mirrors

variable {next : Pool} (mirrors : Mirrors setting base part pool small)

include mirrors

theorem mem_log_iff {outcome : Outcome} :
    outcome ∈ small.log ↔ outcome ∈ pool.log ∧ outcome.1 ∈ part.files := by
  rw [mirrors.log, List.mem_filter, decide_eq_true_eq]

theorem standAlike : StandAlike part pool small := by
  refine ⟨mirrors.phase, fun dist mem => ?_⟩
  simp only [mem_noted_iff, mirrors.mem_log_iff, mem, and_true]

theorem passes {stopOnError : Bool} (passes : Passes stopOnError pool.log) :
    Passes stopOnError small.log :=
  fun stops outcome mem => passes stops outcome (mirrors.mem_log_iff.1 mem).1

/-- One of the files moves on in both pools. -/
theorem put {there otherThere : Phase × Disk}
    (alike : GoAlike pool.disk small.disk there otherThere) :
    Mirrors setting base part (pool.put dist there) (small.put dist otherThere) := by
  refine ⟨fun other otherMem => ?_, mirrors.log,
    fun other otherMem => alike.2 _ (mirrors.own other otherMem),
    fun other otherMem => alike.2 _ (mirrors.beside other otherMem)⟩
  by_cases same : other = dist
  · rw [same, put_phase_self, put_phase_self, alike.1]
  · rw [small.put_phase_of_ne _ same, pool.put_phase_of_ne _ same]
    exact mirrors.phase other otherMem

/-- A stranger moves on, and the files see nothing of it. -/
theorem put_stranger (foreign : dist ∉ part.files) {there : Phase × Disk}
    (own : ∀ other ∈ part.files,
      there.2.get? (placeOf base other) = pool.disk.get? (placeOf base other))
    (beside : ∀ other ∈ part.files,
      there.2.get? (besideOf setting base other) = pool.disk.get? (besideOf setting base other)) :
    Mirrors setting base part (pool.put dist there) small := by
  refine ⟨fun other otherMem => ?_, mirrors.log,
    fun other otherMem => (mirrors.own other otherMem).trans (own other otherMem).symm,
    fun other otherMem => (mirrors.beside other otherMem).trans (beside other otherMem).symm⟩
  have differs : other ≠ dist := by
    rintro rfl
    exact foreign otherMem
  rw [pool.put_phase_of_ne _ differs]
  exact mirrors.phase other otherMem

theorem note (result : Except DiskError FileResult) :
    Mirrors setting base part (pool.note (dist, result))
      (if dist ∈ part.files then small.note (dist, result) else small) := by
  by_cases mem : dist ∈ part.files
  · rw [if_pos mem]
    refine ⟨mirrors.phase, ?_, mirrors.own, mirrors.beside⟩
    simp [Pool.note, mirrors.log, mem]
  · rw [if_neg mem]
    refine ⟨mirrors.phase, ?_, mirrors.own, mirrors.beside⟩
    simp [Pool.note, mirrors.log, mem]

end Mirrors

section

variable (ground : IsGround setting disk base (part.amid before behind).files)
  (otherGround : IsGround setting other base part.files)
  (alike : SeeAlike setting base part.files disk other)
  (strangers : AreStrangers setting.writer part.files
    (before.flatten.flatten ++ behind.flatten.flatten))

include ground otherGround alike strangers

/-- One step among others is a step of the file itself, or one that it does not see. -/
theorem Mirrors.step {next : Pool}
    (sound : Sound setting disk base (part.amid before behind).files False pool.disk pool.phase)
    (otherSound : Sound setting other base part.files False small.disk small.phase)
    (mirrors : Mirrors setting base part pool small)
    (step : Step (part.amid before behind) setting pool next) :
    ∃ after, ReflTransGen (Step part setting) small after ∧
      Mirrors setting base part next after := by
  have stranger_of {dist : DistFile} (known : dist ∈ (part.amid before behind).files)
      (foreign : dist ∉ part.files) :
      dist ∈ before.flatten.flatten ++ behind.flatten.flatten := by
    rw [Agenda.files_amid, List.mem_append, List.mem_append] at known
    rcases known with (inBefore | inPart) | inBehind
    · exact List.mem_append_left _ inBefore
    · exact absurd inPart foreign
    · exact List.mem_append_right _ inBehind
  have known_of {dist : DistFile} (mem : dist ∈ part.files) :
      dist ∈ (part.amid before behind).files := by
    rw [Agenda.files_amid]
    exact List.mem_append_left _ (List.mem_append_right _ mem)
  cases step with
  | @start dist may =>
      by_cases mem : dist ∈ part.files
      · have mayThen := mirrors.standAlike.mayStart mem (mirrors.passes may.running) may
        exact ⟨_, .single (.start mayThen), mirrors.put (goAlike_refl _)⟩
      · exact ⟨small, .refl, mirrors.put_stranger mem (fun _ _ => rfl) fun _ _ => rfl⟩
  | @work dist phase come busy =>
      by_cases mem : dist ∈ part.files
      · have seeAlike : SeeAlike setting base part.files small.disk pool.disk :=
          ⟨(otherSound.sameDirectories otherGround.toIsScene).symm.trans
              (alike.directories.symm.trans (sound.sameDirectories ground.toIsScene)),
            fun place => by
              rw [(otherSound.sameSources otherGround place).held, alike.sources place,
                (sound.sameSources ground place).held],
            fun file fileMem => (mirrors.own file fileMem).symm,
            fun file fileMem => (mirrors.beside file fileMem).symm⟩
        have otherCome := (mirrors.phase dist mem).trans come
        have goAlike := otherSound.advance_congr otherGround (sound.isProject ground.toIsScene)
          seeAlike otherCome busy
        exact ⟨_, .single (.work otherCome busy), mirrors.put goAlike.symm⟩
      · have known := sound.known dist (by simp [come])
        have moment := sound.advance ground False.elim come busy
        refine ⟨small, .refl, mirrors.put_stranger mem (fun other otherMem => ?_)
          fun other otherMem => ?_⟩
        · obtain ⟨differ, besideDist, _⟩ := strangers other otherMem dist (stranger_of known mem)
          refine moment.frame _ (fun same => ?_) fun same => ?_
          · exact differ (List.append_cancel_left same)
          · exact besideDist (List.append_cancel_left same)
        · obtain ⟨_, _, besideOther⟩ := strangers other otherMem dist (stranger_of known mem)
          refine moment.frame _ (fun same => ?_) ?_
          · exact besideOther (List.append_cancel_left same).symm
          · exact ground.besideOf_ne known (known_of otherMem) fun same => mem (same ▸ otherMem)
  | @note dist result come unnoted =>
      refine ⟨_, ?_, mirrors.note result⟩
      by_cases mem : dist ∈ part.files
      · rw [if_pos mem]
        refine .single (.note ((mirrors.phase dist mem).trans come) ?_)
        rwa [mirrors.standAlike.noted dist mem]
      · rw [if_neg mem]

/-- What files do among strangers they can do by themselves, where they see the same. -/
theorem exists_mirrors
    (steps : ReflTransGen (Step (part.amid before behind) setting) { disk := disk } pool) :
    ∃ small, ReflTransGen (Step part setting) { disk := other } small ∧
      Mirrors setting base part pool small := by
  induction steps with
  | refl => exact ⟨{ disk := other }, .refl, fun _ _ => rfl, rfl, alike.own, alike.beside⟩
  | tail steps step ih =>
      obtain ⟨small, smallSteps, mirrors⟩ := ih
      have sound : Sound setting disk base (part.amid before behind).files False _ _ :=
        isSound_of_steps ground False.elim steps
      have otherSound : Sound setting other base part.files False _ _ :=
        isSound_of_steps otherGround False.elim smallSteps
      obtain ⟨after, more, mirrorsThen⟩ :=
        mirrors.step ground otherGround alike strangers sound otherSound step
      exact ⟨after, smallSteps.trans more, mirrorsThen⟩

/-- What files do in an execution that nothing stops is an execution of their own. -/
theorem Executes.restrict (executes : Executes (part.amid before behind) setting disk pool)
    (passes : Passes part.stopOnError pool.log) :
    ∃ small, Executes part setting other small ∧ Mirrors setting base part pool small := by
  rcases executes with ⟨steps, finished⟩
  obtain ⟨small, smallSteps, mirrors⟩ :=
    exists_mirrors ground otherGround alike strangers steps
  have orderly := orderly_of_steps (orderly_start part other) smallSteps
  refine ⟨small, ⟨smallSteps, fun dist started => ?_, fun _ dist mem => ?_⟩, mirrors⟩
  · have mem := orderly.known dist started
    rw [mirrors.phase dist mem] at started
    exact (mirrors.standAlike.noted dist mem).2 (finished.drained dist started)
  · refine (mirrors.standAlike.noted dist mem).2 (finished.complete passes dist ?_)
    rw [Agenda.files_amid]
    exact List.mem_append_left _ (List.mem_append_right _ mem)

end

/-- An execution of two agendas that are strangers is one of the first and then one of the
second. -/
theorem Executes.exists_parts {first second whole : Agenda}
    {beforeFirst behindFirst beforeSecond behindSecond : List (List (List DistFile))}
    (amidSecond : whole = first.amid beforeFirst behindFirst)
    (second_eq : beforeFirst.flatten.flatten ++ behindFirst.flatten.flatten = second.files)
    (amidFirst : whole = second.amid beforeSecond behindSecond)
    (first_eq : beforeSecond.flatten.flatten ++ behindSecond.flatten.flatten = first.files)
    (ground : IsGround setting disk base (first.files ++ second.files))
    (perm : whole.files.Perm (first.files ++ second.files))
    (strangers : AreStrangers setting.writer first.files second.files)
    (executes : Executes whole setting disk pool) (passes : Passes whole.stopOnError pool.log) :
    ∃ small later, Executes first setting disk small ∧ Executes second setting small.disk later ∧
      Passes whole.stopOnError small.log ∧ Passes whole.stopOnError later.log ∧
        pool.log.Perm (small.log ++ later.log) ∧ later.disk = pool.disk := by
  have wholeGround := ground.perm perm.symm
  have rests : Rests whole setting disk base False pool := executes.rests wholeGround False.elim
  obtain ⟨small, smallExecutes, mirrors⟩ : ∃ small, Executes first setting disk small ∧
      Mirrors setting base first pool small := by
    subst amidSecond
    refine executes.restrict wholeGround ground.front (.refl _) ?_ passes
    rwa [second_eq]
  have smallRests : Rests first setting disk base False small :=
    smallExecutes.rests ground.front False.elim
  have alike : SeeAlike setting base second.files disk small.disk :=
    strangers.seeAlike ground.isSourceDirectory ground.front.apart.areDist
      (smallRests.rewrites ground.front).sameDirectories smallRests.elsewhere
  have groundThen : IsGround setting small.disk base second.files := smallRests.onwards ground
  obtain ⟨later, laterExecutes, laterMirrors⟩ : ∃ later,
      Executes second setting small.disk later ∧ Mirrors setting base second pool later := by
    subst amidFirst
    refine executes.restrict wholeGround groundThen alike ?_ passes
    rw [first_eq]
    exact strangers.symm
  have laterRests : Rests second setting small.disk base False later :=
    laterExecutes.rests groundThen False.elim
  refine ⟨small, later, smallExecutes, laterExecutes, mirrors.passes passes,
    laterMirrors.passes passes, ?_, ?_⟩
  · have others : pool.log.filter (fun outcome => decide (outcome.1 ∈ second.files)) =
        pool.log.filter fun outcome => !decide (outcome.1 ∈ first.files) := by
      refine List.filter_congr fun outcome mem => ?_
      have known := perm.mem_iff.1 (rests.known outcome mem)
      by_cases inFirst : outcome.1 ∈ first.files
      · have notSecond : outcome.1 ∉ second.files := fun inSecond =>
          (strangers _ inFirst _ inSecond).1 rfl
        simp [inFirst, notSecond]
      · simp [inFirst, (List.mem_append.1 known).resolve_left inFirst]
    rw [mirrors.log, laterMirrors.log, others]
    exact (List.filter_append_perm _ _).symm
  · refine Disk.eq_of_get? (laterRests.top.trans (smallRests.top.trans rests.top.symm)) ?_
    intro location
    by_cases inSecond : ∃ dist ∈ second.files, location = placeOf base dist
    · rcases inSecond with ⟨dist, mem, rfl⟩
      exact laterMirrors.own dist mem
    · rw [laterRests.elsewhere location fun dist mem here => inSecond ⟨dist, mem, here⟩]
      by_cases inFirst : ∃ dist ∈ first.files, location = placeOf base dist
      · rcases inFirst with ⟨dist, mem, rfl⟩
        exact mirrors.own dist mem
      · rw [smallRests.elsewhere location fun dist mem here => inFirst ⟨dist, mem, here⟩,
          rests.elsewhere location fun dist mem here => ?_]
        rcases List.mem_append.1 (perm.mem_iff.1 mem) with inFiles | inFiles
        · exact inFirst ⟨dist, inFiles, here⟩
        · exact inSecond ⟨dist, inFiles, here⟩

/-! ## One execution after the other -/

/-- The pool of files that were started when others were done. -/
def onto (small pool : Pool) : Pool where
  disk := small.disk
  phase := fun dist => (small.phase dist).or (pool.phase dist)
  log := pool.log ++ small.log

theorem onto_start (pool : Pool) : ({ disk := pool.disk } : Pool).onto pool = pool := by
  simp [onto]

theorem onto_noted (small pool : Pool) : (small.onto pool).noted = pool.noted ++ small.noted := by
  simp [onto, noted]

theorem onto_put (small pool : Pool) (dist : DistFile) (there : Phase × Disk) :
    (small.put dist there).onto pool = (small.onto pool).put dist there := by
  simp only [onto, put, Pool.mk.injEq, true_and, and_true]
  funext other
  by_cases same : other = dist
  · simp [same]
  · simp [same]

theorem onto_note (small pool : Pool) (outcome : Outcome) :
    (small.note outcome).onto pool = (small.onto pool).note outcome := by
  simp [onto, note]

/-- Files take the same steps when others are to come. -/
theorem steps_amid_nil (nodup : (part.amid [] behind).files.Nodup)
    (steps : ReflTransGen (Step part setting) { disk := disk } pool) :
    ReflTransGen (Step (part.amid [] behind) setting) { disk := disk } pool := by
  induction steps with
  | refl => exact .refl
  | tail _ step ih =>
      refine ih.tail ?_
      cases step with
      | start may =>
          exact .start ((StandAlike.mk (fun _ _ => rfl) fun _ _ => Iff.rfl).mayStart_amid nodup
            (by simp) may.running may)
      | work come busy => exact .work come busy
      | note come unnoted => exact .note come unnoted

/-- Files take the same steps when others are done. -/
theorem steps_onto (nodup : (part.amid before []).files.Nodup)
    (waiting : ∀ dist ∈ part.files, pool.phase dist = none ∧ dist ∉ pool.noted)
    (ended : ∀ dist ∈ before.flatten.flatten, dist ∈ pool.noted)
    (passes : Passes part.stopOnError pool.log)
    (steps : ReflTransGen (Step part setting) { disk := pool.disk } small) :
    ReflTransGen (Step (part.amid before []) setting) pool (small.onto pool) := by
  induction steps with
  | refl =>
      rw [onto_start]
  | @tail small next steps step ih =>
      refine ih.tail ?_
      have orderly := orderly_of_steps (orderly_start part pool.disk) steps
      have alike : StandAlike part (small.onto pool) small := by
        refine ⟨fun dist mem => ?_, fun dist mem => ?_⟩
        · simp [onto, (waiting dist mem).1]
        · simp [onto_noted, (waiting dist mem).2]
      cases step with
      | @start dist may =>
          rw [onto_put]
          exact .start (alike.mayStart_amid nodup
            (fun other mem => by simp [onto_noted, ended other mem])
            (passes_append.2 ⟨passes, may.running⟩) may)
      | @work dist phase come busy =>
          rw [onto_put]
          exact .work (by simp [onto, come]) busy
      | @note dist result come unnoted =>
          rw [onto_note]
          have mem := orderly.known dist (by simp [come])
          exact .note (by simp [onto, come]) (by simp [onto_noted, unnoted, (waiting dist mem).2])

/-- An execution of some files and then one of others is an execution of all of them. -/
theorem Executes.join {first : Agenda}
    (whole : part.amid first.targets [] = first.amid [] part.targets)
    (nodup : (part.amid first.targets []).files.Nodup)
    (executes : Executes first setting disk pool) (passes : Passes first.stopOnError pool.log)
    (more : Executes part setting pool.disk small) :
    Executes (part.amid first.targets []) setting disk (small.onto pool) := by
  rcases executes with ⟨steps, finished⟩
  rcases more with ⟨moreSteps, moreFinished⟩
  have orderly := orderly_of_steps (orderly_start first disk) steps
  have stops : part.stopOnError = first.stopOnError := by
    have same := congrArg Agenda.stopOnError whole
    exact same
  have apart := nodup
  rw [Agenda.files_amid, List.flatten_nil, List.flatten_nil, List.append_nil,
    List.nodup_append] at apart
  have waiting (dist : DistFile) (mem : dist ∈ part.files) :
      pool.phase dist = none ∧ dist ∉ pool.noted := by
    have foreign : dist ∉ first.files := fun firstMem => apart.2.2 dist firstMem dist mem rfl
    refine ⟨?_, fun isNoted => ?_⟩
    · by_contra started
      exact foreign (orderly.known dist started)
    · obtain ⟨_, _, come⟩ := orderly.started_of_mem_noted isNoted
      exact foreign (orderly.known dist (by simp [come]))
  refine ⟨?_, fun dist started => ?_, fun passesAll dist mem => ?_⟩
  · have stepsFirst := steps_amid_nil (whole ▸ nodup) steps
    rw [← whole] at stepsFirst
    exact stepsFirst.trans
      (steps_onto nodup waiting (finished.complete passes) (stops ▸ passes) moreSteps)
  · rw [onto_noted, List.mem_append]
    cases come : small.phase dist with
    | some phase => exact .inr (moreFinished.drained dist (by simp [come]))
    | none =>
        refine .inl (finished.drained dist ?_)
        simpa [onto, come] using started
  · rw [onto_noted, List.mem_append]
    rw [Agenda.files_amid, List.flatten_nil, List.flatten_nil, List.append_nil,
      List.mem_append] at mem
    exact mem.imp (finished.complete passes dist)
      (moreFinished.complete (passes_append.1 passesAll).2 dist)

end Pool

end DistDirectives.Run
