import Mathlib.Algebra.Order.BigOperators.Group.List
import Mathlib.Algebra.GroupWithZero.Nat
import Mathlib.Algebra.Order.Group.Nat
import Mathlib.Data.List.Induction
import Mathlib.Data.List.Nodup
import Mathlib.Logic.Function.Basic
import DistDirectives.Proofs.Run.Execution
import DistDirectives.Proofs.Run.Phases

/-!
# Files in flight

The files of several targets are processed beside each other: some targets at a time, of
each target one batch after the other, and of a batch some files at a time. Which file takes
its next step is open, and so is when the result of a file that is done is taken note of.
Nothing that was started is given up. Once the result of a failed file is noted and failures
stop the run, no further file is started, in any target.

`Pool.Step` is one step of this kind. It never gets stuck before everything is done
(`exists_step`), and one file after the other is one way to go (`exists_executes`).
-/

namespace DistDirectives.Run

open Relation (ReflTransGen)

/-- The batches of targets, and how many files and targets may be in flight. -/
structure Agenda where
  targets : List (List (List DistFile))
  concurrency : Nat
  targetsConcurrency : Nat
  stopOnError : Bool

namespace Agenda

/-- The files of an agenda, batch by batch. -/
def files (agenda : Agenda) : List DistFile := agenda.targets.flatten.flatten

/-- Files of which the second one waits for the first one. -/
inductive Precedes (agenda : Agenda) : DistFile → DistFile → Prop
  | batch {target front rest : List (List DistFile)} {batch : List DistFile}
      {first later : DistFile}
      (targetMem : target ∈ agenda.targets) (split : target = front ++ batch :: rest)
      (firstMem : first ∈ front.flatten) (laterMem : later ∈ batch) : Precedes agenda first later
  | target {front rest : List (List (List DistFile))} {target : List (List DistFile)}
      {first later : DistFile} (single : agenda.targetsConcurrency ≤ 1)
      (split : agenda.targets = front ++ target :: rest) (firstMem : first ∈ front.flatten.flatten)
      (laterMem : later ∈ target.flatten) : Precedes agenda first later

end Agenda

/-- Where the files of an agenda stand. -/
structure Pool where
  disk : Disk
  /-- How far a file has come, if it was started. -/
  phase : DistFile → Option Phase := fun _ => none
  /-- The results that were noted, in their order. -/
  log : List Outcome := []

namespace Pool

variable {agenda : Agenda} {setting : Setting} {pool next : Pool} {dist other : DistFile}

/-- The pool with a file in another phase, and with another disk. -/
def put (pool : Pool) (dist : DistFile) (there : Phase × Disk) : Pool :=
  { pool with disk := there.2, phase := Function.update pool.phase dist (some there.1) }

/-- The pool with a result noted. -/
def note (pool : Pool) (outcome : Outcome) : Pool := { pool with log := pool.log ++ [outcome] }

/-- The files whose results were noted. -/
def noted (pool : Pool) : List DistFile := pool.log.map Prod.fst

/-- Whether a file is in flight. -/
def isBusy (pool : Pool) (dist : DistFile) : Bool :=
  match pool.phase dist with
  | none => false
  | some phase => !phase.isDone

/-- Whether the results of all files of a target were noted. -/
def isOver (pool : Pool) (target : List (List DistFile)) : Bool :=
  target.flatten.all pool.noted.contains

@[simp]
theorem put_phase_self (pool : Pool) (dist : DistFile) (there : Phase × Disk) :
    (pool.put dist there).phase dist = some there.1 := by simp [put]

theorem put_phase_of_ne (pool : Pool) (there : Phase × Disk) (differs : other ≠ dist) :
    (pool.put dist there).phase other = pool.phase other := by simp [put, differs]

@[simp]
theorem put_noted (pool : Pool) (dist : DistFile) (there : Phase × Disk) :
    (pool.put dist there).noted = pool.noted := rfl

@[simp]
theorem put_put (pool : Pool) (dist : DistFile) (here there : Phase × Disk) :
    (pool.put dist here).put dist there = pool.put dist there := by simp [put]

@[simp]
theorem note_noted (pool : Pool) (outcome : Outcome) :
    (pool.note outcome).noted = pool.noted ++ [outcome.1] := by simp [note, noted]

theorem mem_noted_iff : dist ∈ pool.noted ↔ ∃ result, (dist, result) ∈ pool.log := by
  simp [noted]

/-! ## Steps -/

/-- A file whose turn it is: the files before it in its batch were started, those of the
batches before were noted, and neither too many files of its batch nor too many of the
targets before are in flight. -/
structure MayStart (agenda : Agenda) (pool : Pool) (dist : DistFile) : Prop where
  known : dist ∈ agenda.files
  waiting : pool.phase dist = none
  running : Passes agenda.stopOnError pool.log
  targets : ∀ front target rest, agenda.targets = front ++ target :: rest → dist ∈ target.flatten →
    (front.countP fun other => !pool.isOver other) < agenda.targetsConcurrency
  batches : ∀ target ∈ agenda.targets, ∀ front batch rest, target = front ++ batch :: rest →
    dist ∈ batch → ∀ other ∈ front.flatten, other ∈ pool.noted
  files : ∀ target ∈ agenda.targets, ∀ batch ∈ target, ∀ front rest, batch = front ++ dist :: rest →
    (∀ other ∈ front, pool.phase other ≠ none) ∧ batch.countP pool.isBusy < agenda.concurrency

/-- One step of one file. -/
inductive Step (agenda : Agenda) (setting : Setting) : Pool → Pool → Prop
  | start {pool : Pool} {dist : DistFile} (may : MayStart agenda pool dist) :
      Step agenda setting pool (pool.put dist (.begun, pool.disk))
  | work {pool : Pool} {dist : DistFile} {phase : Phase} (come : pool.phase dist = some phase)
      (busy : phase.isDone = false) :
      Step agenda setting pool (pool.put dist (advance setting dist pool.disk phase))
  | note {pool : Pool} {dist : DistFile} {result : Except DiskError FileResult}
      (come : pool.phase dist = some (.done result)) (unnoted : dist ∉ pool.noted) :
      Step agenda setting pool (pool.note (dist, result))

/-- Nothing is in flight, and nothing is left to be started. -/
structure Finished (agenda : Agenda) (pool : Pool) : Prop where
  drained : ∀ dist, pool.phase dist ≠ none → dist ∈ pool.noted
  complete : Passes agenda.stopOnError pool.log → ∀ dist ∈ agenda.files, dist ∈ pool.noted

/-- A pool to which the files of an agenda can lead, from a disk on which none was started. -/
def Executes (agenda : Agenda) (setting : Setting) (disk : Disk) (pool : Pool) : Prop :=
  ReflTransGen (Step agenda setting) { disk := disk } pool ∧ Finished agenda pool

/-! ## Results and their order -/

/-- What is noted are the results of files of the agenda, each of them once. When failures
stop the run, a file is started only after those before it were processed. -/
structure Orderly (agenda : Agenda) (pool : Pool) : Prop where
  known : ∀ dist, pool.phase dist ≠ none → dist ∈ agenda.files
  logged : ∀ outcome ∈ pool.log, pool.phase outcome.1 = some (.done outcome.2)
  once : pool.noted.Nodup
  ordered : agenda.stopOnError = true → ∀ dist, pool.phase dist ≠ none → ∀ first,
    agenda.Precedes first dist → ∃ result, (first, Except.ok result) ∈ pool.log

theorem orderly_start (agenda : Agenda) (disk : Disk) : Orderly agenda { disk := disk } :=
  ⟨fun _ started => absurd rfl started, by simp, by
    simp [noted], fun _ _ started => absurd rfl started⟩

theorem Orderly.started_of_mem_noted (orderly : Orderly agenda pool) (mem : dist ∈ pool.noted) :
    ∃ result, (dist, result) ∈ pool.log ∧ pool.phase dist = some (.done result) := by
  obtain ⟨result, logMem⟩ := mem_noted_iff.1 mem
  exact ⟨result, logMem, orderly.logged _ logMem⟩

/-- A file that is in flight, or was not started, has no result yet. -/
theorem Orderly.not_mem_noted (orderly : Orderly agenda pool)
    (unfinished : ∀ result, pool.phase dist ≠ some (.done result)) : dist ∉ pool.noted := by
  intro mem
  obtain ⟨result, _, come⟩ := orderly.started_of_mem_noted mem
  exact unfinished result come

/-- What precedes a file whose turn it is was processed. -/
theorem MayStart.exists_result (may : MayStart agenda pool dist) (stops : agenda.stopOnError = true)
    {first : DistFile} (precedes : agenda.Precedes first dist) :
    ∃ result, (first, Except.ok result) ∈ pool.log := by
  have isNoted : first ∈ pool.noted := by
    cases precedes with
    | batch targetMem split firstMem laterMem =>
        exact may.batches _ targetMem _ _ _ split laterMem first firstMem
    | @target front rest target _ _ single split firstMem laterMem =>
        have none_left : (front.countP fun other => !pool.isOver other) = 0 := by
          have few := may.targets front target rest split laterMem
          omega
        rcases List.mem_flatten.1 firstMem with ⟨batch, batchMem, firstMem⟩
        rcases List.mem_flatten.1 batchMem with ⟨earlier, earlierMem, batchMem⟩
        have allOver := List.countP_eq_zero.1 none_left earlier earlierMem
        simp only [isOver, Bool.not_eq_true', Bool.not_eq_false, List.all_eq_true,
          List.contains_iff_mem] at allOver
        exact allOver first (List.mem_flatten.2 ⟨batch, batchMem, firstMem⟩)
  obtain ⟨result, logMem⟩ := mem_noted_iff.1 isNoted
  rcases may.running stops _ logMem with ⟨value, rfl⟩
  exact ⟨value, logMem⟩

/-- Moving a file to another phase keeps the order. -/
theorem Orderly.put (orderly : Orderly agenda pool) (known : dist ∈ agenda.files)
    (unfinished : ∀ result, pool.phase dist ≠ some (.done result))
    (preceded : agenda.stopOnError = true → ∀ first, agenda.Precedes first dist →
      ∃ result, (first, Except.ok result) ∈ pool.log) (there : Phase × Disk) :
    Orderly agenda (pool.put dist there) := by
  have started (other : DistFile) (isStarted : (pool.put dist there).phase other ≠ none) :
      other = dist ∨ pool.phase other ≠ none := by
    by_cases same : other = dist
    · exact .inl same
    · exact .inr (pool.put_phase_of_ne there same ▸ isStarted)
  constructor
  · intro other isStarted
    rcases started other isStarted with rfl | before
    · exact known
    · exact orderly.known other before
  · intro outcome mem
    have differs : outcome.1 ≠ dist := by
      intro same
      exact orderly.not_mem_noted unfinished (same ▸ mem_noted_iff.2 ⟨outcome.2, mem⟩)
    rw [pool.put_phase_of_ne there differs]
    exact orderly.logged outcome mem
  · exact orderly.once
  · intro stops other isStarted first precedes
    rcases started other isStarted with rfl | before
    · exact preceded stops first precedes
    · exact orderly.ordered stops other before first precedes

theorem Orderly.step (orderly : Orderly agenda pool) (step : Step agenda setting pool next) :
    Orderly agenda next := by
  cases step with
  | start may =>
      exact orderly.put may.known (by simp [may.waiting]) (fun stops _ => may.exists_result stops) _
  | @work dist _ come busy =>
      have isStarted : pool.phase dist ≠ none := by simp [come]
      refine orderly.put (orderly.known dist isStarted) ?_
        (fun stops first precedes => orderly.ordered stops dist isStarted first precedes) _
      intro result done
      rw [come, Option.some.injEq] at done
      rw [done] at busy
      contradiction
  | @note dist result come unnoted =>
      constructor
      · exact orderly.known
      · intro outcome mem
        rcases List.mem_append.1 mem with before | last
        · exact orderly.logged outcome before
        · rw [List.mem_singleton.1 last]
          exact come
      · rw [note_noted, List.nodup_append]
        refine ⟨orderly.once, by simp, ?_⟩
        intro other mem last lastMem same
        rw [same, List.mem_singleton.1 lastMem] at mem
        exact unnoted mem
      · intro stops other isStarted first precedes
        obtain ⟨value, mem⟩ := orderly.ordered stops other isStarted first precedes
        exact ⟨value, List.mem_append_left _ mem⟩

theorem orderly_of_steps (orderly : Orderly agenda pool)
    (steps : ReflTransGen (Step agenda setting) pool next) : Orderly agenda next := by
  induction steps with
  | refl => exact orderly
  | tail _ step ih => exact ih.step step

/-! ## There is always a step to take -/

/-- What comes before a part of a list that holds an element comes before the element. -/
theorem mem_of_append_eq {α : Type} {front rest before behind : List α} {item other : α}
    (nodup : (front ++ item :: rest).Nodup) (split : front ++ item :: rest = before ++ behind)
    (itemMem : item ∈ behind) (otherMem : other ∈ before) : other ∈ front := by
  rcases List.append_eq_append_iff.1 split with ⟨middle, rfl, rest_eq⟩ | ⟨middle, rfl, _⟩
  · cases middle with
    | nil => simpa using otherMem
    | cons first middle =>
        rw [List.cons_append, List.cons.injEq] at rest_eq
        rw [split, List.nodup_append] at nodup
        exact absurd rfl (nodup.2.2 item (by simp [← rest_eq.1]) item itemMem)
  · exact List.mem_append_left _ otherMem

/-- The next file in the order of the agenda may be started when nothing is in flight. -/
theorem mayStart_of_next (nodup : agenda.files.Nodup) (filesPositive : 0 < agenda.concurrency)
    (targetsPositive : 0 < agenda.targetsConcurrency) (orderly : Orderly agenda pool)
    (drained : ∀ other, pool.phase other ≠ none → other ∈ pool.noted)
    (running : Passes agenda.stopOnError pool.log) {front rest : List DistFile}
    (split : agenda.files = front ++ dist :: rest)
    (frontNoted : ∀ other ∈ front, other ∈ pool.noted)
    (waiting : pool.phase dist = none) : MayStart agenda pool dist := by
  have noted_of_split {before behind : List DistFile} (parts : agenda.files = before ++ behind)
      (behindMem : dist ∈ behind) : ∀ other ∈ before, other ∈ pool.noted := by
    intro other otherMem
    exact frontNoted other (mem_of_append_eq (split ▸ nodup) (split ▸ parts) behindMem otherMem)
  have idle (batch : List DistFile) : batch.countP pool.isBusy = 0 := by
    rw [List.countP_eq_zero]
    intro other _ busy
    rw [isBusy] at busy
    cases come : pool.phase other with
    | none => simp [come] at busy
    | some phase =>
        obtain ⟨result, _, done⟩ := orderly.started_of_mem_noted (drained other (by simp [come]))
        rw [come, Option.some.injEq] at done
        simp [come, done, Phase.isDone] at busy
  constructor
  · simp [split]
  · exact waiting
  · exact running
  · intro earlier target later parts mem
    have noneLeft : (earlier.countP fun other => !pool.isOver other) = 0 := by
      rw [List.countP_eq_zero]
      intro other otherMem
      have allNoted :=
        @noted_of_split earlier.flatten.flatten (target.flatten ++ later.flatten.flatten)
        (by simp [Agenda.files, parts]) (by simp [mem])
      simp only [isOver, Bool.not_eq_true', Bool.not_eq_false, List.all_eq_true,
        List.contains_iff_mem]
      intro file fileMem
      rcases List.mem_flatten.1 fileMem with ⟨batch, batchMem, fileMem⟩
      exact allNoted file
        (List.mem_flatten.2 ⟨batch, List.mem_flatten.2 ⟨other, otherMem, batchMem⟩, fileMem⟩)
    omega
  · intro target targetMem earlier batch later parts mem
    obtain ⟨targetsBefore, targetsBehind, around⟩ := List.append_of_mem targetMem
    have allNoted := @noted_of_split (targetsBefore.flatten.flatten ++ earlier.flatten)
      (batch ++ (later.flatten ++ targetsBehind.flatten.flatten))
        (by simp [Agenda.files, around, parts])
      (by simp [mem])
    exact fun other otherMem => allNoted other (List.mem_append_right _ otherMem)
  · intro target targetMem batch batchMem earlier later parts
    obtain ⟨targetsBefore, targetsBehind, around⟩ := List.append_of_mem targetMem
    obtain ⟨batchesBefore, batchesBehind, within⟩ := List.append_of_mem batchMem
    refine ⟨fun other otherMem => ?_, by rw [idle]; exact filesPositive⟩
    have isNoted := @noted_of_split
      (targetsBefore.flatten.flatten ++ (batchesBefore.flatten ++ earlier))
      (dist :: later ++ (batchesBehind.flatten ++ targetsBehind.flatten.flatten))
      (by simp [Agenda.files, around, within, parts]) (by simp) other (by simp [otherMem])
    obtain ⟨result, _, come⟩ := orderly.started_of_mem_noted isNoted
    simp [come]

/-- Files in flight do not block each other: as long as something is left to do, there is a
step to take. -/
theorem exists_step (nodup : agenda.files.Nodup) (filesPositive : 0 < agenda.concurrency)
    (targetsPositive : 0 < agenda.targetsConcurrency) (orderly : Orderly agenda pool) :
    Finished agenda pool ∨ ∃ next, Step agenda setting pool next := by
  by_cases drained : ∀ dist, pool.phase dist ≠ none → dist ∈ pool.noted
  · by_cases complete : Passes agenda.stopOnError pool.log →
      ∀ dist ∈ agenda.files, dist ∈ pool.noted
    · exact .inl ⟨drained, complete⟩
    simp only [Classical.not_imp, not_forall] at complete
    rcases complete with ⟨running, dist, mem, unnoted⟩
    -- the first file without a result is the next one to be started
    have search : (agenda.files.find? fun other => !pool.noted.contains other).isSome := by
      rw [List.find?_isSome]
      exact ⟨dist, mem, by simpa using unnoted⟩
    obtain ⟨first, found⟩ := Option.isSome_iff_exists.1 search
    obtain ⟨firstUnnoted, front, rest, split, frontNoted⟩ := List.find?_eq_some_iff_append.1 found
    have waiting : pool.phase first = none := by
      by_contra started
      simp [drained first started] at firstUnnoted
    exact .inr ⟨_,
      .start (mayStart_of_next nodup filesPositive targetsPositive orderly drained running
      split (fun other otherMem => by simpa using frontNoted other otherMem) waiting)⟩
  · simp only [not_forall] at drained
    rcases drained with ⟨dist, started, unnoted⟩
    obtain ⟨phase, come⟩ := Option.ne_none_iff_exists'.1 started
    cases phase with
    | done result => exact .inr ⟨_, .note come unnoted⟩
    | begun => exact .inr ⟨_, .work come rfl⟩
    | searching current candidates => exact .inr ⟨_, .work come rfl⟩
    | fetching current source => exact .inr ⟨_, .work come rfl⟩
    | decided decision warnings => exact .inr ⟨_, .work come rfl⟩
    | moving temporary file warnings => exact .inr ⟨_, .work come rfl⟩

/-! ## Steps come to an end -/

/-- How many moments a file has before it, at most. -/
def momentsLeft (setting : Setting) (dist : DistFile) : Option Phase → Nat
  | none => (Mapping.reverse dist.path setting.sourceDir).length + 7
  | some .begun => (Mapping.reverse dist.path setting.sourceDir).length + 6
  | some (.searching _ candidates) => candidates.length + 5
  | some (.fetching _ _) => 4
  | some (.decided _ _) => 3
  | some (.moving _ _ _) => 2
  | some (.done _) => 1

theorem momentsLeft_advance_lt (setting : Setting) (dist : DistFile) (disk : Disk) {phase : Phase}
    (busy : phase.isDone = false) :
    momentsLeft setting dist (some (advance setting dist disk phase).1) <
      momentsLeft setting dist (some phase) := by
  cases phase with
  | done result => contradiction
  | begun =>
      simp only [advance]
      split
      · simp [momentsLeft]
      · split <;> simp [momentsLeft, Phase.judged]
  | searching current candidates =>
      cases candidates with
      | nil => simp [advance, momentsLeft, Phase.judged]
      | cons candidate others =>
          simp only [advance]
          split <;> simp [momentsLeft]
  | fetching current source =>
      simp only [advance]
      split <;> simp [momentsLeft, Phase.judged]
  | decided decision warnings =>
      cases dry : setting.dryRun with
      | true => simp [advance, dry, momentsLeft]
      | false =>
          cases decision with
          | keep => simp [advance, dry, momentsLeft]
          | refuse error => simp [advance, dry, momentsLeft]
          | remove =>
              simp only [advance, dry, Bool.false_eq_true, if_false]
              split <;> simp [momentsLeft]
          | write content =>
              simp only [advance, dry, Bool.false_eq_true, if_false]
              split <;> simp [momentsLeft]
  | moving temporary file warnings =>
      simp only [advance]
      split <;> simp [momentsLeft]

/-- The moments that are left before the result of a file is noted. -/
def remaining (setting : Setting) (pool : Pool) (dist : DistFile) : Nat :=
  if dist ∈ pool.noted then 0 else momentsLeft setting dist (pool.phase dist)

/-- The moments that are left before everything is noted. -/
def total (agenda : Agenda) (setting : Setting) (pool : Pool) : Nat :=
  (agenda.files.map (remaining setting pool)).sum

theorem total_lt (known : dist ∈ agenda.files)
    (less : remaining setting next dist < remaining setting pool dist)
    (others : ∀ other, other ≠ dist → remaining setting next other = remaining setting pool other) :
    total agenda setting next < total agenda setting pool := by
  refine List.sum_lt_sum _ _ (fun other _ => ?_) ⟨dist, known, less⟩
  by_cases same : other = dist
  · rw [same]
    exact Nat.le_of_lt less
  · exact Nat.le_of_eq (others other same)

theorem remaining_put (setting : Setting) (pool : Pool) (unnoted : dist ∉ pool.noted)
    (there : Phase × Disk) :
    remaining setting (pool.put dist there) dist = momentsLeft setting dist (some there.1) ∧
      ∀ other, other ≠ dist →
      remaining setting (pool.put dist there) other = remaining setting pool other := by
  refine ⟨by simp [remaining, unnoted], fun other differ => ?_⟩
  rw [remaining, remaining, put_noted, pool.put_phase_of_ne there differ]

/-- Every step leaves less to do. -/
theorem total_lt_of_step (orderly : Orderly agenda pool) (step : Step agenda setting pool next) :
    total agenda setting next < total agenda setting pool := by
  cases step with
  | @start dist may =>
      have unnoted : dist ∉ pool.noted := orderly.not_mem_noted (by simp [may.waiting])
      obtain ⟨own, others⟩ := remaining_put setting pool unnoted (.begun, pool.disk)
      refine total_lt may.known ?_ others
      rw [own, remaining, if_neg unnoted, may.waiting]
      simp [momentsLeft]
  | @work dist phase come busy =>
      have unnoted : dist ∉ pool.noted := orderly.not_mem_noted (by
        rintro result done
        rw [come, Option.some.injEq] at done
        rw [done] at busy
        contradiction)
      obtain ⟨own, others⟩ :=
        remaining_put setting pool unnoted (advance setting dist pool.disk phase)
      refine total_lt (orderly.known dist (by simp [come])) ?_ others
      rw [own, remaining, if_neg unnoted, come]
      exact momentsLeft_advance_lt setting dist pool.disk busy
  | @note dist result come unnoted =>
      refine @total_lt _ _ _ _ dist (orderly.known dist (by simp [come])) ?_ fun other differ => ?_
      · rw [remaining, remaining, if_pos (by simp), if_neg unnoted, come]
        simp [momentsLeft]
      · simp only [remaining, note_noted, List.mem_append, List.mem_singleton, differ, or_false]
        rfl

/-- Whatever was done so far, the rest can be done, and no way of doing it goes on for
ever. -/
theorem exists_finished (nodup : agenda.files.Nodup) (filesPositive : 0 < agenda.concurrency)
    (targetsPositive : 0 < agenda.targetsConcurrency) (orderly : Orderly agenda pool) :
    ∃ last, ReflTransGen (Step agenda setting) pool last ∧ Finished agenda last := by
  induction left : total agenda setting pool using Nat.strongRecOn generalizing pool with
  | ind left ih =>
      rcases exists_step nodup filesPositive targetsPositive orderly with finished | ⟨next, step⟩
      · exact ⟨pool, .refl, finished⟩
      · obtain ⟨last, steps, finished⟩ :=
          ih _ (left ▸ total_lt_of_step orderly step) (orderly.step step) rfl
        exact ⟨last, .head step steps, finished⟩

/-! ## One file after the other -/

/-- The files of a list were processed, and nothing else was started. -/
structure Ready (agenda : Agenda) (files : List DistFile) (pool : Pool) : Prop where
  orderly : Orderly agenda pool
  drained : ∀ dist, pool.phase dist ≠ none → dist ∈ pool.noted
  noted_eq : pool.noted = files

/-- The pool in which a file was processed in one piece. -/
def after (pool : Pool) (setting : Setting) (dist : DistFile) : Pool :=
  (pool.put dist
    (.done (process setting pool.disk dist).1, (process setting pool.disk dist).2)).note
    (dist, (process setting pool.disk dist).1)

theorem steps_after (may : MayStart agenda pool dist) (orderly : Orderly agenda pool) :
    ReflTransGen (Step agenda setting) pool (pool.after setting dist) := by
  have works : ReflTransGen (Step agenda setting) (pool.put dist (.begun, pool.disk))
      (pool.put dist
        (.done (process setting pool.disk dist).1, (process setting pool.disk dist).2)) := by
    refine ReflTransGen.lift (pool.put dist) ?_ _ _ (alone_process setting dist pool.disk)
    rintro here _ ⟨busy, rfl⟩
    have step := @Step.work agenda setting (pool.put dist here) dist here.1 (by simp) busy
    rwa [put_put] at step
  have unnoted : dist ∉ pool.noted := orderly.not_mem_noted (by simp [may.waiting])
  exact (ReflTransGen.head (.start may) works).tail (.note (by simp) unnoted)

theorem Ready.after {front rest : List DistFile} (ready : Ready agenda front pool)
    (nodup : agenda.files.Nodup) (filesPositive : 0 < agenda.concurrency)
    (targetsPositive : 0 < agenda.targetsConcurrency) (split : agenda.files = front ++ dist :: rest)
    (running : Passes agenda.stopOnError pool.log) :
    ReflTransGen (Step agenda setting) pool (pool.after setting dist) ∧
      Ready agenda (front ++ [dist]) (pool.after setting dist) := by
  have waiting : pool.phase dist = none := by
    by_contra started
    have mem := ready.drained dist started
    rw [ready.noted_eq] at mem
    rw [split, List.nodup_append] at nodup
    exact absurd rfl (nodup.2.2 dist mem dist (by simp))
  have may := mayStart_of_next nodup filesPositive targetsPositive ready.orderly
      ready.drained running
    split (fun other mem => by rwa [ready.noted_eq]) waiting
  have steps := @steps_after agenda setting pool dist may ready.orderly
  refine ⟨steps, orderly_of_steps ready.orderly steps, fun other started => ?_, ?_⟩
  · rw [Pool.after, note_noted, put_noted]
    by_cases same : other = dist
    · simp [same]
    · have before : pool.phase other ≠ none := by
        rw [Pool.after] at started
        exact pool.put_phase_of_ne _ same ▸ started
      exact List.mem_append_left _ (ready.drained other before)
  · rw [Pool.after, note_noted, put_noted, ready.noted_eq]

/-- As long as nothing stops the run, its first files can be processed one after the
other. -/
theorem exists_ready (nodup : agenda.files.Nodup) (filesPositive : 0 < agenda.concurrency)
    (targetsPositive : 0 < agenda.targetsConcurrency) (disk : Disk) {front rest : List DistFile}
    (split : agenda.files = front ++ rest)
    (passes : Passes agenda.stopOnError (outcomes setting disk front)) :
    ∃ pool, ReflTransGen (Step agenda setting) { disk := disk } pool ∧ Ready agenda front pool ∧
      pool.disk = afterEach setting disk front ∧ pool.log = outcomes setting disk front := by
  induction front using List.reverseRecOn generalizing rest with
  | nil => exact ⟨_, .refl, ⟨orderly_start agenda disk, by simp, rfl⟩, rfl, rfl⟩
  | append_singleton front dist ih =>
      rw [outcomes_append, passes_append] at passes
      rw [List.append_assoc] at split
      obtain ⟨pool, steps, ready, disk_eq, log_eq⟩ := ih split passes.1
      obtain ⟨more, readyThen⟩ := @Ready.after agenda setting pool dist front rest ready nodup
        filesPositive targetsPositive split (log_eq ▸ passes.1)
      refine ⟨_, steps.trans more, readyThen, ?_, ?_⟩
      · simp only [Pool.after, note, put, disk_eq, afterEach_append, afterEach]
      · simp only [Pool.after, note, put, disk_eq, log_eq, outcomes_append, outcomes]

/-- Files that are processed one after the other, up to the first failure if failures stop
the run, are a way to execute an agenda. -/
theorem exists_executes (nodup : agenda.files.Nodup) (filesPositive : 0 < agenda.concurrency)
    (targetsPositive : 0 < agenda.targetsConcurrency) (disk : Disk)
    (passes : Passes agenda.stopOnError (outcomes setting disk agenda.files)) :
    ∃ pool, Executes agenda setting disk pool ∧ pool.disk = afterEach setting disk agenda.files ∧
      pool.log = outcomes setting disk agenda.files := by
  obtain ⟨pool, steps, ready, disk_eq, log_eq⟩ := @exists_ready agenda setting nodup filesPositive
    targetsPositive disk agenda.files [] (by simp) passes
  exact ⟨pool, ⟨steps, ready.drained, fun _ dist mem => ready.noted_eq ▸ mem⟩, disk_eq, log_eq⟩

theorem exists_executes_of_failure (nodup : agenda.files.Nodup)
    (filesPositive : 0 < agenda.concurrency)
    (targetsPositive : 0 < agenda.targetsConcurrency) (disk : Disk)
    (stops : agenda.stopOnError = true)
    {front rest : List DistFile} (split : agenda.files = front ++ dist :: rest)
    (passes : Passes agenda.stopOnError (outcomes setting disk front)) {error : DiskError}
    (fails : (process setting (afterEach setting disk front) dist).1 = .error error) :
    ∃ pool, Executes agenda setting disk pool ∧
      pool.disk = (process setting (afterEach setting disk front) dist).2 ∧
      pool.log = outcomes setting disk front ++ [(dist, .error error)] := by
  obtain ⟨pool, steps, ready, disk_eq, log_eq⟩ := @exists_ready agenda setting nodup filesPositive
    targetsPositive disk front _ split passes
  obtain ⟨more, readyThen⟩ := @Ready.after agenda setting pool dist front rest ready nodup
    filesPositive targetsPositive split (log_eq ▸ passes)
  have log_after :
      (pool.after setting dist).log = outcomes setting disk front ++ [(dist, .error error)] := by
    simp only [Pool.after, note, put, disk_eq, log_eq, fails]
  refine ⟨_, ⟨steps.trans more, readyThen.drained, fun running => ?_⟩, ?_, log_after⟩
  · obtain ⟨result, ok⟩ := running stops (dist, .error error) (by simp [log_after])
    contradiction
  · simp only [Pool.after, note, put, disk_eq]

end Pool

end DistDirectives.Run
