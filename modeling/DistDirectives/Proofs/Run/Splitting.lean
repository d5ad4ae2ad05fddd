import DistDirectives.Proofs.Run.Idempotence
import DistDirectives.Proofs.Run.Policy
import DistDirectives.Proofs.Run.Restriction

/-!
# Targets in parts and in another order

The files of different targets lie in different directories, and no run touches a source.
So a list of targets can be cut in two: a run for the first part leaves the files of the
second part as they are, finds the same sources for it, and the two runs together do what
one run for the whole list does. And the list can be put in any order.

Of the two files that a file can meet, itself and its temporary file, both lie in the
directory of its target. This is why the order of targets does not matter even where the
order of the files of one target does, and why what the files of some targets do beside those
of others they can do by themselves.
-/

namespace DistDirectives.Run

open Disk (IsPlainProject temporaryPlace Rewrites)

variable {disk after : Disk} {base : Location}

/-! ## Reports in parts -/

/-- The report of results in two parts is that of both parts, sorted again. -/
theorem sorted_reportOf_append {results more : List Outcome} (own : AreOwn (results ++ more))
    (dry : Bool) :
    (({ dryRun := dry } : Report).merge (reportOf (results ++ more))).sorted =
      ((({ dryRun := dry } : Report).merge (reportOf results)).sorted.merge
        (({ dryRun := dry } : Report).merge (reportOf more)).sorted).sorted := by
  have distinct := own.nodup_paths
  rw [reportOf_append] at distinct ⊢
  obtain ⟨distinctProcessed, distinctErrors, _⟩ := List.nodup_append.1 distinct
  simp only [Report.merge, Report.sorted, List.nil_append, Nat.zero_add]
    at distinctProcessed distinctErrors ⊢
  rw [mergeSort_eq_of_perm ?_ distinctProcessed, mergeSort_eq_of_perm ?_ distinctErrors]
  · exact ((List.mergeSort_perm _ _).append (List.mergeSort_perm _ _)).symm
  · exact ((List.mergeSort_perm _ _).append (List.mergeSort_perm _ _)).symm

namespace Engine

variable {engine : Engine} {targets others first second : List Text} {groups : List (List DistFile)}
  {report : Report}

/-! ## Plans in parts -/

theorem plans_of_found {accepted : List Target} {sources : List SourceFile}
    (read : Target.readAll targets = .ok accepted) (found : engine.sourcesOf disk = .ok sources)
    (some : sources ≠ []) (expanded : List.Forall₂ (fun target files =>
      Expansion.filesOf disk engine.root engine.sourceDir sources target = .ok files)
        accepted groups) :
    Plans engine disk targets groups := by
  by_cases asked : accepted = []
  · subst asked
    cases expanded
    exact .noTarget read
  · exact .files read asked found some expanded

theorem plans_of_noSource {accepted : List Target} (read : Target.readAll targets = .ok accepted)
    (found : engine.sourcesOf disk = .ok []) : Plans engine disk targets [] := by
  by_cases asked : accepted = []
  · subst asked
    exact .noTarget read
  · exact .noSource read asked found

/-- The plan for a list of targets consists of those for its parts. -/
theorem Plans.split (plans : Plans engine disk (first ++ second) groups) :
    ∃ front back, groups = front ++ back ∧ Plans engine disk first front ∧
      Plans engine disk second back := by
  cases plans with
  | noTarget read =>
      obtain ⟨front, back, none_asked, readFirst, readSecond⟩ := Target.readAll_append read
      obtain ⟨rfl, rfl⟩ := List.append_eq_nil_iff.1 none_asked.symm
      exact ⟨[], [], rfl, .noTarget readFirst, .noTarget readSecond⟩
  | noSource read _ found =>
      obtain ⟨front, back, _, readFirst, readSecond⟩ := Target.readAll_append read
      exact ⟨[], [], rfl, plans_of_noSource readFirst found, plans_of_noSource readSecond found⟩
  | files read _ found some expanded =>
      obtain ⟨front, back, rfl, readFirst, readSecond⟩ := Target.readAll_append read
      have frontExpanded := List.forall₂_take front.length expanded
      have backExpanded := List.forall₂_drop front.length expanded
      rw [List.take_left] at frontExpanded
      rw [List.drop_left] at backExpanded
      exact ⟨_, _, (List.take_append_drop front.length groups).symm,
        plans_of_found readFirst found some frontExpanded,
          plans_of_found readSecond found some backExpanded⟩

/-- The plan for targets in another order consists of the same groups of files. -/
theorem Plans.exists_of_perm (plans : Plans engine disk targets groups)
    (perm : others.Perm targets) :
    ∃ more, more.Perm groups ∧ Plans engine disk others more := by
  cases plans with
  | noTarget read =>
      obtain ⟨more, morePerm, readOthers⟩ := Target.readAll_of_perm read perm
      cases morePerm.eq_nil
      exact ⟨[], .refl _, .noTarget readOthers⟩
  | noSource read _ found =>
      obtain ⟨more, _, readOthers⟩ := Target.readAll_of_perm read perm
      exact ⟨[], .refl _, plans_of_noSource readOthers found⟩
  | files read _ found some expanded =>
      obtain ⟨accepted, acceptedPerm, readOthers⟩ := Target.readAll_of_perm read perm
      obtain ⟨more, moreExpanded, morePerm⟩ := List.perm_comp_forall₂ acceptedPerm expanded
      exact ⟨more, morePerm, plans_of_found readOthers found some moreExpanded⟩

/-- The files of different targets do not meet. -/
theorem Plans.pairwise_areStrangers (plans : Plans engine disk targets groups)
    (project : IsPlainProject disk engine.root base)
    (isSourceDirectory : IsSourceDirectory (Path.ofText engine.sourceDir)) :
    groups.Pairwise (AreStrangers engine.writer) := by
  cases plans with
  | noTarget => exact .nil
  | noSource => exact .nil
  | files read _ found _ expanded =>
      have accepted := Target.accepted_of_readAll read
      have stand := stand_of_sourcesOf (leadsToPlainTree project isSourceDirectory) found
      refine (pairwise_groups project.toIsProject project.plain stand accepted expanded).imp ?_
      rintro left right ⟨target, mem, other, otherMem, differ, covers, otherCovers⟩
      intro file fileMem otherFile otherFileMem
      have inside := (covers file fileMem).area_isPrefix
      have otherInside := (otherCovers otherFile otherFileMem).area_isPrefix
      have ofFile := inside.trans (List.dropLast_prefix _)
      have ofOther := otherInside.trans (List.dropLast_prefix _)
      have beside := inside.trans
        (List.prefix_append _ [Disk.temporaryName engine.writer file.path.segments])
      have besideOther := otherInside.trans
        (List.prefix_append _ [Disk.temporaryName engine.writer otherFile.path.segments])
      refine ⟨fun same => ?_, fun same => ?_, fun same => ?_⟩
      · exact differ (accepted.eq_of_area_isPrefix mem otherMem ofFile (same ▸ ofOther))
      · exact differ (accepted.eq_of_area_isPrefix mem otherMem ofFile (same ▸ besideOther))
      · exact differ (accepted.eq_of_area_isPrefix mem otherMem (same ▸ beside) ofOther)

/-! ## Runs in parts -/

theorem remaining_eq_self
    (still : ∀ dist ∈ groups.flatten, after.isFile (engine.root.join dist.path.text) = true) :
    engine.remaining after groups = groups := by
  rw [remaining]
  conv_rhs => rw [← List.map_id groups]
  refine List.map_congr_left fun files filesMem => List.filter_eq_self.2 fun dist distMem => ?_
  exact still dist (List.mem_flatten.2 ⟨files, filesMem, distMem⟩)

/-- What was planned is planned again where its files are still there. -/
theorem Plans.behind (plans : Plans engine disk targets groups)
    (project : IsPlainProject disk engine.root base)
    (isSourceDirectory : IsSourceDirectory (Path.ofText engine.sourceDir))
    (rewrites : Rewrites disk after)
    (same : SameSources (Path.ofText engine.sourceDir) disk base after base)
    (ground : IsGround engine.setting after base groups.flatten) :
    IsPlainProject after engine.root base ∧ Plans engine after targets groups := by
  have again := plans.again project isSourceDirectory rewrites same
  rw [remaining_eq_self ground.present] at again
  exact ⟨rewrites.isPlainProject project, again⟩

/-- What is carried out for both parts is carried out for one after the other. -/
theorem Carries.split {front back : List (List DistFile)}
    (carries : Carries engine disk (front ++ back) report after)
    (own : AreOwn (outcomes engine.setting disk (front ++ back).flatten)) :
    ∃ earlier later, Carries engine disk front earlier
      (afterEach engine.setting disk front.flatten) ∧
      Carries engine (afterEach engine.setting disk front.flatten) back later after ∧
      report = (earlier.merge later).sorted := by
  obtain ⟨first, second⟩ :=
    Permits.of_append ⟨carries.targetsPermitted, carries.filesPermitted⟩
  rcases carries with ⟨-, -, passes, report_eq, after_eq⟩
  rw [List.flatten_append, outcomes_append] at own passes report_eq
  rw [List.flatten_append, afterEach_append] at after_eq
  obtain ⟨passesFront, passesBack⟩ := passes_append.1 passes
  exact ⟨_, _, ⟨first.targets, first.files, passesFront, rfl, rfl⟩,
    ⟨second.targets, second.files, passesBack, rfl, after_eq⟩,
    report_eq.trans (sorted_reportOf_append own _)⟩

/-- Groups of files that do not meet are carried out in any order. -/
theorem Carries.of_perm {more : List (List DistFile)}
    (carries : Carries engine disk groups report after)
    (perm : more.Perm groups) (strangers : groups.Pairwise (AreStrangers engine.writer))
    (ground : IsGround engine.setting disk base groups.flatten)
    (wet : engine.options.dryRun = false) :
    Carries engine disk more report after := by
  obtain ⟨results, disks⟩ := afterEach_eq_of_perm perm.symm strangers ground wet
  have permits := Permits.perm ⟨carries.targetsPermitted, carries.filesPermitted⟩ perm
  refine ⟨permits.targets, permits.files, ?_, ?_, ?_⟩
  · exact fun stops outcome mem => carries.passes stops outcome (results.mem_iff.1 mem)
  · rw [carries.report_eq]
    exact sorted_reportOf_eq_of_perm results.symm ground.areOwn_outcomes _ ⟨rfl, rfl⟩
  · rw [carries.after_eq, disks]

/-! ## Files in flight in parts -/

/-- Groups of files lead to some results, in some order, and nothing stops them. -/
def Yields (engine : Engine) (groups : List (List DistFile)) (disk : Disk) (results : List Outcome)
    (after : Disk) : Prop :=
  ∃ pool, Pool.Executes (engine.agenda groups) engine.setting disk pool ∧
    Passes engine.options.stopOnError pool.log ∧ results.Perm pool.log ∧ pool.disk = after

theorem agenda_append_eq_left (engine : Engine) (front back : List (List DistFile)) :
    engine.agenda (front ++ back) =
      (engine.agenda front).amid [] (engine.agenda back).targets := by
  simp [agenda, Agenda.amid]

theorem agenda_append_eq_right (engine : Engine) (front back : List (List DistFile)) :
    engine.agenda (front ++ back) =
      (engine.agenda back).amid (engine.agenda front).targets [] := by
  simp [agenda, Agenda.amid]

theorem mayEnd_ok_iff :
    MayEnd engine disk targets (.ok report) after ↔
      ∃ groups results, Plans engine disk targets groups ∧ Permits engine groups ∧
        Yields engine groups disk results after ∧ report =
          (({ dryRun := engine.options.dryRun } : Report).merge (reportOf results)).sorted := by
  constructor
  · rintro (_ | _ | _ | _ | ⟨plans, permits, executes, passes, order⟩ | _)
    exact ⟨_, _, plans, permits, ⟨_, executes, passes, order, rfl⟩, rfl⟩
  · rintro ⟨groups, results, plans, permits, ⟨pool, executes, passes, order, rfl⟩, rfl⟩
    exact .reported plans permits executes passes order

namespace Yields

variable {front back : List (List DistFile)} {results earlier later : List Outcome}
  {between : Disk}

theorem exists_rests (yields : Yields engine groups disk results after)
    (ground : IsGround engine.setting disk base groups.flatten) :
    ∃ pool, Rests (engine.agenda groups) engine.setting disk base False pool ∧
      results.Perm pool.log ∧ pool.disk = after := by
  obtain ⟨pool, executes, _, order, disk_eq⟩ := yields
  rw [← files_agenda engine] at ground
  exact ⟨pool, executes.rests ground False.elim, order, disk_eq⟩

theorem areOwn (yields : Yields engine groups disk results after)
    (ground : IsGround engine.setting disk base groups.flatten) : AreOwn results := by
  obtain ⟨pool, rests, order, _⟩ := yields.exists_rests ground
  rw [← files_agenda engine] at ground
  exact (rests.areOwn ground).perm order.symm

theorem of_perm (yields : Yields engine groups disk results after)
    (order : earlier.Perm results) : Yields engine groups disk earlier after := by
  obtain ⟨pool, executes, passes, again, disk_eq⟩ := yields
  exact ⟨pool, executes, passes, order.trans again, disk_eq⟩

/-- The files of other groups are still there. -/
theorem onwards (yields : Yields engine front disk results after)
    (ground : IsGround engine.setting disk base (front.flatten ++ back.flatten)) :
    IsGround engine.setting after base back.flatten := by
  obtain ⟨pool, rests, _, rfl⟩ := yields.exists_rests ground.front
  rw [← files_agenda engine front] at ground
  exact rests.onwards ground

/-- The files of other groups are planned as before. -/
theorem behind (yields : Yields engine front disk results after)
    (ground : IsGround engine.setting disk base (front.flatten ++ back.flatten))
    (project : IsPlainProject disk engine.root base) (plans : Plans engine disk targets back) :
    IsPlainProject after engine.root base ∧ Plans engine after targets back := by
  have onwards := yields.onwards ground
  obtain ⟨pool, rests, _, rfl⟩ := yields.exists_rests ground.front
  rw [← files_agenda engine front] at ground
  exact plans.behind project ground.isSourceDirectory (rests.rewrites ground.front)
    (rests.sameSources ground.front) onwards

/-- Strangers lead to their results one group after the other, whichever comes first. -/
theorem split (yields : Yields engine (front ++ back) disk results after)
    (ground : IsGround engine.setting disk base (front.flatten ++ back.flatten))
    (strangers : AreStrangers engine.writer front.flatten back.flatten) :
    (∃ earlier between later, Yields engine front disk earlier between ∧
      Yields engine back between later after ∧ results.Perm (earlier ++ later)) ∧
    ∃ earlier between later, Yields engine back disk earlier between ∧
      Yields engine front between later after ∧ results.Perm (earlier ++ later) := by
  obtain ⟨pool, executes, passes, order, rfl⟩ := yields
  rw [← files_agenda engine front, ← files_agenda engine back] at ground strangers
  have files_eq : (engine.agenda (front ++ back)).files =
      (engine.agenda front).files ++ (engine.agenda back).files := by
    rw [files_agenda, files_agenda, files_agenda, List.flatten_append]
  constructor
  · obtain ⟨small, last, first, second, passesFirst, passesSecond, logs, disk_eq⟩ :=
      executes.exists_parts (agenda_append_eq_left engine front back) (by rfl)
        (agenda_append_eq_right engine front back) (by simp [Agenda.files]) ground
        (files_eq ▸ .refl _) strangers passes
    exact ⟨_, _, _, ⟨small, first, passesFirst, .refl _, rfl⟩,
      ⟨last, second, passesSecond, .refl _, disk_eq⟩, order.trans logs⟩
  · obtain ⟨small, last, first, second, passesFirst, passesSecond, logs, disk_eq⟩ :=
      executes.exists_parts (agenda_append_eq_right engine front back) (by simp [Agenda.files])
        (agenda_append_eq_left engine front back) (by rfl) (ground.perm List.perm_append_comm)
        (files_eq ▸ List.perm_append_comm) strangers.symm passes
    exact ⟨_, _, _, ⟨small, first, passesFirst, .refl _, rfl⟩,
      ⟨last, second, passesSecond, .refl _, disk_eq⟩, order.trans logs⟩

/-- Groups of files lead to their results one after the other as well as beside each other. -/
theorem append (first : Yields engine front disk earlier between)
    (nodup : (front.flatten ++ back.flatten).Nodup)
    (second : Yields engine back between later after) :
    Yields engine (front ++ back) disk (earlier ++ later) after := by
  obtain ⟨pool, executes, passes, order, rfl⟩ := first
  obtain ⟨small, more, morePasses, moreOrder, rfl⟩ := second
  have whole := agenda_append_eq_right engine front back
  have nodupAll : (engine.agenda (front ++ back)).files.Nodup := by
    rwa [files_agenda, List.flatten_append]
  rw [whole] at nodupAll
  refine ⟨small.onto pool, ?_, passes_append.2 ⟨passes, morePasses⟩, order.append moreOrder, rfl⟩
  rw [whole]
  exact executes.join (whole.symm.trans (agenda_append_eq_left engine front back)) nodupAll passes
    more

/-- Strangers lead to the same results in every order. -/
theorem perm {others : List (List DistFile)} (yields : Yields engine groups disk results after)
    (perm : groups.Perm others) (strangers : groups.Pairwise (AreStrangers engine.writer))
    (ground : IsGround engine.setting disk base groups.flatten) :
    Yields engine others disk results after := by
  induction perm generalizing disk results with
  | nil => exact yields
  | @cons group groups others perm ih =>
      change Yields engine ([group] ++ groups) disk results after at yields
      rw [← List.singleton_append, List.flatten_append] at ground
      obtain ⟨apart, strangersBehind⟩ := List.pairwise_cons.1 strangers
      rw [← areStrangers_flatten_iff, ← @List.flatten_singleton _ group] at apart
      obtain ⟨⟨earlier, between, later, first, second, order⟩, _⟩ := yields.split ground apart
      have again := ih second strangersBehind (first.onwards ground)
      exact (first.append ((perm.flatten.append_left _).nodup_iff.1 ground.nodup) again).of_perm
        order
  | swap left right groups =>
      change Yields engine (([right] ++ [left]) ++ groups) disk results after at yields
      change IsGround engine.setting disk base (([right] ++ [left]) ++ groups).flatten at ground
      rw [List.flatten_append] at ground
      obtain ⟨apartRight, strangersBehind⟩ := List.pairwise_cons.1 strangers
      have apartLeft := (List.pairwise_cons.1 strangersBehind).1
      have apart : AreStrangers engine.writer ([right] ++ [left]).flatten groups.flatten := by
        refine areStrangers_flatten_iff.2 fun group mem first firstMem => ?_
        rw [List.flatten_append, List.flatten_singleton, List.flatten_singleton] at firstMem
        rcases List.mem_append.1 firstMem with inRight | inLeft
        · exact apartRight group (by simp [mem]) first inRight
        · exact apartLeft group mem first inLeft
      obtain ⟨⟨pairResults, between, rest, pair, others, order⟩, _⟩ := yields.split ground apart
      have pairGround := ground.front
      rw [List.flatten_append] at pairGround
      obtain ⟨_, earlier, mid, later, first, second, pairOrder⟩ :=
        pair.split pairGround (by simpa using apartRight left (by simp))
      have turned : ([left] ++ [right]).flatten.Perm ([right] ++ [left]).flatten :=
        List.perm_append_comm.flatten
      have swapped : Yields engine ([left] ++ [right]) disk pairResults between :=
        (first.append (pairGround.perm List.perm_append_comm).nodup second).of_perm pairOrder
      exact (swapped.append ((turned.append_right _).nodup_iff.2 ground.nodup) others).of_perm order
  | trans one two ih again =>
      refine again (ih yields strangers ground) ?_ (ground.perm one.flatten)
      exact one.pairwise strangers fun apart => apart.symm

end Yields

/-! ## Runs in parts -/

/-- What comes of targets in two lists comes of the first list and then of the second one, and of
the targets in any other order. If nothing fails, no other report without failures comes of any
of these. -/
structure Splits (engine : Engine) (comes : Disk → List Text → Report → Disk → Prop) (disk : Disk)
    (first second : List Text) (report : Report) (after : Disk) : Prop where
  parts : ∃ earlier between later, comes disk first earlier between ∧
    comes between second later after ∧ report = (earlier.merge later).sorted ∧
      (report.errors = [] → earlier.errors = [] ∧ later.errors = [] ∧
        (∀ other last, MayEnd engine disk first (.ok other) last → other.errors = [] →
          other = earlier ∧ last = between) ∧
        ∀ other last, MayEnd engine between second (.ok other) last → other.errors = [] →
          other = later ∧ last = after)
  reordered : ∀ targets, targets.Perm (first ++ second) → comes disk targets report after ∧
    (report.errors = [] → ∀ other last, MayEnd engine disk targets (.ok other) last →
      other.errors = [] → other = report ∧ last = after)

section

variable {comes : Disk → List Text → Report → Disk → Prop} {between : Disk}
  {earlier later : Report} (project : IsPlainProject disk engine.root base)
  (isSourceDirectory : IsSourceDirectory (Path.ofText engine.sourceDir))

include project isSourceDirectory

/-- Without failures there is one end, so that it is enough to find the ends of the parts. -/
theorem splits_of_parts
    (mayEnd : ∀ before targets report after, IsPlainProject before engine.root base →
      comes before targets report after → MayEnd engine before targets (.ok report) after)
    (projectBetween : IsPlainProject between engine.root base)
    (comesFirst : comes disk first earlier between) (comesSecond : comes between second later after)
    (report_eq : report = (earlier.merge later).sorted)
    (comesAgain : ∀ targets, targets.Perm (first ++ second) → comes disk targets report after) :
    Splits engine comes disk first second report after := by
  have alone {before last : Disk} {targets : List Text} {single : Report}
      (projectBefore : IsPlainProject before engine.root base)
      (comesAlone : comes before targets single last) (none_failed : single.errors = [])
      (other : Report) (otherLast : Disk)
      (ended : MayEnd engine before targets (.ok other) otherLast)
      (none_failed_again : other.errors = []) : other = single ∧ otherLast = last :=
    (mayEnd _ _ _ _ projectBefore comesAlone).eq_of_errors_eq_nil projectBefore isSourceDirectory
      none_failed ended none_failed_again
  constructor
  · refine ⟨earlier, between, later, comesFirst, comesSecond, report_eq, fun none_failed => ?_⟩
    rw [report_eq, errors_sorted_merge_eq_nil_iff] at none_failed
    exact ⟨none_failed.1, none_failed.2, alone project comesFirst none_failed.1,
      alone projectBetween comesSecond none_failed.2⟩
  · exact fun targets perm => ⟨comesAgain targets perm, alone project (comesAgain targets perm)⟩

/-- Files in flight can be taken apart. -/
theorem splits_of_mayEnd (ended : MayEnd engine disk (first ++ second) (.ok report) after) :
    Splits engine (fun disk targets report after => MayEnd engine disk targets (.ok report) after)
      disk first second report after := by
  obtain ⟨groups, results, plans, permits, yields, report_eq⟩ := mayEnd_ok_iff.1 ended
  have strangers := plans.pairwise_areStrangers project isSourceDirectory
  have ground := isGround_of_plans project isSourceDirectory plans
  have own := yields.areOwn ground
  obtain ⟨front, back, rfl, plansFirst, plansSecond⟩ := plans.split
  obtain ⟨permitsFirst, permitsSecond⟩ := permits.of_append
  rw [List.flatten_append] at ground
  have apart : AreStrangers engine.writer front.flatten back.flatten := by
    refine areStrangers_flatten_iff.2 fun group mem => AreStrangers.symm ?_
    refine areStrangers_flatten_iff.2 fun other otherMem => AreStrangers.symm ?_
    exact (List.pairwise_append.1 strangers).2.2 other otherMem group mem
  obtain ⟨⟨earlier, between, later, yieldsFirst, yieldsSecond, order⟩, _⟩ :=
    yields.split ground apart
  obtain ⟨projectBetween, plansBehind⟩ := yieldsFirst.behind ground project plansSecond
  refine splits_of_parts project isSourceDirectory (fun _ _ _ _ _ => id) projectBetween
    (mayEnd_ok_iff.2 ⟨front, earlier, plansFirst, permitsFirst, yieldsFirst, rfl⟩)
    (mayEnd_ok_iff.2 ⟨back, later, plansBehind, permitsSecond, yieldsSecond, rfl⟩) ?_ ?_
  · rw [report_eq, sorted_reportOf_eq_of_perm order own _ ⟨rfl, rfl⟩,
      sorted_reportOf_append (own.perm order)]
  · intro targets perm
    obtain ⟨more, morePerm, plansMore⟩ := plans.exists_of_perm perm
    rw [← List.flatten_append] at ground
    exact mayEnd_ok_iff.2 ⟨more, results, plansMore, permits.perm morePerm,
      yields.perm morePerm.symm strangers ground, report_eq⟩

/-- Files one after the other can be taken apart. -/
theorem splits_of_run (wet : engine.options.dryRun = false)
    (ran : engine.run disk (first ++ second) = (.ok report, after)) :
    Splits engine (fun disk targets report after => engine.run disk targets = (.ok report, after))
      disk first second report after := by
  obtain ⟨groups, plans, carries⟩ := run_eq_ok_iff.1 ran
  have strangers := plans.pairwise_areStrangers project isSourceDirectory
  have ground := isGround_of_plans project isSourceDirectory plans
  obtain ⟨front, back, rfl, plansFirst, plansSecond⟩ := plans.split
  obtain ⟨earlier, later, carriesFirst, carriesSecond, report_eq⟩ :=
    carries.split ground.areOwn_outcomes
  have parts := ground
  rw [List.flatten_append] at parts
  have rewrites :=
    (@afterEach_frame engine.setting _ _ _ parts.project parts.front.apart.areDist wet).1
  have sources :=
    @sameSources_afterEach engine.setting _ _ _ parts.project parts.isSourceDirectory
      parts.front.apart wet
  obtain ⟨projectBetween, plansBehind⟩ :=
    plansSecond.behind project isSourceDirectory rewrites sources (parts.onwards wet)
  refine splits_of_parts project isSourceDirectory ?_ projectBetween
    (run_eq_ok_iff.2 ⟨front, plansFirst, carriesFirst⟩)
    (run_eq_ok_iff.2 ⟨back, plansBehind, carriesSecond⟩) report_eq ?_
  · intro before targets report after projectBefore ran
    have ended := run_mayEnd projectBefore isSourceDirectory targets
    rwa [ran] at ended
  · intro targets perm
    obtain ⟨more, morePerm, plansMore⟩ := plans.exists_of_perm perm
    exact run_eq_ok_iff.2 ⟨more, plansMore, carries.of_perm morePerm strangers ground wet⟩

end

/-- A run for two lists of targets is a run for the first one and a run for the second one on
the disk that this leaves: it reports what the two of them report, put in order, and ends on
the same disk. And it is a run for the targets in any other order. This is so whatever way the
files of the run take, and also if they come one after the other. -/
theorem run_append (project : IsPlainProject disk engine.root base)
    (isSourceDirectory : IsSourceDirectory (Path.ofText engine.sourceDir))
    (wet : engine.options.dryRun = false) :
    (∀ report after, MayEnd engine disk (first ++ second) (.ok report) after →
      Splits engine
        (fun disk targets report after => MayEnd engine disk targets (.ok report) after)
        disk first second report after) ∧
    ∀ report after, engine.run disk (first ++ second) = (.ok report, after) →
      Splits engine
        (fun disk targets report after => engine.run disk targets = (.ok report, after))
        disk first second report after :=
  ⟨fun _ _ ended => splits_of_mayEnd project isSourceDirectory ended,
    fun _ _ ran => splits_of_run project isSourceDirectory wet ran⟩

/-- The small project with a second distribution. -/
def pairDisk : Disk :=
  (((smallDisk "old\n".toList).store (smallLocation ["dist-jsr"])
    (.directory Node.directoryMode)).store
    (smallLocation ["dist-jsr", "bin"]) (.directory Node.directoryMode)).store
      (smallLocation ["dist-jsr", "bin", "a.js"]) (.file (Utf8.encode "old\n".toList) Node.fileMode)

/-- What a run for the second distribution reports. -/
def secondReport : Report :=
  { processed := [⟨Path.ofText "dist-jsr/bin/a.js".toList, .modified, "dist-jsr".toList⟩] }

/-- A run for both distributions of the small project is one for each of them, in any order, and
so is every end of it. -/
theorem run_append_pair :
    ∃ report between after,
      smallEngine.run pairDisk (["dist-npm".toList] ++ ["dist-jsr".toList]) = (.ok report, after) ∧
      smallEngine.run pairDisk ["dist-npm".toList] = (.ok smallReport, between) ∧
      smallEngine.run between ["dist-jsr".toList] = (.ok secondReport, after) ∧
      report = (smallReport.merge secondReport).sorted ∧
      smallEngine.run pairDisk ["dist-jsr".toList, "dist-npm".toList] = (.ok report, after) ∧
      ∀ other last,
        MayEnd smallEngine pairDisk ["dist-npm".toList, "dist-jsr".toList] (.ok other) last →
          MayEnd smallEngine pairDisk ["dist-jsr".toList, "dist-npm".toList] (.ok other) last := by
  have reached : pairDisk.walk true smallEngine.root.segments =
      .ok (.node (smallLocation []) (.directory Node.directoryMode)) := by decide +kernel
  have holds : pairDisk.holdsPlainTree (smallLocation []) = true := by decide +kernel
  have project := Disk.isPlainProject_of_holdsPlainTree reached holds
  obtain ⟨report, after, ran⟩ := @exists_of_isOk _ _ _
    (smallEngine.run pairDisk (["dist-npm".toList] ++ ["dist-jsr".toList])) (by decide +kernel)
  obtain ⟨ends, runs⟩ := @run_append _ _ _ ["dist-npm".toList] ["dist-jsr".toList] project
    small_isSourceDirectory rfl
  obtain ⟨⟨earlier, between, later, ranFirst, ranSecond, report_eq, _⟩, permuted⟩ :=
    runs report after ran
  have first : (smallEngine.run pairDisk ["dist-npm".toList]).1 = .ok smallReport := by
    decide +kernel
  have second :
      (smallEngine.run (smallEngine.run pairDisk ["dist-npm".toList]).2 ["dist-jsr".toList]).1 =
      .ok secondReport := by decide +kernel
  rw [ranFirst] at first second
  rw [ranSecond] at second
  have earlier_eq : earlier = smallReport := Except.ok.inj first
  have later_eq : later = secondReport := Except.ok.inj second
  subst earlier_eq later_eq
  exact ⟨report, between, after, ran, ranFirst, ranSecond, report_eq,
    (permuted _ (List.Perm.swap _ _ _)).1,
    fun other last ended => ((ends other last ended).reordered _ (List.Perm.swap _ _ _)).1⟩

end Engine

end DistDirectives.Run
