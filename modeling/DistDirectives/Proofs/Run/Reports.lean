import DistDirectives.Proofs.Disk.Decision
import DistDirectives.Proofs.Run.Plan

/-!
# Reports of results

A report lists the failures and the files of the results that it is made of, in whatever
order these came. `smallEngine` is a project with one source and one output, on which what
is said of runs is tried out.
-/

namespace DistDirectives.Run

open Disk (IsPlainProject LeadsToPlainTree)

variable {disk : Disk} {base : Location} {dist : DistFile}

theorem mem_errors_sorted {report : Report} {failure : FileFailure} :
    failure ∈ report.sorted.errors ↔ failure ∈ report.errors := by
  simp [Report.sorted]

theorem mem_processed_sorted {report : Report} {processed : ProcessedFile} :
    processed ∈ report.sorted.processed ↔ processed ∈ report.processed := by
  simp [Report.sorted]

/-- Two reports together list no failure if neither of them does. -/
theorem errors_sorted_merge_eq_nil_iff {report other : Report} :
    (report.merge other).sorted.errors = [] ↔ report.errors = [] ∧ other.errors = [] := by
  simp only [List.eq_nil_iff_forall_not_mem, mem_errors_sorted, Report.merge, List.mem_append,
    not_or, forall_and]

/-- The failures that are reported are those of the results, in whatever order they came. -/
theorem mem_errors_of_perm {dry : Bool} {results log : List Outcome} (order : results.Perm log)
    {failure : FileFailure} :
    failure ∈ (({ dryRun := dry } : Report).merge (reportOf results)).sorted.errors ↔
      ∃ dist error, (dist, Except.error error) ∈ log ∧ failure = ⟨dist.path, error.message⟩ := by
  simp only [mem_errors_sorted, Report.merge, List.nil_append, mem_errors_reportOf, order.mem_iff]

theorem mem_processed_of_perm {dry : Bool} {results log : List Outcome} (order : results.Perm log)
    {processed : ProcessedFile} :
    processed ∈ (({ dryRun := dry } : Report).merge (reportOf results)).sorted.processed ↔
      ∃ dist result, (dist, Except.ok result) ∈ log ∧ result.processed = some processed := by
  simp only [mem_processed_sorted, Report.merge, List.nil_append, mem_processed_reportOf,
    order.mem_iff]

namespace Engine

variable {engine : Engine}

/-- The source directory of a project leads to a tree with plain names. -/
theorem leadsToPlainTree (project : IsPlainProject disk engine.root base)
    (isSourceDirectory : IsSourceDirectory (Path.ofText engine.sourceDir)) :
    LeadsToPlainTree disk (engine.root.join engine.sourceDir) :=
  project.leadsToPlainTree_of_spells project.plain
    ⟨Path.segments_join _ _, Disk.descends_of_plain isSourceDirectory.plain⟩

/-! ## A small project -/

/-- The location of a file of the small project. -/
def smallLocation (names : List String) : Location := ("w" :: names).map String.toList

/-- A source with a line to drop, and a directory for its output. -/
def smallTree : Disk :=
  let directory (names : List String) (disk : Disk) : Disk :=
    disk.store (smallLocation names) (.directory Node.directoryMode)
  Disk.empty
    |> directory []
    |> directory ["src"]
    |> directory ["dist-npm"]
    |> directory ["dist-npm", "bin"]
    |>.store (smallLocation ["src", "a.ts"])
      (.file (Utf8.encode "x // <dler-remove-line>\ny\n".toList) Node.fileMode)

/-- The small project with some content in its output. -/
def smallDisk (output : Text) : Disk :=
  smallTree.store (smallLocation ["dist-npm", "bin", "a.js"])
    (.file (Utf8.encode output) Node.fileMode)

/-- The runs of the small project. -/
def smallEngine : Engine := { root := Path.ofText "/w".toList, writer := "1".toList }

/-- The output of the small project. -/
def smallFile : DistFile :=
  { path := Path.ofText "dist-npm/bin/a.js".toList, layout := .flat, target := "dist-npm".toList }

/-- The source of the small project. -/
def smallSource : SourceFile :=
  ⟨Path.ofText "src/a.ts".toList, "x // <dler-remove-line>\ny\n".toList⟩

/-- What a run of the small project reports. -/
def smallReport : Report :=
  { processed := [⟨smallFile.path, .modified, smallFile.target⟩] }

theorem exists_of_isOk {ε α β : Type} {ended : Except ε α × β} (isOk : ended.1.isOk = true) :
    ∃ value rest, ended = (.ok value, rest) := by
  rcases ended with ⟨result, rest⟩
  cases result with
  | ok value => exact ⟨value, rest, rfl⟩
  | error error => contradiction

/-- What is checked of the small project before it is run. -/
structure IsSmall (disk : Disk) : Prop where
  reached : disk.walk true smallEngine.root.segments =
    .ok (.node (smallLocation []) (.directory Node.directoryMode))
  holds : disk.holdsPlainTree (smallLocation []) = true
  found : smallEngine.sourcesOf disk = .ok [smallSource]
  expanded : (expand disk (Cache.fresh smallEngine.root smallEngine.options.exclude)
    smallEngine.sourceDir .npm [smallSource]).1 = .ok [smallFile]
  ran : (smallEngine.run disk ["dist-npm".toList]).1 = .ok smallReport

instance (disk : Disk) : Decidable (IsSmall disk) :=
  decidable_of_iff
    (disk.walk true smallEngine.root.segments =
        .ok (.node (smallLocation []) (.directory Node.directoryMode)) ∧
      disk.holdsPlainTree (smallLocation []) = true ∧
      smallEngine.sourcesOf disk = .ok [smallSource] ∧
      (expand disk (Cache.fresh smallEngine.root smallEngine.options.exclude)
        smallEngine.sourceDir .npm [smallSource]).1 = .ok [smallFile] ∧
      (smallEngine.run disk ["dist-npm".toList]).1 = .ok smallReport)
    ⟨fun ⟨reached, holds, found, expanded, ran⟩ => ⟨reached, holds, found, expanded, ran⟩,
      fun small => ⟨small.reached, small.holds, small.found, small.expanded, small.ran⟩⟩

theorem IsSmall.isPlainProject (small : IsSmall disk) :
    IsPlainProject disk smallEngine.root (smallLocation []) :=
  Disk.isPlainProject_of_holdsPlainTree small.reached small.holds

theorem IsSmall.run_eq (small : IsSmall disk) :
    smallEngine.run disk ["dist-npm".toList] =
      (.ok smallReport, (smallEngine.run disk ["dist-npm".toList]).2) :=
  Prod.ext small.ran rfl

theorem IsSmall.expands (small : IsSmall disk) :
    Expands smallEngine disk ["dist-npm".toList] smallFile :=
  ⟨[.npm], [smallSource], rfl, small.found, .npm, by simp, _, small.expanded, by simp⟩

theorem IsSmall.eq_of_expands (small : IsSmall disk)
    (expands : Expands smallEngine disk ["dist-npm".toList] dist) : dist = smallFile := by
  rcases expands with ⟨accepted, sources, read, found, target, targetMem, files, expansion, distMem⟩
  cases read
  rw [small.found] at found
  cases found
  rw [List.mem_singleton.1 targetMem, small.expanded] at expansion
  cases expansion
  exact List.mem_singleton.1 distMem

theorem small_isSourceDirectory : IsSourceDirectory (Path.ofText smallEngine.sourceDir) :=
  ⟨by decide, by decide, by decide, by decide⟩

end Engine

end DistDirectives.Run
