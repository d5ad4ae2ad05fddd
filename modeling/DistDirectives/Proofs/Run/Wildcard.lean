import DistDirectives.Proofs.Run.Distinctness
import DistDirectives.Proofs.Run.DryRun
import DistDirectives.Proofs.Run.Relabelling
import DistDirectives.Proofs.Run.Splitting

/-!
# All libraries, and each of them

The target for all libraries is expanded library by library, with one list of paths that were
seen. The targets for single libraries are expanded each with its own. Since the paths of
different libraries differ, both yield the same files, and these only differ in the target that
they are reported for. So a run for all libraries does what a run for each of them does.
-/

namespace DistDirectives.Run

open Disk (IsPlainProject IsProject Fits temporaryPlace)
open DistDirectives.Path (IsPlainName)

/-! ## Candidates of several libraries -/

namespace Expansion

variable {disk : Disk} {root : Path} {sourceDir label : Text} {sources : List SourceFile}
  {files more : List DistFile} {libraries : List Text}

/-- The files of one library. -/
theorem filesOf_library_eq_ok_iff {library : Text} :
    filesOf disk root sourceDir sources (.library library) = .ok files ↔
      ∃ registries, registriesIn disk root library = .ok registries ∧
        files = existing disk root
          (libraryCandidates sourceDir (Target.library library).text library registries
            sources) := by
  rw [filesOf_eq_ok_iff]
  simp only [candidatesOf, Target.flatRoot?, librariesOf, librariesFiles]
  cases registriesIn disk root library with
  | error failure => simp
  | ok registries => simp

end Expansion

end DistDirectives.Run

/-! ## Lists of targets -/

namespace DistDirectives.Target

end DistDirectives.Target

namespace DistDirectives.Run

open Disk (IsPlainProject IsProject HasPlainNames Fits temporaryPlace)
open DistDirectives.Path (IsPlainName)

variable {disk after : Disk} {base : Location} {libraries : List Text}

/-! ## Libraries of a project -/

/-- The names of all libraries of a project, each of them once, in a directory that the process
may list. -/
structure AreLibraries (disk : Disk) (base : Location) (libraries : List Text) : Prop where
  listable : ∀ mode, disk.get? (base ++ [Target.librariesDirectory]) = some (.directory mode) →
    disk.permits mode = true
  nodup : libraries.Nodup
  mem_iff : ∀ name, name ∈ libraries ↔
    ∃ mode, disk.get? (base ++ [Target.librariesDirectory, name]) = some (.directory mode)

namespace AreLibraries

theorem perm {others : List Text} (areLibraries : AreLibraries disk base libraries)
    (areOthers : AreLibraries disk base others) : libraries.Perm others := by
  rw [List.perm_ext_iff_of_nodup areLibraries.nodup areOthers.nodup]
  intro name
  rw [areLibraries.mem_iff, areOthers.mem_iff]

theorem isPlainName (areLibraries : AreLibraries disk base libraries)
    (plain : HasPlainNames disk base) :
    ∀ library ∈ libraries, IsPlainName library := by
  intro library mem
  obtain ⟨mode, directory⟩ := (areLibraries.mem_iff library).1 mem
  exact plain [Target.librariesDirectory] library _ (by simpa using directory)

end AreLibraries

section

variable {root : Path} {sourceDir : Text} {sources : List SourceFile}

end

/-! ## Plans -/

namespace Engine

variable {engine : Engine} {targets : List Text} {accepted : List Target}
  {groups others : List (List DistFile)}

theorem filter_ne_nil_iff : groups.filter (!·.isEmpty) ≠ [] ↔ groups.flatten ≠ [] := by
  simp [List.filter_eq_nil_iff, List.flatten_eq_nil_iff]

theorem Permits.of_perm (permits : Permits engine groups) (perm : others.Perm groups) :
    Permits engine others := by
  constructor
  · exact fun some => permits.targets fun none_left => some (by simpa [none_left] using perm)
  · intro some
    apply permits.files
    rw [filter_ne_nil_iff] at some ⊢
    exact fun none_left => some (by simpa [none_left] using perm.flatten)

variable {report : Report}

/-- No expanded file bears the name of the temporary file of another one. -/
def HasClearNames (engine : Engine) (disk : Disk) (targets : List Text) : Prop :=
  ∀ dist other, Expands engine disk targets dist → Expands engine disk targets other →
    other ≠ dist →
    other.path.segments ≠ temporaryPlace engine.writer dist.path.segments

theorem Plans.isClear (plans : Plans engine disk targets groups)
    (ground : IsGround engine.setting disk base groups.flatten)
    (clear : HasClearNames engine disk targets) : IsClear engine.setting groups.flatten :=
  ground.isClear fun dist mem other otherMem =>
    clear dist other (plans.mem_flatten_iff.1 mem) (plans.mem_flatten_iff.1 otherMem)

section

variable {more : List (List DistFile)} {label : Text} {pool eachPool : Pool} {clear : Prop}

end

section

variable (project : IsPlainProject disk engine.root base)
  (isSourceDirectory : IsSourceDirectory (Path.ofText engine.sourceDir))
  (goesOn : engine.options.stopOnError = false)
  (areLibraries : AreLibraries disk base libraries) (some : libraries ≠ [])

include project isSourceDirectory goesOn areLibraries some

end

end Engine

end DistDirectives.Run
