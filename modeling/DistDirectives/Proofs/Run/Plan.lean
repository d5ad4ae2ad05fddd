import DistDirectives.Proofs.Run.Coverage
import DistDirectives.Proofs.Run.Effect

/-!
# The files of a run

The files that a run processes are those that its targets are expanded into, each of them
by itself. They have different paths, are covered by their targets, and are possible
outputs of discovered sources, beside which the candidates for their own sources stand.
-/

namespace DistDirectives.Run.Engine

open Disk (IsProject IsPlainProject HasPlainNames LeadsToPlainTree)

/-- A target of a run is expanded into a file, on the disk as it is before the run. -/
def Expands (engine : Engine) (disk : Disk) (targets : List Text) (dist : DistFile) : Prop :=
  ∃ accepted sources, Target.readAll targets = .ok accepted ∧ engine.sourcesOf disk = .ok sources ∧
    ∃ target ∈ accepted, ∃ files,
      (expand disk (Cache.fresh engine.root engine.options.exclude) engine.sourceDir
        target sources).1 =
        .ok files ∧ dist ∈ files

variable {engine : Engine} {disk : Disk} {root : Path} {base : Location} {targets : List Text}
  {dist : DistFile} {groups : List (List DistFile)}

theorem expands_iff :
    Expands engine disk targets dist ↔
      ∃ accepted sources, Target.readAll targets = .ok accepted ∧
        engine.sourcesOf disk = .ok sources ∧
        ∃ target ∈ accepted, ∃ files,
          Expansion.filesOf disk engine.root engine.sourceDir sources target = .ok files ∧
            dist ∈ files := by
  have fresh (target : Target) (sources : List SourceFile) :=
    (@Expansion.expand_eq _ _ _ engine.sourceDir sources
      (Cache.sound_fresh disk engine.root engine.options.exclude) target).1
  simp only [Expands, fresh]

/-- A run processes what its targets are expanded into. -/
theorem Plans.mem_flatten_iff (plans : Plans engine disk targets groups) :
    dist ∈ groups.flatten ↔ Expands engine disk targets dist := by
  rw [expands_iff]
  constructor
  · intro mem
    cases plans with
    | noTarget => contradiction
    | noSource => contradiction
    | files read _ found _ expanded =>
        rcases List.mem_flatten.1 mem with ⟨files, filesMem, distMem⟩
        obtain ⟨target, targetMem, expansion⟩ := exists_of_mem_forall₂ expanded filesMem
        exact ⟨_, _, read, found, target, targetMem, files, expansion, distMem⟩
  · rintro ⟨accepted, sources, read, found, target, targetMem, files, expansion, distMem⟩
    cases plans with
    | noTarget other =>
        rw [read] at other
        cases other
        contradiction
    | noSource other _ noneFound =>
        -- without sources there is no candidate
        rw [found] at noneFound
        cases noneFound
        obtain ⟨_, _, source, sourceMem, _⟩ := Expansion.exists_of_mem_filesOf expansion distMem
        contradiction
    | files other _ foundAgain _ expanded =>
        rw [read] at other
        rw [found] at foundAgain
        cases other
        cases foundAgain
        obtain ⟨same, sameMem, expansionAgain⟩ := exists_of_mem_forall₂ expanded.flip targetMem
        rw [expansion] at expansionAgain
        cases expansionAgain
        exact List.mem_flatten.2 ⟨files, sameMem, distMem⟩

/-- Discovered sources stand in the source directory. -/
theorem stand_of_sourcesOf
    (plainSources : LeadsToPlainTree disk (engine.root.join engine.sourceDir))
    {sources : List SourceFile} (found : engine.sourcesOf disk = .ok sources) :
    ∀ source ∈ sources, ∃ place, place ≠ [] ∧
      Mapping.StandsIn source.path (Path.ofText engine.sourceDir) place := by
  intro source mem
  obtain ⟨_, place, -, -, nonempty, stands⟩ := exists_of_mem_discover plainSources found mem
  exact ⟨place, nonempty, stands⟩

/-- Where a path of a run comes from: a target that was asked for, and a source that was
discovered, mentions directives and can be built into the path. -/
structure IsOrigin (engine : Engine) (disk : Disk) (targets : List Text) (source : SourceFile)
    (target : Target) (path : Path) : Prop where
  requested : ∃ accepted, Target.readAll targets = .ok accepted ∧ target ∈ accepted
  discovered : ∃ sources, engine.sourcesOf disk = .ok sources ∧ source ∈ sources
  mentioned : Directive.mentioned source.content = true
  candidate : Expansion.IsCandidate disk engine.root engine.sourceDir source.path target path
  isOutput : IsOutput engine.sourceDir source.path target path

/-- What is known of a file that a target is expanded into. -/
theorem Expands.exists_origin (expands : Expands engine disk targets dist)
    (project : IsPlainProject disk engine.root base)
    (plainSources : LeadsToPlainTree disk (engine.root.join engine.sourceDir)) :
    disk.isFile (engine.root.join dist.path.text) = true ∧
      ∃ source target, dist.target = target.text ∧
        IsOrigin engine disk targets source target dist.path := by
  obtain ⟨accepted, sources, read, found, target, targetMem, files, expansion, distMem⟩ :=
    expands_iff.1 expands
  obtain ⟨isFile, labelled, _⟩ := Expansion.exists_of_mem_filesOf expansion distMem
  obtain ⟨source, sourceMem, candidate, isOutput⟩ :=
    exists_isOutput_of_mem_filesOf project.toIsProject
    project.plain (stand_of_sourcesOf plainSources found)
    ((Target.accepted_of_readAll read).proper target targetMem) expansion distMem
  obtain ⟨_, _, -, isSource, _⟩ := exists_of_mem_discover plainSources found sourceMem
  exact ⟨isFile, source, target, labelled, ⟨accepted, read, targetMem⟩, ⟨sources, found, sourceMem⟩,
    isSource.mentioned, candidate, isOutput⟩

theorem Expands.isDist (expands : Expands engine disk targets dist)
    (project : IsPlainProject disk engine.root base)
    (plainSources : LeadsToPlainTree disk (engine.root.join engine.sourceDir)) :
    IsDistPath dist.path := by
  obtain ⟨_, _, _, _, origin⟩ := expands.exists_origin project plainSources
  exact origin.isOutput.isDist

theorem areSiblings_of_isCandidate (project : IsProject disk root base)
    (plain : HasPlainNames disk base) {sourceDir : Text} {target : Target}
    (proper : target.IsProper) {source file : Path} {place : List Text}
    (stands : Mapping.StandsIn source (Path.ofText sourceDir) place)
    (isCandidate : Expansion.IsCandidate disk root sourceDir source target file)
    {candidate : Path} (traced : candidate ∈ Mapping.reverse file sourceDir) :
    Mapping.AreSiblings source candidate := by
  cases isCandidate with
  | flat flat mem =>
      obtain ⟨_, _, notLibraries, _, _, segments⟩ := exists_top_of_flatRoot flat
      exact Mapping.areSiblings_of_mem_forwardFlat stands segments notLibraries mem traced
  | library listed mem =>
      have libraryPlain := proper.isPlainName
      exact Mapping.areSiblings_of_mem_forwardLibrary stands libraryPlain
        (fun _ => isPlainName_of_mem_registriesIn project plain libraryPlain listed) mem traced
  | allLibraries found known listed mem =>
      have libraryPlain := isPlainName_of_mem_librariesIn project plain found known
      exact Mapping.areSiblings_of_mem_forwardLibrary stands libraryPlain
        (fun _ => isPlainName_of_mem_registriesIn project plain libraryPlain listed) mem traced

/-- A run that expands a file gets to the candidates for its source: they stand beside a source that
it discovered. -/
theorem Expands.maySearch (expands : Expands engine disk targets dist)
    (project : IsPlainProject disk engine.root base)
    (isSourceDirectory : IsSourceDirectory (Path.ofText engine.sourceDir)) {candidate : Path}
    (traced : candidate ∈ Mapping.reverse dist.path engine.sourceDir) :
    Disk.MaySearch disk base candidate.segments := by
  have spellsDirectory := isSourceDirectory.spells engine.root
  have plainSources := project.leadsToPlainTree_of_spells project.plain spellsDirectory
  obtain ⟨-, source, target, -, origin⟩ := expands.exists_origin project plainSources
  obtain ⟨accepted, read, targetMem⟩ := origin.requested
  obtain ⟨sources, found, mem⟩ := origin.discovered
  obtain ⟨full, place, spells, isSource, -, stands⟩ :=
    exists_of_mem_discover plainSources found mem
  obtain ⟨front, name, other, segments, candidateSegments⟩ :=
    areSiblings_of_isCandidate project.toIsProject project.plain
      ((Target.accepted_of_readAll read).proper target targetMem) stands origin.candidate traced
  obtain ⟨bytes, readBytes⟩ : ∃ bytes, disk.readBytes full = .ok bytes := by
    have content := isSource.content
    rw [Disk.readText] at content
    cases read : disk.readBytes full with
    | error error => simp [read, bind, Except.bind] at content
    | ok bytes => exact ⟨bytes, rfl⟩
  have reached :=
    ((project.readBytes_eq_ok_iff (spellsDirectory.append spells)).1 readBytes).1.searches
  rw [← stands.segments, segments] at reached
  rw [candidateSegments]
  exact reached.sibling other

/-- The files of a run do not get in each other's way. -/
theorem Plans.areApart (plans : Plans engine disk targets groups)
    (project : IsPlainProject disk engine.root base)
    (plainSources : LeadsToPlainTree disk (engine.root.join engine.sourceDir)) :
    AreApart groups.flatten := by
  constructor
  · exact fun dist mem => (plans.mem_flatten_iff.1 mem).isDist project plainSources
  · cases plans with
    | noTarget => exact .nil
    | noSource => exact .nil
    | files read _ found _ expanded =>
        exact pairwise_flatten project.toIsProject project.plain
          (stand_of_sourcesOf plainSources found)
          (Target.accepted_of_readAll read) expanded

end DistDirectives.Run.Engine
