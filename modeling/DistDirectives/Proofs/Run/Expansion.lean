import DistDirectives.Run.Engine
import DistDirectives.Proofs.Run.Discovery

/-!
# Expanded targets

What a target is expanded into does not depend on what was asked for before, since the
cache only remembers what listings on the same disk yield. Every expanded file exists and
is a possible output of a source, and no path is expanded twice for a target.
-/

namespace DistDirectives.Run

/-! ## The cache is transparent -/

/-- The libraries of a project. -/
def librariesIn (disk : Disk) (root : Path) : Except Failure (List Text) :=
  Cache.subdirectories disk (root.join Target.librariesDirectory)

/-- The registries of a library of a project. -/
def registriesIn (disk : Disk) (root : Path) (library : Text) : Except Failure (List Text) :=
  Cache.subdirectories disk ((root.join Target.librariesDirectory).join library)

/-- A cache of a project that remembers what is listed on a disk. -/
structure Cache.Sound (cache : Cache) (disk : Disk) (root : Path) : Prop where
  root_eq : cache.root = root
  libraries : ∀ names, cache.libraries = some names → librariesIn disk root = .ok names
  registries : ∀ library names, cache.registries.lookup library = some names →
    registriesIn disk root library = .ok names

namespace Cache

variable {cache : Cache} {disk : Disk} {root : Path}

theorem sound_fresh (disk : Disk) (root : Path) (exclude : List Text) :
    (fresh root exclude).Sound disk root :=
  ⟨rfl, by simp [fresh], by simp [fresh]⟩

theorem Sound.findLibraries (sound : cache.Sound disk root) :
    (cache.findLibraries disk).1 = librariesIn disk root ∧
      (cache.findLibraries disk).2.Sound disk root := by
  rcases sound with ⟨rfl, libraries, registries⟩
  rw [Cache.findLibraries]
  cases remembered : cache.libraries with
  | some names => exact ⟨(libraries names remembered).symm, rfl, libraries, registries⟩
  | none =>
      simp only [librariesPath, librariesIn]
      cases listed : subdirectories disk (cache.root.join Target.librariesDirectory) with
      | error failure => exact ⟨rfl, rfl, by simp, registries⟩
      | ok names =>
          refine ⟨rfl, rfl, ?_, registries⟩
          intro others same
          cases same
          exact listed

theorem Sound.findRegistries (sound : cache.Sound disk root) (library : Text) :
    (cache.findRegistries disk library).1 = registriesIn disk root library ∧
      (cache.findRegistries disk library).2.Sound disk root := by
  rcases sound with ⟨rfl, libraries, registries⟩
  rw [Cache.findRegistries]
  cases remembered : cache.registries.lookup library with
  | some names => exact ⟨(registries library names remembered).symm, rfl, libraries, registries⟩
  | none =>
      simp only [libraryPath, librariesPath, registriesIn]
      cases listed :
        subdirectories disk ((cache.root.join Target.librariesDirectory).join library) with
      | error failure => exact ⟨rfl, rfl, libraries, registries⟩
      | ok names =>
          refine ⟨rfl, rfl, libraries, ?_⟩
          intro other others found
          simp only [List.lookup_cons] at found
          split at found
          · rename_i same
            cases found
            rw [beq_iff_eq.1 same]
            exact listed
          · exact registries other others found

end Cache

namespace Expansion

/-- The candidates in several libraries, looked for without a cache. -/
def librariesFiles (disk : Disk) (root : Path) (sourceDir label : Text)
    (sources : List SourceFile) :
    List Text → Except Failure (List DistFile)
  | [] => .ok []
  | library :: libraries =>
    match registriesIn disk root library with
    | .error failure => .error failure
    | .ok registries =>
      match librariesFiles disk root sourceDir label sources libraries with
      | .error failure => .error failure
      | .ok more => .ok (libraryCandidates sourceDir label library registries sources ++ more)

/-- The libraries that a target asks for. -/
def librariesOf (disk : Disk) (root : Path) : Target → Except Failure (List Text)
  | .library library => .ok [library]
  | _ => librariesIn disk root

/-- The candidates of a target, looked for without a cache. -/
def candidatesOf (disk : Disk) (root : Path) (sourceDir : Text) (sources : List SourceFile)
    (target : Target) : Except Failure (List DistFile) :=
  match target.flatRoot? with
  | some flatRoot =>
    match disk.requireDirectory (root.join flatRoot) with
    | .error error => .error (.discovery (root.join flatRoot) error)
    | .ok () => .ok (flatCandidates sourceDir flatRoot target.text sources)
  | none =>
    match librariesOf disk root target with
    | .error failure => .error failure
    | .ok libraries => librariesFiles disk root sourceDir target.text sources libraries

/-- The files that exist among candidates, each path once. -/
def existing (disk : Disk) (root : Path) (candidates : List DistFile) : List DistFile :=
  (distinct [] candidates).filter fun file => disk.isFile (root.join file.path.text)

/-- The existing distribution files of a target, looked for without a cache. -/
def filesOf (disk : Disk) (root : Path) (sourceDir : Text) (sources : List SourceFile)
    (target : Target) : Except Failure (List DistFile) :=
  (candidatesOf disk root sourceDir sources target).map (existing disk root)

variable {cache : Cache} {disk : Disk} {root : Path} {sourceDir : Text} {sources : List SourceFile}

theorem allCandidates_eq (sound : cache.Sound disk root) (label : Text) (libraries : List Text) :
    (allCandidates disk sourceDir label sources libraries cache).1 =
        librariesFiles disk root sourceDir label sources libraries ∧
      (allCandidates disk sourceDir label sources libraries cache).2.Sound disk root := by
  induction libraries generalizing cache with
  | nil => exact ⟨rfl, sound⟩
  | cons library libraries ih =>
      obtain ⟨listed, soundThen⟩ := sound.findRegistries library
      rw [allCandidates, librariesFiles, ← listed]
      cases found : cache.findRegistries disk library with
      | mk registries after =>
          rw [found] at soundThen
          cases registries with
          | error failure => exact ⟨rfl, soundThen⟩
          | ok registries =>
              obtain ⟨others, soundAfter⟩ := ih soundThen
              simp only [← others]
              cases more : allCandidates disk sourceDir label sources libraries after with
              | mk files last =>
                  rw [more] at soundAfter
                  cases files with
                  | error failure => exact ⟨rfl, soundAfter⟩
                  | ok files => exact ⟨rfl, soundAfter⟩

theorem candidates_eq (sound : cache.Sound disk root) (target : Target) :
    (candidates disk cache sourceDir target sources).1 =
        candidatesOf disk root sourceDir sources target ∧
      (candidates disk cache sourceDir target sources).2.Sound disk root := by
  unfold candidates candidatesOf
  cases flat : target.flatRoot? with
  | some flatRoot =>
      simp only [sound.root_eq]
      cases disk.requireDirectory (root.join flatRoot) with
      | error error => exact ⟨rfl, sound⟩
      | ok => exact ⟨rfl, sound⟩
  | none =>
      cases target with
      | npm => contradiction
      | jsr => contradiction
      | library library => exact allCandidates_eq sound _ [library]
      | allLibraries =>
          rcases sound.findLibraries with ⟨listed, soundThen⟩
          simp only [librariesOf, ← listed]
          cases found : cache.findLibraries disk with
          | mk libraries after =>
              rw [found] at soundThen
              cases libraries with
              | error failure => exact ⟨rfl, soundThen⟩
              | ok libraries => exact allCandidates_eq soundThen _ libraries

theorem expand_eq (sound : cache.Sound disk root) (target : Target) :
    (expand disk cache sourceDir target sources).1 = filesOf disk root sourceDir sources target ∧
      (expand disk cache sourceDir target sources).2.Sound disk root := by
  obtain ⟨found, soundThen⟩ := @candidates_eq cache disk root sourceDir sources sound target
  rw [expand, filesOf, ← found]
  cases same : candidates disk cache sourceDir target sources with
  | mk files after =>
      rw [same] at soundThen
      cases files with
      | error failure => exact ⟨rfl, soundThen⟩
      | ok files =>
          refine ⟨?_, soundThen⟩
          have root_eq : after.root = root := soundThen.root_eq
          simp only [root_eq]
          rfl

/-- All targets are expanded as each of them is by itself. -/
theorem expandAll_eq (sound : cache.Sound disk root) (targets : List Target) :
    Engine.expandAll disk sourceDir sources targets cache =
      targets.mapM (filesOf disk root sourceDir sources) := by
  induction targets generalizing cache with
  | nil => rfl
  | cons target targets ih =>
      obtain ⟨found, soundThen⟩ := @expand_eq cache disk root sourceDir sources sound target
      rw [Engine.expandAll, List.mapM_cons, ← found]
      cases same : expand disk cache sourceDir target sources with
      | mk files after =>
          rw [same] at soundThen
          cases files with
          | error failure => rfl
          | ok files =>
              simp only [ih soundThen]
              rfl

/-! ## Expanded files come from sources -/

/-- A path is a possible output of a source for a target, with the libraries and the
registries that are on the disk. -/
inductive IsCandidate (disk : Disk) (root : Path) (sourceDir : Text) (source : Path) :
    Target → Path → Prop
  | flat {target : Target} {flatRoot : Text} {dist : Path} (flat : target.flatRoot? = some flatRoot)
      (mem : dist ∈ Mapping.forwardFlat source sourceDir flatRoot) :
      IsCandidate disk root sourceDir source target dist
  | library {name registry : Text} {registries : List Text} {dist : Path}
      (listed : registriesIn disk root name = .ok registries)
      (mem : (registry, dist) ∈ Mapping.forwardLibrary source sourceDir name registries) :
      IsCandidate disk root sourceDir source (.library name) dist
  | allLibraries {libraries registries : List Text} {name registry : Text} {dist : Path}
      (found : librariesIn disk root = .ok libraries) (known : name ∈ libraries)
      (listed : registriesIn disk root name = .ok registries)
      (mem : (registry, dist) ∈ Mapping.forwardLibrary source sourceDir name registries) :
      IsCandidate disk root sourceDir source .allLibraries dist

theorem exists_of_mem_librariesFiles {label : Text} {libraries : List Text} {files : List DistFile}
    (found : librariesFiles disk root sourceDir label sources libraries = .ok files)
    {file : DistFile}
    (mem : file ∈ files) :
    file.target = label ∧ ∃ library ∈ libraries, ∃ registries registry,
      registriesIn disk root library = .ok registries ∧
        ∃ source ∈ sources,
          (registry, file.path) ∈ Mapping.forwardLibrary source.path sourceDir library
            registries := by
  induction libraries generalizing files with
  | nil =>
      cases found
      contradiction
  | cons library libraries ih =>
      rw [librariesFiles] at found
      split at found
      · contradiction
      rename_i registries listed
      split at found
      · contradiction
      rename_i more others
      cases found
      rcases List.mem_append.1 mem with here | later
      · rw [libraryCandidates, List.mem_flatMap] at here
        rcases here with ⟨source, sourceMem, isOutput⟩
        rcases List.mem_map.1 isOutput with ⟨candidate, candidateMem, rfl⟩
        exact ⟨rfl, library, by
          simp, registries, candidate.1, listed, source, sourceMem, candidateMem⟩
      · obtain ⟨labelled, other, otherMem, rest⟩ := ih others later
        exact ⟨labelled, other, by simp [otherMem], rest⟩

theorem exists_of_mem_candidatesOf {target : Target} {files : List DistFile}
    (found : candidatesOf disk root sourceDir sources target = .ok files) {file : DistFile}
    (mem : file ∈ files) :
    file.target = target.text ∧
      ∃ source ∈ sources, IsCandidate disk root sourceDir source.path target file.path := by
  rw [candidatesOf] at found
  split at found
  · rename_i flatRoot flat
    split at found
    · contradiction
    cases found
    rw [flatCandidates, List.mem_flatMap] at mem
    rcases mem with ⟨source, sourceMem, isOutput⟩
    rcases List.mem_map.1 isOutput with ⟨path, pathMem, rfl⟩
    exact ⟨rfl, source, sourceMem, .flat flat pathMem⟩
  · rename_i nested
    split at found
    · contradiction
    rename_i libraries listed
    obtain ⟨labelled, library, libraryMem, registries, registry, registered, source,
        sourceMem, mem⟩ :=
      exists_of_mem_librariesFiles found mem
    refine ⟨labelled, source, sourceMem, ?_⟩
    cases target with
    | npm => contradiction
    | jsr => contradiction
    | library name =>
        cases listed
        rw [List.mem_singleton] at libraryMem
        exact .library (libraryMem ▸ registered) (libraryMem ▸ mem)
    | allLibraries => exact .allLibraries listed libraryMem registered mem

/-! ## No path twice -/

theorem mem_of_mem_distinct {seen : List Path} {files : List DistFile} {file : DistFile}
    (mem : file ∈ distinct seen files) : file ∈ files ∧ file.path ∉ seen := by
  induction files generalizing seen with
  | nil => contradiction
  | cons first rest ih =>
      rw [distinct] at mem
      split at mem
      · obtain ⟨later, unseen⟩ := ih mem
        exact ⟨by simp [later], unseen⟩
      · rename_i unseen
        rcases List.mem_cons.1 mem with rfl | later
        · exact ⟨by simp, by simpa using unseen⟩
        · obtain ⟨inRest, fresh⟩ := ih later
          exact ⟨by simp [inRest], fun known => fresh (by simp [known])⟩

theorem pairwise_distinct (seen : List Path) (files : List DistFile) :
    (distinct seen files).Pairwise fun left right => left.path ≠ right.path := by
  induction files generalizing seen with
  | nil => exact .nil
  | cons first rest ih =>
      rw [distinct]
      split
      · exact ih seen
      · refine List.pairwise_cons.2 ⟨fun file mem same => ?_, ih _⟩
        exact (mem_of_mem_distinct mem).2 (by simp [same])

theorem filesOf_eq_ok_iff {target : Target} {files : List DistFile} :
    filesOf disk root sourceDir sources target = .ok files ↔
      ∃ candidates, candidatesOf disk root sourceDir sources target = .ok candidates ∧
        files = existing disk root candidates := by
  rw [filesOf]
  cases candidatesOf disk root sourceDir sources target with
  | error failure => simp [Except.map]
  | ok candidates => simp [Except.map, eq_comm]

/-- Every expanded file exists and is a possible output of a source. -/
theorem exists_of_mem_filesOf {target : Target} {files : List DistFile}
    (found : filesOf disk root sourceDir sources target = .ok files) {file : DistFile}
    (mem : file ∈ files) :
    disk.isFile (root.join file.path.text) = true ∧ file.target = target.text ∧
      ∃ source ∈ sources, IsCandidate disk root sourceDir source.path target file.path := by
  rcases filesOf_eq_ok_iff.1 found with ⟨candidates, all, rfl⟩
  rcases List.mem_filter.1 mem with ⟨isDistinct, isFile⟩
  exact ⟨isFile, exists_of_mem_candidatesOf all (mem_of_mem_distinct isDistinct).1⟩

theorem pairwise_filesOf {target : Target} {files : List DistFile}
    (found : filesOf disk root sourceDir sources target = .ok files) :
    files.Pairwise fun left right => left.path ≠ right.path := by
  rcases filesOf_eq_ok_iff.1 found with ⟨candidates, _, rfl⟩
  exact (pairwise_distinct [] candidates).filter _

end Expansion

end DistDirectives.Run
