import Mathlib.Data.List.Find
import DistDirectives.Proofs.Mapping.Origins
import DistDirectives.Proofs.Run.Coverage
import DistDirectives.Run.Processing

/-!
# Base bytes

The directives of a distribution file are applied to its base bytes: those of its source,
or its own when there is no source to take them from. As long as sources and distributions
lie apart, the base bytes of a file depend on the source tree and on nothing else but the
file itself.

The source is the first candidate that is a file. It stands in the place that the distribution
file mirrors, whatever the disk holds (`resolveSource_mirrors`).
-/

namespace DistDirectives.Run

open Disk (IsProject SameAt Spells)
open DistDirectives.Path (IsPlainName)

/-! ## The source of a distribution file -/

/-- The source is a candidate that is a file, and no candidate before it is one. -/
theorem resolveSource_eq_some_iff {disk : Disk} {root dist source : Path} {sourceDir : Text} :
    resolveSource disk root sourceDir dist = some source ↔
      ∃ earlier later, Mapping.reverse dist sourceDir = earlier ++ source :: later ∧
        disk.isFile (root.join source.text) = true ∧
          ∀ other ∈ earlier, disk.isFile (root.join other.text) = false := by
  rw [resolveSource, List.find?_eq_some_iff_append]
  constructor
  · rintro ⟨isFile, earlier, later, split, missing⟩
    exact ⟨earlier, later, split, isFile, fun other mem => by simpa using missing other mem⟩
  · rintro ⟨earlier, later, split, isFile, missing⟩
    exact ⟨isFile, earlier, later, split, fun other mem => by simpa using missing other mem⟩

/-- A distribution file is traced back to its own place: it has candidates exactly when its names
mirror a place below the source directory, all of them stand in that place, under its source names,
none is listed twice, and the first that is a file is its source. -/
theorem resolveSource_mirrors (disk : Disk) (root : Path) (sourceDir : Text) (dist : Path) :
    (Mapping.reverse dist sourceDir ≠ [] ↔
      ∃ origin directories name,
        Mapping.Mirrors sourceDir (directories ++ [name]) dist.segments origin) ∧
      (∀ origin directories name,
        Mapping.Mirrors sourceDir (directories ++ [name]) dist.segments origin →
        ∀ source, source ∈ Mapping.reverse dist sourceDir ↔
          source.isAbsolute = origin.isAbsolute ∧
            ∃ sourceName, Mapping.IsSourceName name sourceName ∧
            source.segments = origin.segments ++ (directories ++ [sourceName])) ∧
        (Mapping.reverse dist sourceDir).Nodup ∧
          ∀ source, resolveSource disk root sourceDir dist = some source ↔
            ∃ earlier later, Mapping.reverse dist sourceDir = earlier ++ source :: later ∧
              disk.isFile (root.join source.text) = true ∧
                ∀ other ∈ earlier, disk.isFile (root.join other.text) = false :=
  ⟨Mapping.reverse_ne_nil_iff, fun _ _ _ mirrors _ => Mapping.mem_reverse_iff_of_mirrors mirrors,
    Mapping.nodup_reverse dist sourceDir, fun _ => resolveSource_eq_some_iff⟩

/-- A library with one source. -/
def scriptDisk : Disk :=
  Disk.empty
    |>.store ["src".toList] (.directory Node.directoryMode)
    |>.store ["src".toList, "libs".toList] (.directory Node.directoryMode)
    |>.store ["src".toList, "libs".toList, "sdk".toList] (.directory Node.directoryMode)
    |>.store ["src".toList, "libs".toList, "sdk".toList, "x.js".toList] (.file [120] Node.fileMode)

/-- The declarations of a library are traced back to its script, behind a candidate that is missing.
-/
theorem resolveSource_mirrors_library :
    let dist := Path.ofText "dist-libs/sdk/jsr/bin/x.d.ts".toList
    Path.ofText "src/libs/sdk/x.js".toList ∈ Mapping.reverse dist "./src".toList ∧
      ∃ earlier later, Mapping.reverse dist "./src".toList =
          earlier ++ Path.ofText "src/libs/sdk/x.js".toList :: later ∧
        scriptDisk.isFile ((Path.ofText ['/']).join (Path.ofText "src/libs/sdk/x.js".toList).text) =
          true ∧
          ∀ other ∈ earlier, scriptDisk.isFile ((Path.ofText ['/']).join other.text) = false := by
  intro dist
  obtain ⟨-, candidates, -, resolves⟩ :=
    resolveSource_mirrors scriptDisk (Path.ofText ['/']) "./src".toList dist
  have names : dist.segments = "dist-libs".toList :: "sdk".toList :: "jsr".toList :: "bin".toList ::
      ([] ++ ["x.d.ts".toList]) := by decide
  have mirrors : Mapping.Mirrors "./src".toList ([] ++ ["x.d.ts".toList]) dist.segments
      (Mapping.librarySourceRoot "./src".toList "sdk".toList) :=
    names ▸ .library (by decide)
  have shortened :
      Mapping.IsSourceName "x.d.ts".toList (Mapping.withExtension "x".toList "js".toList) :=
    .declaration (by decide) (by decide)
  exact ⟨(candidates _ _ _ mirrors _).2 ⟨by decide, _, shortened, by decide⟩,
    (resolves _).1 (by decide +kernel)⟩

/-! ## Base bytes -/

/-- The bytes from which the final content of a distribution file is computed: those of
its source if these are asked for and there is one, and its own otherwise. -/
def baseBytes (setting : Setting) (disk : Disk) (dist : Path) : Except DiskError Bytes :=
  match if setting.fresh then resolveSource disk setting.root setting.sourceDir dist else none with
  | some source => disk.readBytes (setting.root.join source.text)
  | none => disk.readBytes (setting.root.join dist.text)

theorem refresh_bytes {setting : Setting} {disk : Disk} {dist : Path} {current : Bytes}
    (read : disk.readBytes (setting.root.join dist.text) = .ok current) :
    (refresh disk setting.root setting.sourceDir setting.fresh dist current).map (·.bytes) =
      baseBytes setting disk dist := by
  rw [refresh, baseBytes]
  cases setting.fresh with
  | false => exact read.symm
  | true =>
      simp only [if_true]
      cases resolveSource disk setting.root setting.sourceDir dist with
      | none => exact read.symm
      | some source =>
          simp only
          cases disk.readBytes (setting.root.join source.text) <;> rfl

/-! ## What they depend on -/

/-- The names of the path of a distribution file, behind the root. -/
theorem IsDistPath.spells {path : Path} (isDist : IsDistPath path) (root : Path) :
    Spells root (root.join path.text) path.segments := by
  refine ⟨?_, Disk.descends_of_plain isDist.plain⟩
  rw [Path.segments_join, Path.ofText_text]

/-- A source directory that lies in the project and apart from all distributions. -/
structure IsSourceDirectory (directory : Path) : Prop where
  relative : directory.isAbsolute = false
  nonempty : directory.segments ≠ []
  noDots : ['.', '.'] ∉ directory.segments
  apart : ∀ top ∈ distDirectories, directory.segments.head? ≠ some top

theorem IsSourceDirectory.plain {directory : Path}
    (isSourceDirectory : IsSourceDirectory directory) :
    ∀ segment ∈ directory.segments, IsPlainName segment := fun _ mem =>
  ⟨Path.isSegment_of_mem_segments mem, fun dots => isSourceDirectory.noDots (dots ▸ mem)⟩

theorem IsSourceDirectory.spells {sourceDir : Text}
    (isSourceDirectory : IsSourceDirectory (Path.ofText sourceDir)) (root : Path) :
    Spells root (root.join sourceDir) (Path.ofText sourceDir).segments :=
  ⟨Path.segments_join root sourceDir, Disk.descends_of_plain isSourceDirectory.plain⟩

/-- No distribution file stands in the source directory. -/
theorem IsSourceDirectory.ne_segments {directory dist : Path}
    (isSourceDirectory : IsSourceDirectory directory) (isDist : IsDistPath dist)
    (place : List Text) :
    directory.segments ++ place ≠ dist.segments := by
  rcases isDist.top with ⟨top, topMem, rest, _, segments⟩
  intro same
  have head := congrArg List.head? same
  rw [segments, List.head?_append_of_ne_nil _ isSourceDirectory.nonempty, List.head?_cons] at head
  exact isSourceDirectory.apart top topMem head

/-- Two projects have the same source tree. -/
def SameSourceTree (sourceDir : Path) (disk : Disk) (base : Location) (other : Disk)
    (otherBase : Location) : Prop :=
  ∀ place, other.get? (otherBase ++ (sourceDir.segments ++ place)) =
    disk.get? (base ++ (sourceDir.segments ++ place))

/-- Two projects have the same source tree, and a process finds its way in it alike. -/
def SameSources (sourceDir : Path) (disk : Disk) (base : Location) (other : Disk)
    (otherBase : Location) : Prop :=
  ∀ place, SameAt disk base other otherBase (sourceDir.segments ++ place)

section

variable {setting : Setting} {disk other : Disk} {base otherBase : Location} {dist : Path}

theorem spells_of_mem_reverse
    (isSourceDirectory : IsSourceDirectory (Path.ofText setting.sourceDir))
    (isDist : IsDistPath dist) {source : Path}
    (mem : source ∈ Mapping.reverse dist setting.sourceDir) :
    ∃ place, Spells setting.root (setting.root.join source.text)
      ((Path.ofText setting.sourceDir).segments ++ place) := by
  obtain ⟨place, _, placePlain, segments⟩ := Mapping.segments_of_mem_reverse isDist.plain mem
  refine ⟨place, ?_, Disk.descends_of_plain ?_⟩
  · rw [Path.segments_join, Path.ofText_text, segments]
  · intro name nameMem
    rcases List.mem_append.1 nameMem with inDirectory | inPlace
    · exact isSourceDirectory.plain name inDirectory
    · exact placePlain name inPlace

/-- Two projects have the same candidates for the source of a distribution file, and a process gets
to them alike. -/
def SameCandidates (setting : Setting) (disk : Disk) (base : Location) (other : Disk)
    (otherBase : Location) (dist : Path) : Prop :=
  ∀ source ∈ Mapping.reverse dist setting.sourceDir, ∃ names,
    Spells setting.root (setting.root.join source.text) names ∧
      SameAt disk base other otherBase names

theorem SameSources.sameCandidates
    (sources : SameSources (Path.ofText setting.sourceDir) disk base other otherBase)
    (isSourceDirectory : IsSourceDirectory (Path.ofText setting.sourceDir))
    (isDist : IsDistPath dist) : SameCandidates setting disk base other otherBase dist := by
  intro source mem
  obtain ⟨place, spells⟩ := spells_of_mem_reverse isSourceDirectory isDist mem
  exact ⟨_, spells, sources place⟩

/-- The source of a distribution file depends on its candidates only. -/
theorem resolveSource_congr (project : IsProject disk setting.root base)
    (otherProject : IsProject other setting.root otherBase)
    (candidates : SameCandidates setting disk base other otherBase dist) :
    resolveSource other setting.root setting.sourceDir dist =
      resolveSource disk setting.root setting.sourceDir dist := by
  refine List.find?_congr fun source mem => ?_
  obtain ⟨names, spells, same⟩ := candidates source mem
  exact project.isFile_congr otherProject spells same

/-- The base bytes of a distribution file come from a source. -/
def HasSource (setting : Setting) (disk : Disk) (dist : Path) : Prop :=
  setting.fresh = true ∧ resolveSource disk setting.root setting.sourceDir dist ≠ none

/-- Two projects with the same candidates read the base bytes of a distribution file at the same
path, where both of them hold the same: at its source, or at the file itself if it has none. -/
theorem exists_spells_of_baseBytes (project : IsProject disk setting.root base)
    (otherProject : IsProject other setting.root otherBase) (isDist : IsDistPath dist)
    (candidates : SameCandidates setting disk base other otherBase dist)
    (own : HasSource setting disk dist ∨ SameAt disk base other otherBase dist.segments) :
    ∃ path names, Spells setting.root path names ∧ SameAt disk base other otherBase names ∧
      (HasSource setting disk dist ∨ disk.isFile (setting.root.join dist.text) = true →
        disk.isFile path = true) ∧
      baseBytes setting disk dist = disk.readBytes path ∧
      baseBytes setting other dist = other.readBytes path := by
  rw [baseBytes, baseBytes,
    resolveSource_congr project otherProject candidates]
  cases origin : (if setting.fresh then resolveSource disk setting.root setting.sourceDir dist
      else none) with
  | some source =>
      have resolved : resolveSource disk setting.root setting.sourceDir dist = some source := by
        cases fresh : setting.fresh <;> simp_all
      have mem := List.mem_of_find?_eq_some resolved
      obtain ⟨names, spells, same⟩ := candidates source mem
      rw [resolveSource] at resolved
      have isFile := List.find?_some resolved
      exact ⟨_, _, spells, same, fun _ => isFile, rfl, rfl⟩
  | none =>
      rcases own with ⟨fresh, resolves⟩ | same
      · rw [if_pos fresh] at origin
        exact absurd origin resolves
      · refine ⟨_, _, isDist.spells setting.root, same, ?_, rfl, rfl⟩
        rintro (⟨fresh, resolves⟩ | stands)
        · rw [if_pos fresh] at origin
          exact absurd origin resolves
        · exact stands

/-- The base bytes of a distribution file depend on its candidates, on the rights of the process,
and on the file itself if it has no source. -/
theorem baseBytes_congr (project : IsProject disk setting.root base)
    (otherProject : IsProject other setting.root otherBase)
    (rights : other.privileged = disk.privileged) (isDist : IsDistPath dist)
    (candidates : SameCandidates setting disk base other otherBase dist)
    (own : HasSource setting disk dist ∨ SameAt disk base other otherBase dist.segments ∧
      disk.isFile (setting.root.join dist.text) = true) :
    baseBytes setting other dist = baseBytes setting disk dist := by
  obtain ⟨path, names, spells, same, stands, basis, otherBasis⟩ :=
    exists_spells_of_baseBytes project otherProject isDist candidates (own.imp_right And.left)
  have isFile := stands (own.imp_right And.right)
  rw [basis, otherBasis, project.readBytes_congr otherProject spells rights same isFile]

/-- Whatever the rights, there is one answer to what the base bytes are. -/
theorem baseBytes_unique (project : IsProject disk setting.root base)
    (otherProject : IsProject other setting.root otherBase) (isDist : IsDistPath dist)
    (candidates : SameCandidates setting disk base other otherBase dist)
    (own : HasSource setting disk dist ∨ SameAt disk base other otherBase dist.segments)
    {bytes otherBytes : Bytes} (basis : baseBytes setting disk dist = .ok bytes)
    (otherBasis : baseBytes setting other dist = .ok otherBytes) : otherBytes = bytes := by
  obtain ⟨path, names, spells, same, -, read, otherRead⟩ :=
    exists_spells_of_baseBytes project otherProject isDist candidates own
  rw [read] at basis
  rw [otherRead] at otherBasis
  obtain ⟨-, mode, held, -⟩ := (project.readBytes_eq_ok_iff spells).1 basis
  obtain ⟨-, otherMode, otherHeld, -⟩ := (otherProject.readBytes_eq_ok_iff spells).1 otherBasis
  rw [same.held, held] at otherHeld
  cases otherHeld
  rfl

end

end DistDirectives.Run
