import DistDirectives.Proofs.Mapping.RoundTrip
import DistDirectives.Proofs.Run.Reports

/-!
# Two choices of a source

When several sources can be built into one distribution file, a source is chosen twice.
Expansion takes the first one in the order of the walk, among the files that mention
directives; freshness takes the first name in the order of `Mapping.reverse`, among all
files. Both look at the same names, so the second choice is the first one unless a file
stands under an earlier name. That happens: `src/a.js` comes before `src/a.ts` in a walk
and behind it in the order of names.
-/

namespace DistDirectives

namespace Disk

/-- What stands at a path depends on its segments. -/
theorem lookup_congr (disk : Disk) {path other : Path} (same : path.segments = other.segments) :
    disk.lookup path = disk.lookup other := by
  rw [lookup, lookup, same]

theorem lookup_of_requireDirectory {disk : Disk} {path : Path}
    (required : disk.requireDirectory path = .ok ()) :
    ∃ mode, disk.lookup path = .ok (.directory mode) := by
  rw [requireDirectory] at required
  split at required
  · rename_i mode standing
    exact ⟨mode, standing⟩
  · contradiction
  · contradiction

theorem lookup_of_readText {disk : Disk} {path : Path} {content : Text}
    (read : disk.readText path = .ok content) :
    ∃ bytes mode, disk.lookup path = .ok (.file bytes mode) := by
  obtain ⟨bytes, read, -⟩ := bind_eq_ok_iff.1 read
  obtain ⟨mode, standing, -⟩ := readBytes_eq_ok_iff.1 read
  exact ⟨bytes, mode, standing⟩

end Disk

namespace Run

open Discovery

variable {disk : Disk} {root : Path} {exclusions : List Path} {sourceDir : Text}
  {sources : List SourceFile} {source : SourceFile}

/-! ## Sources on any disk -/

/-- Whatever is found below a directory is a file, also behind links and strange names, and
it is found by extending the path of the directory. -/
theorem Discovery.exists_isSource_of_mem_sourcesBelow {depth : Nat} {path : Path}
    (found : sourcesBelow disk root exclusions depth path = .ok sources) (mem : source ∈ sources) :
    ∃ full, path.segments <+: full.segments ∧ IsSource disk root full source := by
  induction depth generalizing path sources with
  | zero => contradiction
  | succ depth ih =>
      rw [sourcesBelow] at found
      split at found
      · contradiction
      rename_i entries listed
      obtain ⟨pieces, visited, rfl⟩ := mapM_flatten_eq_ok_iff.1 found
      obtain ⟨piece, pieceMem, sourceMem⟩ := List.mem_flatten.1 mem
      obtain ⟨entry, entryMem, brought⟩ := exists_of_mem_forall₂ visited pieceMem
      obtain ⟨place, mode, -, -, rfl⟩ := Disk.list_eq_ok_iff.1 listed
      obtain ⟨child, _, rfl⟩ := List.mem_map.1 entryMem
      have deeper : path.segments <+: (path.join child.1).segments := by
        rw [Path.segments_join]
        exact List.prefix_append _ _
      rcases mem_visit brought sourceMem with descended | isSource
      · obtain ⟨full, extends_child, isSource⟩ := ih descended sourceMem
        exact ⟨full, deeper.trans extends_child, isSource⟩
      · exact ⟨_, deeper, isSource⟩

/-- The path of a source leads from the root to the file that was found. -/
theorem Discovery.IsSource.segments {full : Path} (isSource : IsSource disk root full source) :
    full.segments = root.segments ++ source.path.segments ∧
      (root.isEmpty = false → source.path.isAbsolute = false) := by
  have relative := isSource.relative
  rw [Path.relativeTo?, Path.strip?_eq_some_iff, Path.ofText_text] at relative
  split at relative
  · rename_i root_empty
    refine ⟨?_, fun rooted => ?_⟩
    · rw [relative, (Path.isEmpty_iff.1 root_empty).2, List.nil_append]
    · rw [root_empty] at rooted
      contradiction
  · exact ⟨relative.2.2, fun _ => relative.2.1⟩

/-- A discovered source is a file, and it is not the source directory. -/
theorem isFile_of_mem_discover (found : discover disk root sourceDir exclusions = .ok sources)
    (mem : source ∈ sources) :
    disk.isFile (root.join source.path.text) = true ∧
      source.path.segments ≠ (Path.ofText sourceDir).segments ∧
      (root.isEmpty = false → source.path.isAbsolute = false) := by
  obtain ⟨required, depth, below⟩ := exists_sourcesBelow_of_discover found
  obtain ⟨full, _, isSource⟩ := exists_isSource_of_mem_sourcesBelow below mem
  obtain ⟨segments, relative⟩ := isSource.segments
  obtain ⟨bytes, mode, standing⟩ := Disk.lookup_of_readText isSource.content
  refine ⟨?_, ?_, relative⟩
  · have here : (root.join source.path.text).segments = full.segments := by
      rw [Path.segments_join, Path.ofText_text, segments]
    rw [Disk.isFile, disk.lookup_congr here, standing]
  · intro same
    -- a directory stands there
    obtain ⟨startMode, start⟩ := Disk.lookup_of_requireDirectory required
    have here : (root.join sourceDir).segments = full.segments := by
      rw [Path.segments_join, segments, same]
    rw [disk.lookup_congr here, standing, Except.ok.injEq] at start
    contradiction

/-! ## The names that are tried -/

/-- A source is among the names that are tried for its outputs below a flat root, unless
the output is a declaration and the source is none. -/
theorem mem_reverse_of_mem_forwardFlat {target : Target} {flatRoot : Text} {dist : Path}
    (rooted : (root.join sourceDir).isEmpty = false)
    (found : discover disk root sourceDir exclusions = .ok sources) (mem : source ∈ sources)
    (flat : target.flatRoot? = some flatRoot)
    (output : dist ∈ Mapping.forwardFlat source.path sourceDir flatRoot) :
    source.path ∈ Mapping.reverse dist sourceDir ↔
      (Mapping.IsDeclaration dist → Mapping.IsDeclaration source.path) := by
  obtain ⟨_, apart, relative⟩ := isFile_of_mem_discover found mem
  rw [Mapping.forwardFlat] at output
  cases stripped : source.path.strip? sourceDir with
  | none => simp [stripped] at output
  | some rest =>
      simp only [stripped, List.mem_map] at output
      rcases output with ⟨file, fileMem, rfl⟩
      have below : source.path.isAbsolute = (Path.ofText sourceDir).isAbsolute ∧
          rest.isAbsolute = false ∧
          source.path.segments = (Path.ofText sourceDir).segments ++ rest.segments := by
        rw [Path.strip?_eq_some_iff] at stripped
        split at stripped
        · rename_i here
          obtain ⟨hereRelative, hereSegments⟩ := Path.isEmpty_iff.1 here
          have rootNonempty : root.isEmpty = false := by
            by_contra rootEmpty
            rw [Path.join, if_pos (by simpa using rootEmpty), here] at rooted
            contradiction
          subst stripped
          rw [hereRelative, relative rootNonempty, hereSegments]
          exact ⟨rfl, rfl, rfl⟩
        · exact stripped
      obtain ⟨absolute, restRelative, segments⟩ := below
      have nonempty : rest.segments ≠ [] := by
        intro none_left
        rw [none_left, List.append_nil] at segments
        exact apart segments
      apply Mapping.mem_reverse_iff_of_mem_outputs absolute restRelative nonempty
        segments fileMem rfl
      intro place placeNonempty distSegments
      cases target with
      | npm =>
          cases flat
          exact Mapping.originOf?_of_flat (.inl rfl) placeNonempty distSegments
      | jsr =>
          cases flat
          exact Mapping.originOf?_of_flat (.inr rfl) placeNonempty distSegments
      | library name => contradiction
      | allLibraries => contradiction

/-! ## The two choices -/

/-- The first source, in the order of the walk, that can be built into a path below a flat
root. -/
def firstOrigin? (sources : List SourceFile) (sourceDir flatRoot : Text) (dist : Path) :
    Option SourceFile :=
  sources.find? fun source => (Mapping.forwardFlat source.path sourceDir flatRoot).contains dist

/-- An expanded file below a flat root has a first source, whatever the other sources are. -/
theorem exists_firstOrigin {cache : Cache} {target : Target} {flatRoot : Text}
    {files : List DistFile}
    {dist : DistFile} (flat : target.flatRoot? = some flatRoot)
    (expanded : (expand disk cache sourceDir target sources).1 = .ok files) (mem : dist ∈ files) :
    ∃ origin ∈ sources, firstOrigin? sources sourceDir flatRoot dist.path = some origin ∧
      dist.path ∈ Mapping.forwardFlat origin.path sourceDir flatRoot := by
  have candidate :
      ∃ source ∈ sources, dist.path ∈ Mapping.forwardFlat source.path sourceDir flatRoot := by
    simp only [expand, Expansion.candidates, flat] at expanded
    cases required : disk.requireDirectory (cache.root.join flatRoot) with
    | error error => simp [required] at expanded
    | ok =>
        simp only [required, Except.ok.injEq] at expanded
        subst expanded
        obtain ⟨isCandidate, _⟩ := Expansion.mem_of_mem_distinct (List.mem_filter.1 mem).1
        rcases List.mem_flatMap.1 isCandidate with ⟨source, sourceMem, isOutput⟩
        rcases List.mem_map.1 isOutput with ⟨path, pathMem, rfl⟩
        exact ⟨source, sourceMem, pathMem⟩
  rcases candidate with ⟨source, sourceMem, isOutput⟩
  cases first : firstOrigin? sources sourceDir flatRoot dist.path with
  | none =>
      rw [firstOrigin?, List.find?_eq_none] at first
      exact absurd (List.contains_iff_mem.2 isOutput) (first source sourceMem)
  | some origin =>
      exact ⟨origin, List.mem_of_find?_eq_some first, rfl,
        List.contains_iff_mem.1 (List.find?_some (p := fun source : SourceFile =>
          (Mapping.forwardFlat source.path sourceDir flatRoot).contains dist.path) first)⟩

/-- Freshness reads an expanded file from the first existing one of the names that precede
its first source in the order of names, and from that source if there is none. So the two
choices agree exactly when no file stands under an earlier name; the exception are
declarations of sources that are none, which are not traced back. An empty path names no
directory. -/
theorem resolveSource_eq_firstOrigin_iff {cache : Cache} {target : Target} {flatRoot : Text}
    {files : List DistFile} {dist : DistFile} (rooted : (cache.root.join sourceDir).isEmpty = false)
    (found : discover disk cache.root sourceDir exclusions = .ok sources)
    (flat : target.flatRoot? = some flatRoot)
    (expanded : (expand disk cache sourceDir target sources).1 = .ok files) (mem : dist ∈ files) :
    ∃ origin, firstOrigin? sources sourceDir flatRoot dist.path = some origin ∧
      (resolveSource disk cache.root sourceDir dist.path = some origin.path ↔
        (Mapping.IsDeclaration dist.path → Mapping.IsDeclaration origin.path) ∧
          ∀ earlier ∈ (Mapping.reverse dist.path sourceDir).takeWhile (· ≠ origin.path),
            disk.isFile (cache.root.join earlier.text) = false) ∧
      ((Mapping.IsDeclaration dist.path → Mapping.IsDeclaration origin.path) →
        resolveSource disk cache.root sourceDir dist.path =
          some ((((Mapping.reverse dist.path sourceDir).takeWhile (· ≠ origin.path)).find?
            fun earlier =>
            disk.isFile (cache.root.join earlier.text)).getD origin.path)) := by
  obtain ⟨origin, originMem, first, output⟩ := exists_firstOrigin flat expanded mem
  have traced := mem_reverse_of_mem_forwardFlat rooted found originMem flat output
  have isFile := (isFile_of_mem_discover found originMem).1
  have chosen (declared : Mapping.IsDeclaration dist.path → Mapping.IsDeclaration origin.path) :=
    @find?_eq_getD_takeWhile Path _ _ _ (fun name => disk.isFile (cache.root.join name.text))
      (traced.2 declared) isFile
  refine ⟨origin, first, ?_, chosen⟩
  constructor
  · intro agree
    have declared := traced.1 (List.mem_of_find?_eq_some agree)
    rw [resolveSource, chosen declared, Option.some.injEq] at agree
    exact ⟨declared, getD_find?_takeWhile_eq_iff.1 agree⟩
  · rintro ⟨declared, free⟩
    rw [resolveSource, chosen declared, Option.some.injEq]
    exact getD_find?_takeWhile_eq_iff.2 free

namespace Engine

/-- The small project with a second source of its output, which comes first in the walk. -/
def twinDisk : Disk :=
  (smallDisk "old\n".toList).store (smallLocation ["src", "a.js"])
    (.file (Utf8.encode smallSource.content) Node.fileMode)

/-- The second source of the output of the small project. -/
def twinSource : SourceFile := { smallSource with path := Path.ofText "src/a.js".toList }

theorem discover_twinDisk :
    discover twinDisk smallEngine.root smallEngine.sourceDir [] = .ok
      [twinSource, smallSource] := by
  decide +kernel

theorem expand_twinDisk :
    (expand twinDisk (Cache.fresh smallEngine.root []) smallEngine.sourceDir .npm
      [twinSource, smallSource]).1 = .ok [smallFile] := by
  decide +kernel

/-- Of the two sources of the twin project, expansion takes the script and freshness takes
the other one, which is the only name before it. -/
theorem resolveSource_twinDisk_eq :
    ∃ origin, firstOrigin? [twinSource, smallSource] smallEngine.sourceDir "dist-npm/bin".toList
        smallFile.path = some origin ∧
      (resolveSource twinDisk smallEngine.root smallEngine.sourceDir smallFile.path =
        some origin.path ↔
        (Mapping.IsDeclaration smallFile.path → Mapping.IsDeclaration origin.path) ∧
          ∀ earlier ∈ (Mapping.reverse smallFile.path smallEngine.sourceDir).takeWhile
            (· ≠ origin.path),
            twinDisk.isFile (smallEngine.root.join earlier.text) = false) ∧
      ((Mapping.IsDeclaration smallFile.path → Mapping.IsDeclaration origin.path) →
        resolveSource twinDisk smallEngine.root smallEngine.sourceDir smallFile.path =
          some ((((Mapping.reverse smallFile.path smallEngine.sourceDir).takeWhile
            (· ≠ origin.path)).find? fun earlier =>
              twinDisk.isFile (smallEngine.root.join earlier.text)).getD origin.path)) :=
  @resolveSource_eq_firstOrigin_iff _ _ _ _ (Cache.fresh smallEngine.root []) .npm _ _ _
    (by decide) discover_twinDisk rfl expand_twinDisk (by simp)

/-- A walk meets `src/a.js` first, and the output is refreshed from `src/a.ts`. -/
theorem resolveSource_ne_firstOrigin :
    discover twinDisk smallEngine.root smallEngine.sourceDir [] = .ok [twinSource, smallSource] ∧
      (expand twinDisk (Cache.fresh smallEngine.root []) smallEngine.sourceDir .npm
        [twinSource, smallSource]).1 = .ok [smallFile] ∧
      firstOrigin? [twinSource, smallSource] smallEngine.sourceDir "dist-npm/bin".toList
        smallFile.path = some twinSource ∧
      resolveSource twinDisk smallEngine.root smallEngine.sourceDir smallFile.path =
        some smallSource.path ∧
      smallSource.path ≠ twinSource.path :=
  ⟨discover_twinDisk, expand_twinDisk, by decide +kernel, by decide +kernel, by decide⟩

end Engine

end Run

end DistDirectives
