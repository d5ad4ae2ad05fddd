import DistDirectives.Proofs.Run.Precedence

/-!
# Two readings of the source directory

The source directory is read twice. The walk extends the root by it, and the flat mapping
strips it from the paths that the walk yields. The two readings agree for every spelling
that is read as a relative path, however it is written. An absolute source directory is
still looked for below the root, but no path as seen from the root starts with it: its
sources are found, and none of them has an output.
-/

namespace DistDirectives

namespace Mapping

/-- A file is built into something. -/
theorem outputs_ne_nil (file : Text) : outputs file ≠ [] := by
  rw [outputs]
  split <;> simp [outputExtensions]

/-- A source has no flat output exactly when it lies outside the source directory. -/
theorem forwardFlat_eq_nil_iff {source : Path} {sourceDir flatRoot : Text} :
    forwardFlat source sourceDir flatRoot = [] ↔ source.strip? sourceDir = none := by
  rw [forwardFlat]
  cases stripped : source.strip? sourceDir with
  | none => simp
  | some rest => simp [outputs_ne_nil]

end Mapping

namespace Run

open Discovery

variable {disk : Disk} {root : Path} {exclusions : List Path} {sourceDir : Text}
  {sources : List SourceFile} {source : SourceFile}

/-- As seen from the root, a source lies below the source directory: its path is relative
and starts with the segments of the source directory, be that absolute or not. -/
theorem exists_segments_of_mem_discover (rooted : root.isEmpty = false)
    (found : discover disk root sourceDir exclusions = .ok sources) (mem : source ∈ sources) :
    source.path.isAbsolute = false ∧
      ∃ place, source.path.segments = (Path.ofText sourceDir).segments ++ place := by
  obtain ⟨full, extends_start, isSource⟩ :=
    exists_isSource_of_mem_sourcesBelow (exists_sourcesBelow_of_discover found).2.choose_spec mem
  obtain ⟨segments, relative⟩ := isSource.segments
  refine ⟨relative rooted, ?_⟩
  rw [Path.segments_join, segments, List.prefix_append_right_inj] at extends_start
  obtain ⟨place, segments_place⟩ := extends_start
  exact ⟨place, segments_place.symm⟩

/-- Stripping a source directory from a relative path that starts with its segments
succeeds exactly when the source directory is relative too. -/
theorem exists_strip?_eq_some_iff {path : Path} {place : List Text}
    (relative : path.isAbsolute = false)
    (segments : path.segments = (Path.ofText sourceDir).segments ++ place) :
    (∃ rest, path.strip? sourceDir = some rest) ↔ (Path.ofText sourceDir).isAbsolute = false := by
  constructor
  · rintro ⟨rest, stripped⟩
    rw [Path.strip?_eq_some_iff] at stripped
    split at stripped
    · rename_i here
      exact (Path.isEmpty_iff.1 here).1
    · rw [← stripped.1, relative]
  · intro sourceDirRelative
    by_cases here : (Path.ofText sourceDir).isEmpty = true
    · exact ⟨path, Path.strip?_eq_some_iff.2 (by rw [if_pos here])⟩
    have proper : ∀ segment ∈ place, Path.IsSegment segment := fun segment mem =>
      Path.isSegment_of_mem_segments (segments ▸ List.mem_append_right _ mem)
    refine ⟨Path.ofText (Text.joinWith '/' place), Path.strip?_eq_some_iff.2 ?_⟩
    rw [if_neg here, Path.segments_ofText_joinWith proper, Path.isAbsolute_ofText_joinWith proper]
    exact ⟨by rw [relative, sourceDirRelative], rfl, segments⟩

/-- The walk and the flat mapping read the source directory alike exactly when it is a
relative path, however it is spelled. Then the source directory can be stripped from every
discovered source, and the source has outputs below every flat root. Otherwise neither
holds of any source. -/
theorem forwardFlat_of_discovered_iff (rooted : root.isEmpty = false)
    (found : discover disk root sourceDir exclusions = .ok sources) (mem : source ∈ sources) :
    ((∃ rest, source.path.strip? sourceDir = some rest) ↔
      (Path.ofText sourceDir).isAbsolute = false) ∧
      ∀ flatRoot, Mapping.forwardFlat source.path sourceDir flatRoot ≠ [] ↔
        (Path.ofText sourceDir).isAbsolute = false := by
  obtain ⟨relative, place, segments⟩ := exists_segments_of_mem_discover rooted found mem
  have stripped := exists_strip?_eq_some_iff relative segments
  refine ⟨stripped, fun flatRoot => ?_⟩
  rw [Ne, Mapping.forwardFlat_eq_nil_iff, ← stripped, ← Ne, Option.ne_none_iff_exists']

namespace Engine

theorem discover_smallDisk :
    discover (smallDisk "old\n".toList) smallEngine.root smallEngine.sourceDir [] = .ok
      [smallSource] := by
  decide +kernel

/-- The source directory of the small project can be stripped from its source. -/
theorem forwardFlat_of_discovered_small :
    ((∃ rest, smallSource.path.strip? smallEngine.sourceDir = some rest) ↔
        (Path.ofText smallEngine.sourceDir).isAbsolute = false) ∧
      ∀ flatRoot, Mapping.forwardFlat smallSource.path smallEngine.sourceDir flatRoot ≠ [] ↔
        (Path.ofText smallEngine.sourceDir).isAbsolute = false :=
  @forwardFlat_of_discovered_iff _ _ _ _ _ smallSource (by decide) discover_smallDisk (by simp)

/-- With a slash in front of its source directory the small project still has its source,
which is no longer built into anything: a run succeeds and leaves the output as it is. -/
theorem forwardFlat_eq_nil_of_absolute :
    discover (smallDisk "old\n".toList) smallEngine.root "/src".toList [] = .ok [smallSource] ∧
      smallSource.path.strip? "/src".toList = none ∧
      Mapping.forwardFlat smallSource.path "/src".toList "dist-npm/bin".toList = [] ∧
      ({ smallEngine with sourceDir := "/src".toList }.run (smallDisk "old\n".toList)
        ["dist-npm".toList]).1 = .ok {} := by
  decide +kernel

end Engine

end Run

end DistDirectives
