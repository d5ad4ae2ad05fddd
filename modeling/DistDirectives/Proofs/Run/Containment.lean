import DistDirectives.Proofs.Run.Exactness
import DistDirectives.Proofs.Run.Precedence

/-!
# Where discovered sources stand

A name on a disk can hold a backslash, and a listing extends the path of a directory by each
name as that is read. So a name can be read as several pieces, and two dots among them lead up
again. A source whose path does not lead up stands below the source directory, at the place that
its path spells; and no path leads up when none of the names is read so. A name with a backslash
can also spell a place at which nothing stands, and discovery fails there. Among plain names it
fails only at something that the system does not open.
-/

namespace DistDirectives

namespace Path

/-- A path that leads up somewhere. -/
def Climbs (path : Path) : Prop := ['.', '.'] ∈ path.segments

instance (path : Path) : Decidable path.Climbs :=
  inferInstanceAs (Decidable (['.', '.'] ∈ path.segments))

/-- A plain name does not lead up. -/
theorem IsPlainName.not_climbs {name : Text} (plain : IsPlainName name) :
    ¬ (ofText name).Climbs := by
  rw [Climbs, segments_ofText_segment plain.toIsSegment, List.mem_singleton]
  exact Ne.symm plain.ne_dots

end Path

namespace Disk

open DistDirectives.Path (Climbs)

/-- The pieces of a path that does not lead up lead down. -/
theorem descends_of_not_climbs {path : Path} (level : ¬ path.Climbs) {front names : List Text}
    (segments : path.segments = front ++ names) : Descends names := by
  intro name mem
  have piece : name ∈ path.segments := segments ▸ List.mem_append_right front mem
  have proper := Path.isSegment_of_mem_segments piece
  refine ⟨proper.ne_dot, ?_⟩
  rintro rfl
  exact level piece

/-- A path with a name added spells the pieces of that name last. -/
theorem Spells.join_pieces {root path : Path} {names : List Text} (spells : Spells root path names)
    {name : Text} (level : ¬ (Path.ofText name).Climbs) :
    Spells root (path.join name) (names ++ (Path.ofText name).segments) := by
  constructor
  · rw [Path.segments_join, spells.segments, List.append_assoc]
  · intro other mem
    rcases List.mem_append.1 mem with outer | piece
    · exact spells.descends other outer
    · exact descends_of_not_climbs level (List.nil_append _).symm other piece

/-- A file is read as a text when its bytes are those of the text. -/
theorem readBytes_of_readText {disk : Disk} {path : Path} {content : Text}
    (read : disk.readText path = .ok content) :
    disk.readBytes path = .ok (Utf8.encode content) := by
  rw [readText] at read
  cases standing : disk.readBytes path with
  | error error => simp [standing, bind, Except.bind] at read
  | ok bytes =>
      simp only [standing, bind, Except.bind] at read
      cases decoded : Utf8.decode? bytes with
      | none => simp [decoded, throw, throwThe, MonadExceptOf.throw] at read
      | some text =>
          simp only [decoded] at read
          cases read
          rw [Utf8.decode?_eq_some_iff.1 decoded]

/-- What is read at a path depends on its segments. -/
theorem readBytes_of_segments {disk : Disk} {path other : Path}
    (same : path.segments = other.segments)
    {content : Bytes} (read : disk.readBytes other = .ok content) :
    disk.readBytes path = .ok content := by
  rw [readBytes_eq_ok_iff] at read ⊢
  rwa [disk.lookup_congr same]

end Disk

namespace Run

open Disk (IsProject IsTree HasPlainNames Spells Fits)

/-- A source is a file below the source directory, where its path leads, with its content. -/
def SourceFile.StandsBelow (source : SourceFile) (disk : Disk) (root : Path) (sourceDir : Text)
    (place : Location) : Prop :=
  ∃ names mode, names ≠ [] ∧ source.path.segments = (Path.ofText sourceDir).segments ++ names ∧
    disk.walk true (root.join source.path.text).segments =
      .ok (.node (place ++ names) (.file (Utf8.encode source.content) mode))

variable {disk : Disk} {root : Path} {sourceDir : Text} {exclusions : List Path}
  {exclude : List Text}
  {place : Location} {mode : Nat} {sources : List SourceFile} {source : SourceFile}

namespace Discovery

/-- When no name leads up, the sources below a directory have paths that lead down to them. -/
theorem exists_spells_of_mem_sourcesBelow {start path : Path} {names : List Text}
    (project : IsProject disk start place)
    (level : ∀ names name node, disk.get? (place ++ names ++ [name]) = some node →
      ¬ (Path.ofText name).Climbs)
    (spells : Spells start path names) {depth : Nat}
    (found : sourcesBelow disk root exclusions depth path = .ok sources) (mem : source ∈ sources) :
    ∃ full inner, Spells start full inner ∧ IsSource disk root full source := by
  induction depth generalizing path names sources with
  | zero => contradiction
  | succ depth ih =>
      obtain ⟨_, _, pieces, visited, rfl⟩ := (sourcesBelow_succ_eq_ok_iff project spells).1 found
      obtain ⟨piece, pieceMem, sourceMem⟩ := List.mem_flatten.1 mem
      obtain ⟨child, childMem, brought⟩ := exists_of_mem_forall₂ visited pieceMem
      have childLevel := level names child.1 child.2 (Disk.mem_children_iff.1 childMem)
      have childSpells := spells.join_pieces childLevel
      rcases mem_visit brought sourceMem with descended | isSource
      · exact ih childSpells descended sourceMem
      · exact ⟨_, _, childSpells, isSource⟩

end Discovery

open Discovery

/-- A discovered source is read at its path, which starts with the source directory. -/
theorem exists_names_of_mem_discover (found : discover disk root sourceDir exclusions = .ok sources)
    (mem : source ∈ sources) :
    ∃ names, source.path.segments = (Path.ofText sourceDir).segments ++ names ∧
      disk.readBytes (root.join source.path.text) = .ok (Utf8.encode source.content) := by
  obtain ⟨_, _, below⟩ := exists_sourcesBelow_of_discover found
  obtain ⟨full, extends_start, isSource⟩ := exists_isSource_of_mem_sourcesBelow below mem
  obtain ⟨segments, _⟩ := isSource.segments
  rw [Path.segments_join, segments, List.prefix_append_right_inj] at extends_start
  obtain ⟨names, names_eq⟩ := extends_start
  refine ⟨names, names_eq.symm, ?_⟩
  have here : (root.join source.path.text).segments = full.segments := by
    rw [Path.segments_join, Path.ofText_text, segments]
  exact Disk.readBytes_of_segments here (Disk.readBytes_of_readText isSource.content)

section

variable (leads : disk.walk true (root.join sourceDir).segments =
  .ok (.node place (.directory mode)))
  (tree : IsTree disk place)

include leads tree

/-- A source stands below the source directory unless its path leads up. -/
theorem standsBelow_of_mem_discover (found : discover disk root sourceDir exclusions = .ok sources)
    (mem : source ∈ sources) (level : ¬ source.path.Climbs) :
    source.StandsBelow disk root sourceDir place := by
  have project : IsProject disk (root.join sourceDir) place := ⟨⟨mode, leads⟩, tree⟩
  obtain ⟨names, segments, read⟩ := exists_names_of_mem_discover found mem
  have spells : Spells (root.join sourceDir) (root.join source.path.text) names := by
    constructor
    · rw [Path.segments_join, Path.ofText_text, segments, Path.segments_join, List.append_assoc]
    · exact Disk.descends_of_not_climbs level segments
  obtain ⟨fits, fileMode, held, _⟩ := (project.readBytes_eq_ok_iff spells).1 read
  refine ⟨names, fileMode, ?_, segments, (project.walk_eq_node_iff spells).2 ⟨fits, rfl, held⟩⟩
  rintro rfl
  -- a directory stands there
  rw [List.append_nil, Disk.get?_of_walk leads] at held
  cases held

/-- No source has a path that leads up when no name below the source directory does. -/
theorem not_climbs_of_mem_discover (sourceDirLevel : ¬ (Path.ofText sourceDir).Climbs)
    (level : ∀ names name node, disk.get? (place ++ names ++ [name]) = some node →
      ¬ (Path.ofText name).Climbs)
    (found : discover disk root sourceDir exclusions = .ok sources) (mem : source ∈ sources) :
    ¬ source.path.Climbs := by
  have project : IsProject disk (root.join sourceDir) place := ⟨⟨mode, leads⟩, tree⟩
  obtain ⟨_, _, below⟩ := exists_sourcesBelow_of_discover found
  obtain ⟨full, inner, spells, isSource⟩ :=
    exists_spells_of_mem_sourcesBelow project level (spells_self _) below mem
  have segments := spells.segments
  rw [isSource.segments.1, Path.segments_join, List.append_assoc,
    List.append_cancel_left_eq] at segments
  rw [Path.Climbs, segments, List.mem_append]
  rintro (outer | piece)
  · exact sourceDirLevel outer
  · exact (spells.descends _ piece).2 rfl

end

/-- Discovery stays below a source directory that is a tree and has a path that does not lead up.
A source stands there, at its path and with its content, unless its path leads up, and its path
does not when no name below the source directory is read so. With plain names discovery succeeds
unless it has to look into something that the system does not open. -/
theorem discover_stays_below (sourceDirLevel : ¬ (Path.ofText sourceDir).Climbs)
    (leads : disk.walk true (root.join sourceDir).segments = .ok (.node place (.directory mode)))
    (tree : IsTree disk place) :
    (∀ sources, discover disk root sourceDir (exclusionsOf exclude) = .ok sources →
      ∀ source ∈ sources, ¬ source.path.Climbs → source.StandsBelow disk root sourceDir place) ∧
    ((∀ names name node, disk.get? (place ++ names ++ [name]) = some node →
        ¬ (Path.ofText name).Climbs) →
      ∀ sources, discover disk root sourceDir (exclusionsOf exclude) = .ok sources →
        ∀ source ∈ sources, ¬ source.path.Climbs) ∧
    (HasPlainNames disk place →
      ((∃ sources, discover disk root sourceDir (exclusionsOf exclude) = .ok sources) ↔
        ∀ names inner, LooksInto disk exclude place (Path.ofText sourceDir).segments names inner →
          IsOpened disk (root.join sourceDir) place names inner)) := by
  refine ⟨fun sources found source mem => ?_, fun level sources found source mem => ?_,
    fun plain => ?_⟩
  · exact standsBelow_of_mem_discover leads tree found mem
  · exact not_climbs_of_mem_discover leads tree sourceDirLevel level found mem
  · exact (isExact_discover leads plain).accepts

namespace Engine

/-- The source of the small project stands below its source directory. -/
theorem discover_stays_below_small :
    smallSource.StandsBelow (smallDisk "old\n".toList) smallEngine.root "src".toList
        (smallLocation ["src"]) ∧
      ∀ names mode, LooksInto (smallDisk "old\n".toList) [] (smallLocation ["src"])
        (Path.ofText "src".toList).segments names mode →
          IsOpened (smallDisk "old\n".toList) (smallEngine.root.join "src".toList)
            (smallLocation ["src"]) names mode := by
  have leads : (smallDisk "old\n".toList).walk true (smallEngine.root.join "src".toList).segments =
      .ok (.node (smallLocation ["src"]) (.directory Node.directoryMode)) := by decide +kernel
  obtain ⟨tree, plain⟩ : IsTree (smallDisk "old\n".toList) (smallLocation ["src"]) ∧
      HasPlainNames (smallDisk "old\n".toList) (smallLocation ["src"]) :=
    Disk.isTree_of_holdsPlainTree (by decide +kernel)
  have found : discover (smallDisk "old\n".toList) smallEngine.root "src".toList (exclusionsOf []) =
      .ok [smallSource] := by decide +kernel
  obtain ⟨below, level, succeeds⟩ :=
    @discover_stays_below _ _ _ [] _ _ (by decide) leads tree
  have plainLevel := level fun names name node held => (plain names name node held).not_climbs
  exact ⟨below _ found _ (by simp) (plainLevel _ found _ (by simp)), (succeeds plain).1 ⟨_, found⟩⟩

/-- A source directory whose only file has a name that leads up to a file beside it. -/
def climbingDisk : Disk :=
  Disk.empty
    |>.store (smallLocation []) (.directory Node.directoryMode)
    |>.store (smallLocation ["src"]) (.directory Node.directoryMode)
    |>.store (smallLocation ["src", "..\\x.ts"])
      (.file (Utf8.encode "plain\n".toList) Node.fileMode)
    |>.store (smallLocation ["x.ts"])
      (.file (Utf8.encode "x // <dler-remove-line>\n".toList) Node.fileMode)

/-- A source directory whose only file has a name that is read as two. -/
def splitDisk : Disk :=
  Disk.empty
    |>.store (smallLocation []) (.directory Node.directoryMode)
    |>.store (smallLocation ["src"]) (.directory Node.directoryMode)
    |>.store (smallLocation ["src", "a\\b.ts"])
      (.file (Utf8.encode "x // <dler-remove-line>\n".toList) Node.fileMode)

/-- Discovery leaves the source directory of one of these projects, and fails on the other. -/
theorem discover_climbs :
    (IsProject climbingDisk smallEngine.root (smallLocation []) ∧
      discover climbingDisk smallEngine.root "src".toList [] =
        .ok [⟨Path.ofText "src/../x.ts".toList, "x // <dler-remove-line>\n".toList⟩] ∧
      (Path.ofText "src/../x.ts".toList).Climbs) ∧
    IsProject splitDisk smallEngine.root (smallLocation []) ∧
      splitDisk.requireDirectory (smallEngine.root.join "src".toList) = .ok () ∧
      ∀ sources, discover splitDisk smallEngine.root "src".toList [] ≠ .ok sources := by
  have climbing : IsTree climbingDisk (smallLocation []) :=
    Disk.isTree_of_entries (by decide +kernel) (by decide +kernel) (by decide +kernel)
  have split : IsTree splitDisk (smallLocation []) :=
    Disk.isTree_of_entries (by decide +kernel) (by decide +kernel) (by decide +kernel)
  have climbed : discover climbingDisk smallEngine.root "src".toList [] =
      .ok [⟨Path.ofText "src/../x.ts".toList, "x // <dler-remove-line>\n".toList⟩] := by
    decide +kernel
  have failed : (discover splitDisk smallEngine.root "src".toList []).isOk = false := by
    decide +kernel
  refine ⟨⟨⟨⟨Node.directoryMode, by decide +kernel⟩, climbing⟩, climbed, by decide⟩,
    ⟨⟨Node.directoryMode, by decide +kernel⟩, split⟩, by decide +kernel, ?_⟩
  intro sources found
  rw [found] at failed
  cases failed

end Engine

end Run

end DistDirectives
