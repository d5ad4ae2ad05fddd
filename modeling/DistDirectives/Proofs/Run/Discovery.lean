import DistDirectives.Proofs.Mapping.Places
import DistDirectives.Proofs.Run.Traversal

/-!
# Discovered sources

Discovery reads what stands below the source directory and nothing else. So every source
that it yields is a file there, spelled by plain names, and two disks that agree there
yield the same sources, however deep a walk of either may go.
-/

namespace DistDirectives

namespace Run.Discovery

open Disk (IsProject HasPlainNames SameAt Spells Fits)
open DistDirectives.Path (IsPlainName)

variable {disk other : Disk} {root start path : Path} {place : Location} {names : List Text}
  {exclusions : List Path}

/-- The sources of a directory are those that its entries bring. -/
theorem sourcesBelow_succ_eq_ok_iff (project : IsProject disk start place)
    (spells : Spells start path names) {depth : Nat} {sources : List SourceFile} :
    sourcesBelow disk root exclusions (depth + 1) path = .ok sources ↔
      Fits disk place start.segments names ∧
        (∃ mode, disk.get? (place ++ names) = some (.directory mode) ∧ disk.permits mode = true) ∧
        ∃ pieces, List.Forall₂ (fun child piece =>
          visit disk root exclusions (sourcesBelow disk root exclusions depth)
            (IsProject.entryOf path child) = .ok piece) (disk.children (place ++ names)) pieces ∧
          sources = pieces.flatten := by
  rw [sourcesBelow]
  cases listed : disk.list path with
  | error error =>
      simp only [reduceCtorEq, false_iff]
      rintro ⟨fits, directory, _⟩
      rw [(project.list_eq_ok_iff spells).2 ⟨fits, directory, rfl⟩] at listed
      contradiction
  | ok entries =>
      obtain ⟨fits, directory, rfl⟩ := (project.list_eq_ok_iff spells).1 listed
      rw [and_iff_right fits, and_iff_right directory]
      simp only [mapM_flatten_eq_ok_iff, List.forall₂_map_left_iff]

/-! ## Where sources stand -/

/-- A file that is a source, and what is known of it as one. -/
structure IsSource (disk : Disk) (root full : Path) (source : SourceFile) : Prop where
  relative : full.relativeTo? root = some source.path
  content : disk.readText full = .ok source.content
  mentioned : Directive.mentioned source.content = true

theorem isSource_of_mem_sourceAt {relative full : Path}
    (seen : full.relativeTo? root = some relative)
    {sources : List SourceFile} (found : sourceAt disk relative full = .ok sources)
    {source : SourceFile} (mem : source ∈ sources) : IsSource disk root full source := by
  rw [sourceAt] at found
  split at found
  · cases found
    contradiction
  split at found
  · contradiction
  rename_i bytes read
  split at found
  · cases found
    contradiction
  split at found
  · cases found
    contradiction
  rename_i content decoded
  cases found
  split at mem
  · rename_i mentioned
    rw [List.mem_singleton] at mem
    subst mem
    refine ⟨seen, ?_, mentioned⟩
    simp only [Disk.readText, read, bind, Except.bind, decoded]
    rfl
  · contradiction

/-- What an entry of a directory brings is found below the entry, or is the entry itself. -/
theorem mem_visit {descend : Path → Except Failure (List SourceFile)} {child : Text × Node}
    {sources : List SourceFile}
    (found : visit disk root exclusions descend (IsProject.entryOf path child) = .ok sources)
    {source : SourceFile} (mem : source ∈ sources) :
    descend (path.join child.1) = .ok sources ∨ IsSource disk root (path.join child.1) source := by
  rw [visit] at found
  split at found
  · cases found
    contradiction
  rename_i relative seen
  split at found
  · cases found
    contradiction
  split at found
  · exact .inl found
  · exact .inr (isSource_of_mem_sourceAt seen found mem)
  · cases found
    contradiction

/-- The sources below a directory of plain names are files with plain names below it. -/
theorem exists_of_mem_sourcesBelow (project : IsProject disk start place)
    (plain : HasPlainNames disk place) (spells : Spells start path names)
    (inside : ∀ name ∈ names, IsPlainName name) (absolute : path.isAbsolute = start.isAbsolute)
    {depth : Nat} {sources : List SourceFile}
    (found : sourcesBelow disk root exclusions depth path = .ok sources) {source : SourceFile}
    (mem : source ∈ sources) :
    ∃ full inner, inner ≠ [] ∧ (∀ name ∈ inner, IsPlainName name) ∧ Spells start full inner ∧
      full.isAbsolute = start.isAbsolute ∧ IsSource disk root full source := by
  induction depth generalizing path names sources with
  | zero => contradiction
  | succ depth ih =>
      rcases (sourcesBelow_succ_eq_ok_iff project spells).1 found with ⟨_, _, pieces, visited, rfl⟩
      rcases List.mem_flatten.1 mem with ⟨piece, pieceMem, sourceMem⟩
      obtain ⟨child, childMem, brought⟩ := exists_of_mem_forall₂ visited pieceMem
      have named := plain names child.1 child.2 (Disk.mem_children_iff.1 childMem)
      have childSpells := spells.join named
      have childInside : ∀ name ∈ names ++ [child.1], IsPlainName name := by
        simpa [or_imp, forall_and] using ⟨inside, named⟩
      have childAbsolute : (path.join child.1).isAbsolute = start.isAbsolute := by
        rw [Path.isAbsolute_join_of_relative path
          (Path.isAbsolute_ofText_segment named.toIsSegment), absolute]
      rcases mem_visit brought sourceMem with descended | isSource
      · exact ih childSpells childInside childAbsolute descended sourceMem
      · exact ⟨_, _, by simp, childInside, childSpells, childAbsolute, isSource⟩

/-! ## What discovery depends on -/

/-- Two disks hold the same below a location. -/
def AgreeBelow (disk other : Disk) (place : Location) : Prop :=
  ∀ names, other.get? (place ++ names) = disk.get? (place ++ names)

theorem AgreeBelow.sameAt (agree : AgreeBelow disk other place)
    (rights : other.privileged = disk.privileged) (names : List Text) :
    SameAt disk place other place names := by
  have allows (front : List Text) : other.allows Node.ownerSearches (place ++ front) =
      disk.allows Node.ownerSearches (place ++ front) :=
    Disk.allows_congr rights (by simp [agree front]) _
  exact ⟨by simp only [Disk.MaySearch, allows], agree names⟩

/-- The sources below a directory are the same on a disk that holds the same there, for a process
with the same rights. -/
theorem sourcesBelow_congr (project : IsProject disk start place)
    (otherProject : IsProject other start place) (plain : HasPlainNames disk place)
    (rights : other.privileged = disk.privileged) (agree : AgreeBelow disk other place)
    (spells : Spells start path names) {depth : Nat} {sources : List SourceFile}
    (found : sourcesBelow disk root exclusions depth path = .ok sources) :
    sourcesBelow other root exclusions depth path = .ok sources := by
  induction depth generalizing path names sources with
  | zero => contradiction
  | succ depth ih =>
      obtain ⟨fits, ⟨mode, directory, permitted⟩, pieces, visited, rfl⟩ :=
        (sourcesBelow_succ_eq_ok_iff project spells).1 found
      have children : other.children (place ++ names) = disk.children (place ++ names) :=
        Disk.children_congr fun name => by rw [List.append_assoc, agree]
      refine (sourcesBelow_succ_eq_ok_iff otherProject spells).2
        ⟨(agree.sameAt rights names).fits_iff.2 fits,
          ⟨mode, by rw [agree, directory], by rw [Disk.permits_congr rights, permitted]⟩,
          pieces, ?_, rfl⟩
      rw [children]
      apply forall₂_imp_of_mem visited
      intro child mem piece brought
      have held := Disk.mem_children_iff.1 mem
      have childSpells := spells.join (plain names child.1 child.2 held)
      refine visit_congr (fun sources => ih childSpells) (fun content read => ?_) brought
      rw [IsProject.entryOf, project.readBytes_eq_ok_iff childSpells] at read
      rw [IsProject.entryOf, otherProject.readBytes_eq_ok_iff childSpells, agree,
        (agree.sameAt rights _).fits_iff]
      simpa only [Disk.permits_congr rights] using read

end Run.Discovery

namespace Run

open Disk (IsProject HasPlainNames Spells LeadsToPlainTree)
open Discovery

variable {disk other : Disk} {root : Path} {sourceDir : Text} {place : Location}
  {exclusions : List Path} {sources : List SourceFile}

/-- The path of a project spells no names behind itself. -/
theorem spells_self (path : Path) : Spells path path [] := ⟨by simp, by simp [Disk.Descends]⟩

/-- A source stands behind the source directory at a place made of plain names. -/
theorem exists_of_mem_discover (plainTree : LeadsToPlainTree disk (root.join sourceDir))
    (found : discover disk root sourceDir exclusions = .ok sources) {source : SourceFile}
    (mem : source ∈ sources) :
    ∃ full place, Spells (root.join sourceDir) full place ∧ IsSource disk root full source ∧
      place ≠ [] ∧ Mapping.StandsIn source.path (Path.ofText sourceDir) place := by
  obtain ⟨required, depth, below⟩ := exists_sourcesBelow_of_discover found
  obtain ⟨place, mode, reached⟩ := Disk.exists_walk_of_requireDirectory required
  obtain ⟨tree, plain⟩ := plainTree place mode reached
  have project : IsProject disk (root.join sourceDir) place := ⟨⟨mode, reached⟩, tree⟩
  obtain ⟨full, inner, nonempty, innerPlain, spells, absolute, isSource⟩ :=
    exists_of_mem_sourcesBelow project plain (spells_self _) (by simp) rfl below mem
  refine ⟨full, inner, spells, isSource, nonempty, ?_⟩
  have relative := isSource.relative
  have segments := spells.segments
  rw [Path.relativeTo?, Path.strip?_eq_some_iff, Path.ofText_text] at relative
  rw [Path.segments_join] at segments
  split at relative
  · rename_i root_empty
    rw [relative]
    refine ⟨?_, ?_, innerPlain⟩
    · rw [segments, (Path.isEmpty_iff.1 root_empty).2, List.nil_append]
    · rw [absolute, Path.join, if_pos root_empty]
      exact id
  · rcases relative with ⟨_, sourceRelative, sourceSegments⟩
    rw [segments, List.append_assoc, List.append_cancel_left_eq] at sourceSegments
    exact ⟨sourceSegments.symm, fun _ => sourceRelative, innerPlain⟩

/-- Discovery yields the same on a disk that holds the same below the source directory, for a
process with the same rights. -/
theorem discover_congr (project : IsProject disk (root.join sourceDir) place)
    (otherProject : IsProject other (root.join sourceDir) place) (plain : HasPlainNames disk place)
    (rights : other.privileged = disk.privileged) (agree : AgreeBelow disk other place)
    (found : discover disk root sourceDir exclusions = .ok sources) :
    discover other root sourceDir exclusions = .ok sources := by
  obtain ⟨mode, leads⟩ := project.leads
  obtain ⟨otherMode, otherLeads⟩ := otherProject.leads
  have otherPlain : HasPlainNames other place := by
    intro names name node held
    rw [List.append_assoc, agree, ← List.append_assoc] at held
    exact plain names name node held
  rw [discover_eq_sourcesBelow leads plain] at found
  rw [discover_eq_sourcesBelow otherLeads otherPlain]
  exact sourcesBelow_congr project otherProject plain rights agree (spells_self _) found

end Run

end DistDirectives
