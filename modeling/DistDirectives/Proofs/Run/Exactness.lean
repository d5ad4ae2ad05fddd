import DistDirectives.Proofs.Disk.Descent
import DistDirectives.Proofs.Disk.Decision
import DistDirectives.Proofs.Run.Halting
import DistDirectives.Proofs.Run.Traversal
import DistDirectives.Proofs.Text.Utf8

/-!
# What discovery finds

Links may stand anywhere below the source directory. Discovery goes down through directories
that are no links, and yields the texts that mention a directive, each of them once and in the
order of the segments of their paths. To leave out an excluded directory as a whole loses
nothing, since what occurs in a path occurs in every longer one.

Discovery succeeds unless it has to look into something that the system does not open: behind
a path that is too long, or without the permission to read it. Nothing else gets in its way.
-/

namespace DistDirectives

namespace Path

/-- The name of a path is its last segment. -/
theorem name?_eq {path : Path} {front : List Text} {last : Text}
    (segments : path.segments = front ++ [last]) : path.name? = some last := by
  have proper : IsSegment last := @isSegment_of_mem_segments path last (by simp [segments])
  have allKept : ∀ c ∈ last.reverse, decide (c ≠ '/') = true := by
    intro c mem
    have differs : c ≠ '/' := fun same => proper.no_slash (same ▸ List.mem_reverse.1 mem)
    simpa using differs
  have behind (rest : Text) := @List.takeWhile_append_of_pos _ _ last.reverse rest allKept
  have ending : Text.takeEndWhile (· ≠ '/') path.text = last := by
    rw [text_eq_spell path, segments, Text.takeEndWhile]
    rcases spell_concat path.isAbsolute front last with spelled | ⟨directory, spelled⟩
    · rw [spelled]
      simpa using congrArg List.reverse (behind [])
    · rw [spelled, List.reverse_append, List.reverse_cons, List.append_assoc, behind]
      simp
  rw [name?, ending]
  cases last with
  | nil => exact absurd rfl proper.ne_nil
  | cons c more => rfl

end Path

namespace Run

open Disk (Reaches Fits HasPlainNames Spells IsProject kindOf)
open DistDirectives.Path (IsPlainName)

/-! ## Exclusions -/

/-- The segments of a pattern occur next to each other in a path. -/
def Excludes (exclude segments : List Text) : Prop :=
  ∃ pattern ∈ exclude, (Path.ofText pattern).segments ≠ [] ∧
    (Path.ofText pattern).segments <:+: segments

theorem isExcluded_iff {exclude : List Text} {path : Path} :
    isExcluded (exclusionsOf exclude) path = true ↔ Excludes exclude path.segments := by
  simp only [isExcluded, exclusionsOf, List.any_eq_true, List.mem_filter, List.mem_map,
    Path.containsRun, Path.ofText_text, Bool.and_eq_true, Text.occurs_iff, Bool.not_eq_true',
    List.isEmpty_eq_false_iff]
  constructor
  · rintro ⟨_, ⟨⟨pattern, mem, rfl⟩, _⟩, nonempty, front, back, split⟩
    exact ⟨pattern, mem, nonempty, front, back, split.symm⟩
  · rintro ⟨pattern, mem, nonempty, front, back, split⟩
    refine ⟨_, ⟨⟨pattern, mem, rfl⟩, ?_⟩, nonempty, front, back, split.symm⟩
    rw [Bool.eq_false_iff]
    exact fun isEmpty => nonempty (Path.isEmpty_iff.1 isEmpty).2

/-- What lies below something excluded is excluded. -/
theorem Excludes.append {exclude segments : List Text} (excludes : Excludes exclude segments)
    (more : List Text) : Excludes exclude (segments ++ more) := by
  rcases excludes with ⟨pattern, mem, nonempty, occurs⟩
  exact ⟨pattern, mem, nonempty, occurs.trans (List.infix_append' [] segments more)⟩

/-! ## What is to be found -/

/-- What there is to look into below a directory, with its permission bits: directories, and
files that no extension marks as binary, unless they are excluded. The directory itself is looked
into anyway. The first list of names are the segments of the directory as seen from the root. -/
structure LooksInto (disk : Disk) (exclude : List Text) (here : Location) (lead names : List Text)
    (mode : Nat) : Prop where
  included : names ≠ [] → ¬ Excludes exclude (lead ++ names)
  reached : Reaches disk here names (.directory mode) ∨
    (∃ content, Reaches disk here names (.file content mode)) ∧
      Binary.hasExtension ((lead ++ names).getLast?.bind Path.extensionOf?) = false

/-- The system opens what some names below a path lead to: it accepts the path, and by the
permission bits the process may look up the names, and read what they lead to. -/
structure IsOpened (disk : Disk) (start : Path) (here : Location) (names : List Text)
    (mode : Nat) : Prop where
  fits : Fits disk here start.segments names
  permitted : disk.permits mode = true

theorem isOpened_iff {disk : Disk} {start : Path} {here : Location} {names : List Text}
    {mode : Nat} :
    IsOpened disk start here names mode ↔
      Fits disk here start.segments names ∧ disk.permits mode = true :=
  ⟨fun opened => ⟨opened.fits, opened.permitted⟩, fun ⟨fits, permitted⟩ => ⟨fits, permitted⟩⟩

/-- A source below a directory: a regular file reached through directories, that is not
excluded, not binary, and a text that mentions a directive. -/
structure IsSourceAt (disk : Disk) (absolute : Bool) (exclude : List Text) (here : Location)
    (lead names : List Text) (source : SourceFile) : Prop where
  kind : source.path.isAbsolute = absolute
  segments : source.path.segments = lead ++ names
  reached : ∃ mode, Reaches disk here names (.file (Utf8.encode source.content) mode)
  included : ¬ Excludes exclude (lead ++ names)
  named : Binary.hasExtension ((lead ++ names).getLast?.bind Path.extensionOf?) = false
  noZero : 0 ∉ (Utf8.encode source.content).take Binary.window
  mentioned : Directive.token <:+: source.content

/-- Whether the sources have absolute paths as seen from the root, which takes an empty root. -/
def isSeenAbsolute (root : Path) (sourceDir : Text) : Bool :=
  root.isEmpty && (Path.ofText sourceDir).isAbsolute

/-- The order of sources is that of their segments, one by one, each by its bytes. -/
def SourceFile.Before (left right : SourceFile) : Prop :=
  left.path.segments.map Utf8.encode < right.path.segments.map Utf8.encode

namespace Discovery

/-- A result that is there when something is accepted, and then holds what is to be found, in
order. -/
structure IsExact (accepted : Prop) (isFound : SourceFile → Prop)
    (result : Except Failure (List SourceFile)) : Prop where
  accepts : (∃ sources, result = .ok sources) ↔ accepted
  mem_iff : ∀ sources, result = .ok sources → ∀ source, source ∈ sources ↔ isFound source
  ordered : ∀ sources, result = .ok sources → sources.Pairwise SourceFile.Before

section

variable {accepted : Prop} {isFound : SourceFile → Prop}

theorem isExact_nil (holds : accepted) (none_found : ∀ source, ¬ isFound source) :
    IsExact accepted isFound (.ok []) := by
  refine ⟨iff_of_true ⟨[], rfl⟩ holds, ?_, ?_⟩
  · rintro _ ⟨⟩ source
    simp [none_found]
  · rintro _ ⟨⟩
    exact .nil

theorem isExact_singleton {found : SourceFile} (holds : accepted)
    (only : ∀ source, isFound source ↔ source = found) :
    IsExact accepted isFound (.ok [found]) := by
  refine ⟨iff_of_true ⟨[found], rfl⟩ holds, ?_, ?_⟩
  · rintro _ ⟨⟩ source
    rw [List.mem_singleton, only]
  · rintro _ ⟨⟩
    exact List.pairwise_singleton _ _

theorem isExact_error {failure : Failure} (fails : ¬ accepted) :
    IsExact accepted isFound (.error failure) := by
  refine ⟨?_, by simp, by simp⟩
  simpa using fails

section

variable {α : Type} {items : List α} {bring : α → Except Failure (List SourceFile)}
  {accepts : α → Prop} {finds : α → SourceFile → Prop}
  (each : ∀ item ∈ items, IsExact (accepts item) (finds item) (bring item))
  (apart : items.Pairwise fun item other => ∀ source another,
    finds item source → finds other another → source.Before another)

include each apart

/-- Pieces that are exact, and of which each stands before the later ones, are so together. -/
theorem exact_of_pieces {pieces : List (List SourceFile)}
    (brought : List.Forall₂ (fun item piece => bring item = .ok piece) items pieces) :
    (∀ source, source ∈ pieces.flatten ↔ ∃ item ∈ items, finds item source) ∧
      pieces.flatten.Pairwise SourceFile.Before := by
  induction brought with
  | nil => simp
  | @cons item piece items pieces first others ih =>
      have here := each item (by simp)
      have mem_here := here.mem_iff piece first
      obtain ⟨apartHere, apartLater⟩ := List.pairwise_cons.1 apart
      obtain ⟨later, orderedLater⟩ := ih (fun other mem => each other (by simp [mem])) apartLater
      refine ⟨fun source => ?_, List.pairwise_append.2 ⟨here.ordered piece first, orderedLater, ?_⟩⟩
      · simp only [List.flatten_cons, List.mem_append, mem_here, later, List.mem_cons,
          exists_eq_or_imp]
      · intro source mem another otherMem
        obtain ⟨other, isItem, found⟩ := (later another).1 otherMem
        exact apartHere other isItem source another ((mem_here source).1 mem) found

/-- What several things in order bring is exact when each of them is. -/
theorem isExact_flatten :
    IsExact (∀ item ∈ items, accepts item) (fun source => ∃ item ∈ items, finds item source)
      (do
        let found ← items.mapM bring
        return found.flatten) := by
  refine ⟨?_, ?_, ?_⟩
  · calc
      (∃ sources, (do
          let found ← items.mapM bring
          return found.flatten) = Except.ok sources) ↔
        ∃ pieces, List.Forall₂ (fun item piece => bring item = .ok piece) items pieces := by
          simp only [mapM_flatten_eq_ok_iff]
          exact ⟨fun ⟨_, pieces, brought, _⟩ => ⟨pieces, brought⟩,
            fun ⟨pieces, brought⟩ => ⟨_, pieces, brought, rfl⟩⟩
      _ ↔ ∀ item ∈ items, ∃ piece, bring item = .ok piece := exists_forall₂_iff
      _ ↔ ∀ item ∈ items, accepts item := forall₂_congr fun item mem => (each item mem).accepts
  · intro sources found
    obtain ⟨pieces, brought, rfl⟩ := mapM_flatten_eq_ok_iff.1 found
    exact (exact_of_pieces each apart brought).1
  · intro sources found
    obtain ⟨pieces, brought, rfl⟩ := mapM_flatten_eq_ok_iff.1 found
    exact (exact_of_pieces each apart brought).2

end

end

/-! ## What is below a directory is below its entries -/

section

variable {disk : Disk} {absolute : Bool} {exclude : List Text} {here : Location} {lead : List Text}
  {mode : Nat} {source : SourceFile}

theorem append_cons (name : Text) (rest : List Text) :
    lead ++ name :: rest = lead ++ [name] ++ rest := by
  simp

theorem reaches_cons_iff (directory : disk.get? here = some (.directory mode)) {name : Text}
    {rest : List Text} {node : Node} :
    Reaches disk here (name :: rest) node ↔ Reaches disk (here ++ [name]) rest node := by
  rw [Reaches.cons_iff, and_iff_right ⟨mode, directory⟩]

theorem looksInto_cons_iff (directory : disk.get? here = some (.directory mode)) {name : Text}
    {rest : List Text} {inner : Nat} :
    LooksInto disk exclude here lead (name :: rest) inner ↔
      ¬ Excludes exclude (lead ++ [name]) ∧
        LooksInto disk exclude (here ++ [name]) (lead ++ [name]) rest inner := by
  have below (node : Node) := @reaches_cons_iff disk here mode directory name rest node
  constructor
  · rintro ⟨included, reached⟩
    simp only [append_cons name rest, below] at included reached
    exact ⟨fun excluded => included (by simp) (excluded.append rest),
      fun _ => included (by simp), reached⟩
  · rintro ⟨notExcluded, included, reached⟩
    simp only [← append_cons name rest, ← below] at included reached
    refine ⟨fun _ => ?_, reached⟩
    cases rest with
    | nil => exact notExcluded
    | cons next rest => exact included (by simp)

theorem isSourceAt_cons_iff (directory : disk.get? here = some (.directory mode)) {name : Text}
    {rest : List Text} :
    IsSourceAt disk absolute exclude here lead (name :: rest) source ↔
      IsSourceAt disk absolute exclude (here ++ [name]) (lead ++ [name]) rest source := by
  have below (node : Node) := @reaches_cons_iff disk here mode directory name rest node
  constructor
  · rintro ⟨kind, segments, reached, included, named, noZero, mentioned⟩
    simp only [append_cons name rest, below] at segments reached included named
    exact ⟨kind, segments, reached, included, named, noZero, mentioned⟩
  · rintro ⟨kind, segments, reached, included, named, noZero, mentioned⟩
    simp only [← append_cons name rest, ← below] at segments reached included named
    exact ⟨kind, segments, reached, included, named, noZero, mentioned⟩

/-- The sources below a location. -/
def IsFound (disk : Disk) (absolute : Bool) (exclude : List Text) (here : Location)
    (lead : List Text)
    (source : SourceFile) : Prop :=
  ∃ names, IsSourceAt disk absolute exclude here lead names source

/-- The sources of a directory are those of its entries. -/
theorem isFound_iff (directory : disk.get? here = some (.directory mode)) :
    IsFound disk absolute exclude here lead source ↔
      ∃ child ∈ disk.children here,
        IsFound disk absolute exclude (here ++ [child.1]) (lead ++ [child.1]) source := by
  constructor
  · rintro ⟨names, isSource⟩
    obtain ⟨_, reached⟩ := isSource.reached
    cases names with
    | nil =>
        have held := reached.held
        rw [List.append_nil, directory] at held
        cases held
    | cons name rest =>
        obtain ⟨node, held⟩ := (Reaches.cons_iff.1 reached).2.top
        exact ⟨(name, node), Disk.mem_children_iff.2 held, rest,
          (isSourceAt_cons_iff directory).1 isSource⟩
  · rintro ⟨child, _, rest, isSource⟩
    exact ⟨child.1 :: rest, (isSourceAt_cons_iff directory).2 isSource⟩

/-- What is found below entries of a directory is in the order of their names. -/
theorem before_of_children (here : Location) :
    (disk.children here).Pairwise fun child other => ∀ source another,
      IsFound disk absolute exclude (here ++ [child.1]) (lead ++ [child.1]) source →
      IsFound disk absolute exclude (here ++ [other.1]) (lead ++ [other.1]) another →
        source.Before another := by
  refine (disk.pairwise_children here).imp fun {child other} lower source another => ?_
  rintro ⟨rest, isSource⟩ ⟨otherRest, isOther⟩
  rw [SourceFile.Before, isSource.segments, isOther.segments]
  simp only [List.map_append, List.append_assoc, List.map_cons, List.singleton_append]
  exact List.append_left_lt (List.Lex.rel (Utf8.encode_lt_encode lower))

/-- Nothing below something excluded is a source. -/
theorem not_isFound_of_excludes (excluded : Excludes exclude lead) :
    ¬ IsFound disk absolute exclude here lead source :=
  fun ⟨names, isSource⟩ => isSource.included (excluded.append names)

/-- What is neither a file nor a directory has nothing to look into. -/
theorem not_reaches_of_link {target : Text} {names : List Text} {node : Node}
    (link : disk.get? here = some (.link target)) (reaches : Reaches disk here names node) :
    node = .link target := by
  cases reaches with
  | here held =>
      rw [link] at held
      exact (Option.some.inj held).symm
  | down directory _ =>
      rw [link] at directory
      cases directory

theorem not_isFound_of_link {target : Text} (link : disk.get? here = some (.link target)) :
    ¬ IsFound disk absolute exclude here lead source := by
  rintro ⟨names, isSource⟩
  obtain ⟨_, reached⟩ := isSource.reached
  cases not_reaches_of_link link reached

theorem reaches_of_file {content : Bytes} {names : List Text} {node : Node}
    (file : disk.get? here = some (.file content mode)) (reaches : Reaches disk here names node) :
    names = [] ∧ node = .file content mode := by
  cases reaches with
  | here held =>
      rw [file] at held
      exact ⟨rfl, (Option.some.inj held).symm⟩
  | down directory _ =>
      rw [file] at directory
      cases directory

end

/-! ## Entries -/

section

variable {disk : Disk} {absolute : Bool} {exclude : List Text} {here : Location} {front : List Text}
  {last : Text} {relative full : Path} {content : Bytes} {mode : Nat}

/-- When a file is a source. -/
theorem isFound_file_iff (file : disk.get? here = some (.file content mode))
    (notExcluded : ¬ Excludes exclude (front ++ [last])) (isSeen : relative.isAbsolute = absolute)
    (segments : relative.segments = front ++ [last]) {source : SourceFile} :
    IsFound disk absolute exclude here (front ++ [last]) source ↔
      source.path = relative ∧ Binary.hasExtension relative.extension? = false ∧
        Binary.looksBinary content = false ∧ content = Utf8.encode source.content ∧
        Directive.mentioned source.content = true := by
  have extension : relative.extension? = Path.extensionOf? last := by
    rw [Path.extension?, Path.name?_eq segments, Option.bind_some]
  rw [extension]
  constructor
  · rintro ⟨names, isSource⟩
    obtain ⟨_, reached⟩ := isSource.reached
    obtain ⟨rfl, same⟩ := reaches_of_file file reached
    cases same
    have sourceSegments := isSource.segments
    have named := isSource.named
    rw [List.append_nil] at sourceSegments named
    refine ⟨Path.ext_segments ?_ ?_, by simpa using named, ?_, rfl, ?_⟩
    · rw [isSource.kind, isSeen]
    · rw [sourceSegments, segments]
    · simpa [Binary.looksBinary] using isSource.noZero
    · obtain ⟨before, behind, split⟩ := isSource.mentioned
      exact Text.occurs_iff.2 ⟨before, behind, split.symm⟩
  · rintro ⟨rfl, named, noZero, rfl, mentioned⟩
    obtain ⟨before, behind, split⟩ := Text.occurs_iff.1 mentioned
    refine ⟨[], isSeen, by simpa using segments, ⟨mode, .here file⟩, by simpa using notExcluded,
      by simpa using named, by simpa [Binary.looksBinary] using noZero, before, behind, split.symm⟩

/-- A file is looked at as it is to be. -/
theorem isExact_sourceAt (file : disk.get? here = some (.file content mode))
    (notExcluded : ¬ Excludes exclude (front ++ [last])) (isSeen : relative.isAbsolute = absolute)
    (segments : relative.segments = front ++ [last]) {accepted : Prop}
    (reads : ∀ bytes, disk.readBytes full = .ok bytes ↔ accepted ∧ bytes = content) :
    IsExact (Binary.hasExtension relative.extension? = false → accepted)
      (IsFound disk absolute exclude here (front ++ [last])) (sourceAt disk relative full) := by
  have found (source : SourceFile) :=
    @isFound_file_iff _ _ _ _ _ _ _ _ _ file notExcluded isSeen segments source
  rw [sourceAt]
  by_cases binary : Binary.hasExtension relative.extension? = true
  · rw [if_pos binary]
    refine isExact_nil (fun notBinary => ?_) (fun source isFound => ?_)
    · rw [binary] at notBinary
      contradiction
    · rw [((found source).1 isFound).2.1] at binary
      contradiction
  rw [if_neg binary]
  have notBinary : Binary.hasExtension relative.extension? = false := by simpa using binary
  cases read : disk.readBytes full with
  | error error =>
      refine isExact_error fun accepts => ?_
      rw [(reads content).2 ⟨accepts notBinary, rfl⟩] at read
      contradiction
  | ok bytes =>
      obtain ⟨isAccepted, rfl⟩ := (reads bytes).1 read
      simp only
      by_cases zero : Binary.looksBinary bytes = true
      · rw [if_pos zero]
        refine isExact_nil (fun _ => isAccepted) (fun source isFound => ?_)
        rw [((found source).1 isFound).2.2.1] at zero
        contradiction
      rw [if_neg zero]
      cases decoded : Utf8.decode? bytes with
      | none =>
          refine isExact_nil (fun _ => isAccepted) (fun source isFound => ?_)
          rw [Utf8.decode?_eq_some_iff.2 ((found source).1 isFound).2.2.2.1] at decoded
          contradiction
      | some text =>
          obtain rfl := Utf8.decode?_eq_some_iff.1 decoded
          by_cases mentioned : Directive.mentioned text = true
          · simp only [mentioned, if_true]
            refine isExact_singleton (fun _ => isAccepted) fun source => (found source).trans ?_
            constructor
            · rintro ⟨rfl, _, _, same, _⟩
              rw [Utf8.encode_injective same]
            · rintro rfl
              exact ⟨rfl, notBinary, by simpa using zero, rfl, mentioned⟩
          · simp only [mentioned, Bool.false_eq_true, if_false]
            refine isExact_nil (fun _ => isAccepted) fun source isFound => mentioned ?_
            obtain ⟨_, _, _, same, mentionedThere⟩ := (found source).1 isFound
            rwa [Utf8.encode_injective same]

end

theorem IsExact.congr {accepted holds : Prop} {isFound isThere : SourceFile → Prop}
    {result : Except Failure (List SourceFile)} (exact : IsExact accepted isFound result)
    (same : accepted ↔ holds) (sameFound : ∀ source, isFound source ↔ isThere source) :
    IsExact holds isThere result :=
  ⟨exact.accepts.trans same, fun sources found source =>
    (exact.mem_iff sources found source).trans (sameFound source), exact.ordered⟩

/-! ## Directories -/

/-- All that there is to look into below some names is opened. -/
def IsAccepted (disk : Disk) (exclude : List Text) (start : Path) (place : Location)
    (lead names : List Text) : Prop :=
  ∀ inner mode, LooksInto disk exclude (place ++ names) (lead ++ names) inner mode →
    IsOpened disk start place (names ++ inner) mode

/-- The sources below some names. -/
def IsFoundBelow (disk : Disk) (absolute : Bool) (exclude : List Text) (place : Location)
    (lead names : List Text) : SourceFile → Prop :=
  IsFound disk absolute exclude (place ++ names) (lead ++ names)

section

variable {disk : Disk} {root path : Path} {sourceDir : Text} {exclude : List Text}
  {place : Location}
  {names : List Text} {top : Nat}

/-- What there is to look into below a directory is the directory and what there is to look
into below those of its entries that are not excluded. -/
theorem isAccepted_iff {start : Path} {lead : List Text} {mode : Nat}
    (directory : disk.get? (place ++ names) = some (.directory mode)) :
    IsAccepted disk exclude start place lead names ↔
      IsOpened disk start place names mode ∧ ∀ child ∈ disk.children (place ++ names),
        ¬ Excludes exclude (lead ++ (names ++ [child.1])) →
          IsAccepted disk exclude start place lead (names ++ [child.1]) := by
  simp only [IsAccepted, ← List.append_assoc]
  constructor
  · intro accepted
    have self : LooksInto disk exclude (place ++ names) (lead ++ names) [] mode :=
      ⟨by simp, .inl (.here directory)⟩
    refine ⟨by simpa using accepted [] mode self,
      fun child _ notExcluded inner innerMode looks => ?_⟩
    simpa using
      accepted (child.1 :: inner) innerMode ((looksInto_cons_iff directory).2 ⟨notExcluded, looks⟩)
  · rintro ⟨opened, below⟩ inner innerMode looks
    cases inner with
    | nil =>
        have sameMode : innerMode = mode := by
          rcases looks.reached with reached | ⟨⟨content, reached⟩, _⟩
          · have held := reached.held
            rw [List.append_nil, directory] at held
            cases held
            rfl
          · have held := reached.held
            rw [List.append_nil, directory] at held
            cases held
        simpa [sameMode] using opened
    | cons name rest =>
        obtain ⟨notExcluded, looksBelow⟩ := (looksInto_cons_iff directory).1 looks
        have reached : ∃ node, disk.get? (place ++ names ++ [name]) = some node := by
          rcases looksBelow.reached with reached | ⟨⟨_, reached⟩, _⟩
          · exact reached.top
          · exact reached.top
        obtain ⟨node, held⟩ := reached
        simpa using
          below (name, node) (Disk.mem_children_iff.2 held) notExcluded rest innerMode looksBelow

/-- A file is looked into unless its extension marks it as binary. -/
theorem isAccepted_file_iff {start : Path} {lead : List Text} {content : Bytes} {mode : Nat}
    (file : disk.get? (place ++ names) = some (.file content mode)) :
    IsAccepted disk exclude start place lead names ↔
      (Binary.hasExtension ((lead ++ names).getLast?.bind Path.extensionOf?) = false →
        IsOpened disk start place names mode) := by
  constructor
  · intro accepted named
    have looks : LooksInto disk exclude (place ++ names) (lead ++ names) [] mode :=
      ⟨by simp, .inr ⟨⟨content, .here file⟩, by simpa using named⟩⟩
    simpa using accepted [] mode looks
  · intro opened inner innerMode looks
    rcases looks.reached with directory | ⟨⟨_, reached⟩, named⟩
    · cases (reaches_of_file file directory).2
    · obtain ⟨rfl, same⟩ := reaches_of_file file reached
      cases same
      rw [List.append_nil]
      exact opened (by simpa using named)

theorem isAccepted_link {start : Path} {lead : List Text} {target : Text}
    (link : disk.get? (place ++ names) = some (.link target)) :
    IsAccepted disk exclude start place lead names := by
  intro inner mode looks
  rcases looks.reached with directory | ⟨⟨_, reached⟩, _⟩
  · cases not_reaches_of_link link directory
  · cases not_reaches_of_link link reached

/-- What lies below the source directory, as seen from the root. -/
theorem exists_relative (spells : Spells (root.join sourceDir) path names)
    (kind : path.isAbsolute = (root.join sourceDir).isAbsolute) :
    ∃ relative, path.relativeTo? root = some relative ∧
      relative.isAbsolute = isSeenAbsolute root sourceDir ∧
      relative.segments = (Path.ofText sourceDir).segments ++ names := by
  have segments := spells.segments
  rw [Path.segments_join, List.append_assoc] at segments
  rw [Path.isAbsolute_join] at kind
  have seen (relative : Path) := @Path.strip?_eq_some_iff path relative root.text
  rw [Path.ofText_text] at seen
  by_cases rootless : root.isEmpty = true
  · rw [(Path.isEmpty_iff.1 rootless).2, List.nil_append] at segments
    simp only [rootless, if_true] at seen kind
    exact ⟨path, (seen path).2 rfl, by rw [kind, isSeenAbsolute, rootless, Bool.true_and], segments⟩
  have proper : ∀ segment ∈ (Path.ofText sourceDir).segments ++ names, Path.IsSegment segment :=
    fun segment mem => Path.isSegment_of_mem_segments (segments ▸ List.mem_append_right _ mem)
  have relativeSegments := Path.segments_ofText_joinWith proper
  have isRelative := Path.isAbsolute_ofText_joinWith proper
  simp only [rootless] at seen kind
  refine ⟨_, (seen _).2 ⟨kind, isRelative, ?_⟩, ?_, relativeSegments⟩
  · rw [relativeSegments, segments]
  · rw [isRelative, isSeenAbsolute, Bool.eq_false_iff.2 rootless, Bool.false_and]

theorem isAbsolute_join_name {start : Path} {name : Text}
    (kind : path.isAbsolute = start.isAbsolute)
    (plain : IsPlainName name) : (path.join name).isAbsolute = start.isAbsolute := by
  rw [Path.isAbsolute_join_of_relative path (Path.isAbsolute_ofText_segment plain.toIsSegment),
    kind]

variable (leads : disk.walk true (root.join sourceDir).segments =
  .ok (.node place (.directory top)))

include leads

/-- An entry of a directory brings what is to be found there, when this is so of the directories
among the entries. -/
theorem isExact_visit (spells : Spells (root.join sourceDir) path names)
    (kind : path.isAbsolute = (root.join sourceDir).isAbsolute) {name : Text} {node : Node}
    (plain : IsPlainName name) (reaches : Reaches disk place (names ++ [name]) node)
    {descend : Path → Except Failure (List SourceFile)}
    (descends : ∀ mode, node = .directory mode →
      IsExact
        (IsAccepted disk exclude (root.join sourceDir) place (Path.ofText sourceDir).segments
          (names ++ [name]))
        (IsFoundBelow disk (isSeenAbsolute root sourceDir) exclude place
          (Path.ofText sourceDir).segments
          (names ++ [name]))
        (descend (path.join name))) :
    IsExact
      (¬ Excludes exclude ((Path.ofText sourceDir).segments ++ (names ++ [name])) →
        IsAccepted disk exclude (root.join sourceDir) place (Path.ofText sourceDir).segments
          (names ++ [name]))
      (IsFoundBelow disk (isSeenAbsolute root sourceDir) exclude place
        (Path.ofText sourceDir).segments
        (names ++ [name]))
      (visit disk root (exclusionsOf exclude) descend (IsProject.entryOf path (name, node))) := by
  have childSpells := spells.join plain
  obtain ⟨relative, seen, isSeen, segments⟩ :=
    exists_relative childSpells (isAbsolute_join_name kind plain)
  rw [visit]
  simp only [IsProject.entryOf, seen]
  by_cases excluded : isExcluded (exclusionsOf exclude) relative = true
  · rw [if_pos excluded]
    rw [isExcluded_iff, segments] at excluded
    exact isExact_nil (fun notExcluded => absurd excluded notExcluded)
      fun _ => not_isFound_of_excludes excluded
  rw [if_neg excluded]
  rw [isExcluded_iff, segments] at excluded
  have held := reaches.held
  cases node with
  | directory mode =>
      refine (descends mode rfl).congr ?_ fun _ => Iff.rfl
      exact ⟨fun accepted _ => accepted, fun accepted => accepted excluded⟩
  | file content mode =>
      have reads (bytes : Bytes) : disk.readBytes (path.join name) = .ok bytes ↔
          IsOpened disk (root.join sourceDir) place (names ++ [name]) mode ∧ bytes = content := by
        rw [Disk.readBytes_eq_ok_iff_of_reaches leads childSpells reaches, isOpened_iff]
      rw [isAccepted_file_iff held, IsFoundBelow]
      rw [← List.append_assoc] at segments excluded ⊢
      have extension : relative.extension? = Path.extensionOf? name := by
        rw [Path.extension?, Path.name?_eq segments, Option.bind_some]
      refine (isExact_sourceAt held excluded isSeen segments reads).congr ?_ fun _ => Iff.rfl
      rw [extension, List.getLast?_concat, Option.bind_some]
      exact ⟨fun accepted _ => accepted, fun accepted => accepted excluded⟩
  | link target => exact isExact_nil (fun _ => isAccepted_link held) fun _ =>
      not_isFound_of_link held

/-- Below the source directory discovery finds what is to be found. -/
theorem isExact_sourcesBelow (plain : HasPlainNames disk place)
    (spells : Spells (root.join sourceDir) path names)
    (kind : path.isAbsolute = (root.join sourceDir).isAbsolute)
    {mode depth : Nat} (reaches : Reaches disk place names (.directory mode))
    (deep : Disk.longestPath < Disk.spelledSize path.segments + depth) :
    IsExact
      (IsAccepted disk exclude (root.join sourceDir) place (Path.ofText sourceDir).segments names)
      (IsFoundBelow disk (isSeenAbsolute root sourceDir) exclude place
        (Path.ofText sourceDir).segments names)
      (sourcesBelow disk root (exclusionsOf exclude) depth path) := by
  induction depth generalizing path names mode with
  | zero =>
      -- the path of the directory is too long to be listed
      refine isExact_error fun accepted => ?_
      have opened := ((isAccepted_iff reaches.held).1 accepted).1
      rw [spells.segments] at deep
      exact opened.fits.size deep
  | succ depth ih =>
      have directory := reaches.held
      have lists (entries : List Disk.Entry) : disk.list path = .ok entries ↔
          IsOpened disk (root.join sourceDir) place names mode ∧
            entries = (disk.children (place ++ names)).map (IsProject.entryOf path) := by
        rw [Disk.list_eq_ok_iff_of_reaches leads spells reaches, isOpened_iff]
      have accepts := @isAccepted_iff disk exclude place names (root.join sourceDir)
        (Path.ofText sourceDir).segments mode directory
      rw [sourcesBelow_succ]
      cases listed : disk.list path with
      | error error =>
          refine isExact_error fun accepted => ?_
          rw [(lists _).2 ⟨(accepts.1 accepted).1, rfl⟩] at listed
          contradiction
      | ok entries =>
          obtain ⟨opened, rfl⟩ := (lists entries).1 listed
          have each : ∀ child ∈ disk.children (place ++ names), IsExact
              (¬ Excludes exclude ((Path.ofText sourceDir).segments ++ (names ++ [child.1])) →
                IsAccepted disk exclude (root.join sourceDir) place (Path.ofText sourceDir).segments
                  (names ++ [child.1]))
              (IsFoundBelow disk (isSeenAbsolute root sourceDir) exclude place
                (Path.ofText sourceDir).segments (names ++ [child.1]))
              (visit disk root (exclusionsOf exclude)
                (sourcesBelow disk root (exclusionsOf exclude) depth)
                  (IsProject.entryOf path child)) := by
            rintro ⟨name, node⟩ mem
            have held := Disk.mem_children_iff.1 mem
            have named := plain names name node held
            have childReaches := reaches.concat held
            have deeper : Disk.spelledSize path.segments <
                Disk.spelledSize (path.join name).segments := by
              rw [Path.segments_join_segment path named.toIsSegment, Disk.spelledSize_append]
              simp only [Disk.spelledSize]
              omega
            refine isExact_visit leads spells kind named childReaches fun _ isDirectory => ?_
            exact ih (spells.join named) (isAbsolute_join_name kind named)
              (isDirectory ▸ childReaches) (by omega)
          have apart := @before_of_children disk (isSeenAbsolute root sourceDir) exclude
            ((Path.ofText sourceDir).segments ++ names) (place ++ names)
          simp only [List.append_assoc] at apart
          have brought := isExact_flatten each apart
          simp only [sourcesAmong, List.mapM_map]
          refine brought.congr ?_ fun source => ?_
          · rw [accepts, and_iff_right opened]
          · rw [IsFoundBelow, isFound_iff directory]
            simp only [IsFoundBelow, List.append_assoc]

end

end Discovery

/-! ## Discovery as a whole -/

section

variable {disk : Disk} {root : Path} {sourceDir : Text} {exclude : List Text}
  {exclusions : List Path}

/-- Without a source directory nothing is discovered. -/
theorem exists_error_of_no_directory
    (noDirectory : ∀ place mode,
      disk.walk true (root.join sourceDir).segments ≠ .ok (.node place (.directory mode))) :
    ∃ error, discover disk root sourceDir exclusions =
      .error (.discovery (root.join sourceDir) error) := by
  rw [discover]
  cases required : disk.requireDirectory (root.join sourceDir) with
  | error error => exact ⟨error, rfl⟩
  | ok =>
      obtain ⟨place, mode, leads⟩ := Disk.exists_walk_of_requireDirectory required
      exact absurd leads (noDirectory place mode)

/-- With a source directory the sources there are discovered. -/
theorem isExact_discover {place : Location} {mode : Nat}
    (leads : disk.walk true (root.join sourceDir).segments = .ok (.node place (.directory mode)))
    (plain : HasPlainNames disk place) :
    Discovery.IsExact
      (∀ names inner, LooksInto disk exclude place (Path.ofText sourceDir).segments names inner →
        IsOpened disk (root.join sourceDir) place names inner)
      (fun source => ∃ names,
        IsSourceAt disk (isSeenAbsolute root sourceDir) exclude place
          (Path.ofText sourceDir).segments
          names source)
      (discover disk root sourceDir (exclusionsOf exclude)) := by
  have top : Reaches disk place [] (.directory mode) := .here (Disk.get?_of_walk leads)
  have exact :=
    @Discovery.isExact_sourcesBelow disk root _ sourceDir exclude place [] mode leads plain
    (spells_self _) rfl mode Discovery.mostLevels top (by simp only [Discovery.mostLevels]; omega)
  rw [discover_eq_sourcesBelow leads plain]
  apply exact.congr
  · simp only [Discovery.IsAccepted, List.append_nil, List.nil_append]
  · simp only [Discovery.IsFoundBelow, Discovery.IsFound, List.append_nil, implies_true]

/-- Discovery is exact and ordered. It fails when the path of the source directory does not lead
to a directory. When it leads to one, and the names below that are plain, discovery yields the
sources there and nothing else, each once, in strictly increasing order. It does so unless it
has to look into something that the system does not open. Whatever it fails with is a failure
of discovery. -/
theorem discover_exact (disk : Disk) (root : Path) (sourceDir : Text) (exclude : List Text) :
    ((∀ place mode, disk.walk true (root.join sourceDir).segments ≠
      .ok (.node place (.directory mode))) →
      ∃ error, discover disk root sourceDir (exclusionsOf exclude) =
        .error (.discovery (root.join sourceDir) error)) ∧
    (∀ place mode, disk.walk true (root.join sourceDir).segments =
      .ok (.node place (.directory mode)) →
      HasPlainNames disk place →
      Discovery.IsExact
        (∀ names inner, LooksInto disk exclude place (Path.ofText sourceDir).segments names inner →
          IsOpened disk (root.join sourceDir) place names inner)
        (fun source => ∃ names,
          IsSourceAt disk (isSeenAbsolute root sourceDir) exclude place
            (Path.ofText sourceDir).segments
            names source)
        (discover disk root sourceDir (exclusionsOf exclude))) ∧
    ∀ failure, discover disk root sourceDir (exclusionsOf exclude) = .error failure →
      failure.IsDiscovery :=
  ⟨exists_error_of_no_directory, fun _ _ => isExact_discover, fun _ => isDiscovery_of_discover⟩

end

namespace Engine

/-- A source directory with a link, a directory to leave out, an image, and two sources. The
process may neither list that directory nor read the image. -/
def linkedDisk : Disk :=
  let file (names : List String) (content : String) (disk : Disk) : Disk :=
    disk.store (smallLocation names) (.file (Utf8.encode content.toList) Node.fileMode)
  let directory (names : List String) (disk : Disk) : Disk :=
    disk.store (smallLocation names) (.directory Node.directoryMode)
  Disk.empty
    |> directory []
    |> directory ["src"]
    |> directory ["src", "lib"]
    |> file ["src", "lib", "c.ts"] "// <dler-remove-line>\n"
    |> file ["src", "lib.ts"] "// <dler-remove-line>\n"
    |>.store (smallLocation ["src", "old"]) (.directory 0)
    |> file ["src", "old", "d.ts"] "// <dler-remove-line>\n"
    |>.store (smallLocation ["src", "logo.png"])
      (.file (Utf8.encode "// <dler-remove-line>\n".toList) 0)
    |>.store (smallLocation ["src", "link.ts"]) (.link "lib.ts".toList)
    |>.restricted

/-- The sources there. The file in the directory comes first, though its path as a text is the
greater one. -/
def linkedSources : List SourceFile :=
  [⟨Path.ofText "src/lib/c.ts".toList, "// <dler-remove-line>\n".toList⟩,
    ⟨Path.ofText "src/lib.ts".toList, "// <dler-remove-line>\n".toList⟩]

/-- On that disk the two sources are all that is to be found. -/
theorem discover_exact_linked :
    discover linkedDisk smallEngine.root "src".toList (exclusionsOf ["old".toList]) =
      .ok linkedSources ∧
      linkedSources.Pairwise SourceFile.Before ∧
      ∀ source, source ∈ linkedSources ↔ ∃ names,
        IsSourceAt linkedDisk false
          ["old".toList] (smallLocation ["src"]) (Path.ofText "src".toList).segments
          names source := by
  have leads : linkedDisk.walk true (smallEngine.root.join "src".toList).segments =
      .ok (.node (smallLocation ["src"]) (.directory Node.directoryMode)) := by decide +kernel
  have plain : HasPlainNames linkedDisk (smallLocation ["src"]) :=
    Disk.hasPlainNames_of_entries _ (by decide +kernel)
  have found : discover linkedDisk smallEngine.root "src".toList (exclusionsOf ["old".toList]) =
      .ok linkedSources := by decide +kernel
  obtain ⟨_, exactly, _⟩ := discover_exact linkedDisk smallEngine.root "src".toList ["old".toList]
  have exact := exactly _ _ leads plain
  exact ⟨found, exact.ordered _ found, exact.mem_iff _ found⟩

/-- A name of almost the greatest length. -/
def longName (c : Char) : Text := List.replicate 253 c

/-- The way to the source directory through another one, and back, again and again. -/
def detour : Nat → Text
  | 0 => "src".toList
  | turns + 1 => longName 'd' ++ "/../".toList ++ detour turns

/-- A source with a long name, and a directory with a long name beside it. -/
def longDisk : Disk :=
  Disk.empty
    |>.store (smallLocation []) (.directory Node.directoryMode)
    |>.store (smallLocation [] ++ [longName 'd']) (.directory Node.directoryMode)
    |>.store (smallLocation ["src"]) (.directory Node.directoryMode)
    |>.store (smallLocation ["src"] ++ [longName 'f'])
      (.file (Utf8.encode "// <dler-remove-line>\n".toList) Node.fileMode)

/-- The path to the source directory can be so long that the source in it is out of reach. -/
theorem discover_ne_ok_of_detour :
    longDisk.walk true (smallEngine.root.join (detour 15)).segments =
        .ok (.node (smallLocation ["src"]) (.directory Node.directoryMode)) ∧
      HasPlainNames longDisk (smallLocation ["src"]) ∧
      IsSourceAt longDisk false [] (smallLocation ["src"]) (Path.ofText (detour 15)).segments
        [longName 'f']
        ⟨Path.ofText (detour 15 ++ '/' :: longName 'f'), "// <dler-remove-line>\n".toList⟩ ∧
      ∀ sources, discover longDisk smallEngine.root (detour 15) (exclusionsOf []) ≠
        .ok sources := by
  have leads : longDisk.walk true (smallEngine.root.join (detour 15)).segments =
      .ok (.node (smallLocation ["src"]) (.directory Node.directoryMode)) := by decide +kernel
  have plain : HasPlainNames longDisk (smallLocation ["src"]) :=
    Disk.hasPlainNames_of_entries _ (by decide +kernel)
  have directory : longDisk.get? (smallLocation ["src"]) = some (.directory Node.directoryMode) :=
    Disk.get?_of_walk leads
  have reached : Reaches longDisk (smallLocation ["src"]) [longName 'f']
      (.file (Utf8.encode "// <dler-remove-line>\n".toList) Node.fileMode) :=
    .down directory (.here (by decide +kernel))
  have named : Binary.hasExtension
      (((Path.ofText (detour 15)).segments ++ [longName 'f']).getLast?.bind Path.extensionOf?) =
        false := by
    rw [List.getLast?_concat]
    decide +kernel
  refine ⟨leads, plain,
    ⟨by decide +kernel, by decide +kernel, ⟨_, reached⟩, by simp [Excludes], named,
    by decide +kernel, by decide +kernel⟩, fun sources found => ?_⟩
  have looks : LooksInto longDisk [] (smallLocation ["src"]) (Path.ofText (detour 15)).segments
      [longName 'f'] Node.fileMode := ⟨by simp [Excludes], .inr ⟨⟨_, reached⟩, named⟩⟩
  have opened := (isExact_discover leads plain).accepts.1 ⟨sources, found⟩ _ _ looks
  exact opened.fits.size (by decide +kernel)

end Engine

end Run

end DistDirectives
