import DistDirectives.Document

/-!
# Building tables

The statements of a TOML file build one table. A table can come into being by its
own header, by a longer path that leads through it, or by dotted keys, and how it
came into being decides which later statements may still extend it: a table has one
header at most, a header does not reopen what dotted keys made, and dotted keys do
not reach into a table with a header. No key is given twice.
-/

namespace DistDirectives.Document.Toml

/-- What a key of a table under construction holds. -/
inductive Slot where
  | value (document : Document)
  /-- A table; `implicit` says that it has no header of its own, `dotted` that dotted
  keys made it. -/
  | table (implicit dotted : Bool) (entries : List (Text × Slot))
  /-- The tables of a list, the newest first. -/
  | tables (newestFirst : List (List (Text × Slot)))

/-- The entries of a table under construction. -/
abbrev Entries := List (Text × Slot)

/-- Changes what a key holds, or adds the key at the end; the change may be refused. -/
def alter (key : Text) (change : Option Slot → Option Slot) : Entries → Option Entries
  | [] => (change none).map fun slot => [(key, slot)]
  | entry :: rest =>
    if entry.1 = key then (change (some entry.2)).map fun slot => (key, slot) :: rest
    else (alter key change rest).map (entry :: ·)

/-- A change of the table at the end of a path, given how that table is marked. -/
abbrev Change := Bool → Entries → Option Entries

/-- Changes the table at the end of a path, making the tables that are missing on
the way. Of a list of tables the newest one is entered. Dotted keys enter only tables
without a header. -/
def within (dotted : Bool) (change : Change) : List Text → Change
  | [], isDotted, entries => change isDotted entries
  | key :: path, _, entries =>
    alter key (fun
      | none => (within dotted change path dotted []).map (.table true dotted ·)
      | some (.value _) => none
      | some (.table implicit isDotted inner) =>
        if dotted && !implicit then none
        else (within dotted change path isDotted inner).map (.table implicit isDotted ·)
      | some (.tables []) => none
      | some (.tables (newest :: older)) =>
        (within dotted change path false newest).map fun newest => .tables (newest :: older))
      entries

/-- Adds a value under dotted keys, all but the last of which name tables. A table that
dotted keys made takes values from dotted keys only. -/
def addValue (keys : List Text) (document : Document) : Change :=
  match keys.getLast? with
  | none => fun _ _ => none
  | some key =>
    within true (fun isDotted entries =>
      if isDotted = keys.dropLast.isEmpty then none
      else
        alter key (fun
          | none => some (.value document)
          | some _ => none) entries) keys.dropLast

/-- Opens the table of a header. -/
def openTable (keys : List Text) : Change :=
  match keys.getLast? with
  | none => fun _ _ => none
  | some key =>
    within false (fun _ entries =>
      alter key (fun
        | none => some (.table false false [])
        | some (.table true false inner) => some (.table false false inner)
        | some _ => none) entries) keys.dropLast

/-- Adds a table to the list of a header. -/
def openListItem (keys : List Text) : Change :=
  match keys.getLast? with
  | none => fun _ _ => none
  | some key =>
    within false (fun _ entries =>
      alter key (fun
        | none => some (.tables [[]])
        | some (.tables tables) => some (.tables ([] :: tables))
        | some _ => none) entries) keys.dropLast

mutual

/-- What a key holds, as a document. -/
def Slot.toDocument : Slot → Document
  | .value document => document
  | .table _ _ entries => .table (entriesToDocument entries)
  | .tables newestFirst => .list (tablesToDocument newestFirst).reverse

/-- The entries of a table, as entries of a document. -/
def entriesToDocument : List (Text × Slot) → List (Document × Document)
  | [] => []
  | (key, slot) :: rest => (.ofText key, slot.toDocument) :: entriesToDocument rest

/-- The tables of a list, as documents. -/
def tablesToDocument : List (List (Text × Slot)) → List Document
  | [] => []
  | entries :: rest => .table (entriesToDocument entries) :: tablesToDocument rest

end

/-- The table of pairs of dotted keys and values, in the order of the pairs. -/
def ofPairs? (pairs : List (List Text × Document)) : Option Document :=
  (pairs.foldlM (fun entries pair => addValue pair.1 pair.2 false entries) []).map
    fun entries => .table (entriesToDocument entries)

/-- A statement of a file. -/
inductive Statement where
  | pair (keys : List Text) (document : Document)
  | header (keys : List Text)
  | listHeader (keys : List Text)

/-- A file under construction: the table of the last header, and all entries. -/
structure Progress where
  current : List Text := []
  entries : Entries := []

/-- A file with one more statement, if the statement is allowed there. -/
def Progress.add (progress : Progress) : Statement → Option Progress
  | .pair keys document =>
    (within false (addValue keys document) progress.current false progress.entries).map
      fun entries => { progress with entries := entries }
  | .header keys => (openTable keys false progress.entries).map fun entries => ⟨keys, entries⟩
  | .listHeader keys =>
    (openListItem keys false progress.entries).map fun entries => ⟨keys, entries⟩

/-- The document that statements build. -/
def ofStatements? (statements : List Statement) : Option Document :=
  (statements.foldlM Progress.add {}).map fun progress =>
    .table (entriesToDocument progress.entries)

end DistDirectives.Document.Toml
