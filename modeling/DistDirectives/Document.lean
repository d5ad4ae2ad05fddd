import DistDirectives.Text

/-!
# Documents

Configuration files of several formats are read into one type of documents: atoms,
words, lists and tables. A table keeps its entries in the order in which they are
written and keeps repeated keys, so that a reader of the document can refuse them.

An atom that a format can write and that nothing can hold, such as a number beyond
every bound, is kept as `unholdable`; whoever wants a value there refuses it.

A part of a document can stand for another one. It is kept as a reference, because what
it refers to can contain it, and a source says what its references stand for.
-/

namespace DistDirectives

/-- A value without parts. -/
inductive Atom where
  | null
  | bool (value : Bool)
  | integer (value : Int)
  /-- A number that is no integer, or is not written as one. -/
  | real
  | text (value : Text)
  /-- A moment in time. -/
  | moment
  /-- Something that can be written and not be held. -/
  | unholdable
  deriving DecidableEq

/-- What is said where a value may be missing. -/
inductive Presence where
  | present
  | missing
  /-- What is written there says neither. -/
  | unclear
  deriving DecidableEq

/-- A scalar whose meaning depends on where it stands. -/
structure Word where
  /-- What it stands for where a text is expected. -/
  spelling : Text
  /-- What it stands for where any value can stand. -/
  atom : Atom
  /-- What it says where a value may be missing. -/
  presence : Presence
  /-- Nothing is written, which also stands for a collection without parts. -/
  isBlank : Bool
  deriving DecidableEq

/-- What a configuration file says. -/
inductive Document where
  | atom (atom : Atom)
  | word (word : Word)
  | list (items : List Document)
  /-- Keys can be anything. -/
  | table (entries : List (Document × Document))
  /-- A collection of a kind that only its own file gives a meaning to. -/
  | foreign (document : Document)
  /-- What stands for the document of a number. -/
  | reference (number : Nat)

namespace Document

/-- The document of a text. -/
def ofText (text : Text) : Document := atom (.text text)

/-- The collection without the mark that its kind is foreign. -/
def unmarked : Document → Document
  | foreign document => document
  | document => document

mutual

/-- How many parts a document has that are read one by one: every scalar and reference,
and the two ends of every collection. -/
def size : Document → Nat
  | atom _ => 1
  | word _ => 1
  | reference _ => 1
  | list items => itemSizes items + 2
  | table entries => entrySizes entries + 2
  | foreign document => document.size

/-- How many parts the items of a list have. -/
def itemSizes : List Document → Nat
  | [] => 0
  | item :: rest => item.size + itemSizes rest

/-- How many parts the entries of a table have. -/
def entrySizes : List (Document × Document) → Nat
  | [] => 0
  | (key, value) :: rest => key.size + value.size + entrySizes rest

end

/-- A document with what its references stand for. -/
structure Source where
  root : Document
  /-- What the references stand for, by their numbers. -/
  targets : List (Nat × Document) := []
  /-- How many references may be followed until everything is read. -/
  allowance : Nat := 0

end Document

end DistDirectives
