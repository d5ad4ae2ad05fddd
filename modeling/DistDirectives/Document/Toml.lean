import DistDirectives.Document.Toml.Lexical
import DistDirectives.Document.Toml.Tables

/-!
# TOML

A TOML file is a sequence of lines, each of which is empty, gives a value to dotted
keys, or opens a table. Values are strings, numbers, truth values, moments, lists and
inline tables; only lists may extend over several lines.
-/

namespace DistDirectives.Document.Toml

/-- The number of levels to which values can be nested. -/
def mostLevels : Nat := 79

mutual

/-- A value at the beginning of a text, and what follows it. The first number bounds
the levels, the second one the steps. -/
def value? : Nat → Nat → Text → Option (Document × Text)
  | _, 0, _ => none
  | levels, bound + 1, text =>
    match text with
    | '[' :: rest =>
      match levels with
      | 0 => none
      | levels + 1 => (items? levels bound rest).map fun (items, rest) => (.list items, rest)
    | '\x7b' :: rest =>
      match levels with
      | 0 => none
      | levels + 1 =>
        match skipBlanks rest with
        | '\x7d' :: rest => some (.table [], rest)
        | rest => do
          let (pairs, rest) ← pairs? levels bound rest
          let document ← ofPairs? pairs
          return (document, rest)
    | '"' :: _ => (string? bound text).map fun (content, rest) => (.ofText content, rest)
    | '\'' :: _ => (string? bound text).map fun (content, rest) => (.ofText content, rest)
    | 't' :: 'r' :: 'u' :: 'e' :: rest => some (.atom (.bool true), rest)
    | 'f' :: 'a' :: 'l' :: 's' :: 'e' :: rest => some (.atom (.bool false), rest)
    | text => (numberOrMoment? text).map fun (value, rest) => (.atom value, rest)

/-- The items of a list up to its closing bracket, and what follows. A comma may
stand behind the last one. -/
def items? : Nat → Nat → Text → Option (List Document × Text)
  | _, 0, _ => none
  | levels, bound + 1, text =>
    match skipLines bound text with
    | ']' :: rest => some ([], rest)
    | text => do
      let (item, rest) ← value? levels bound text
      match skipLines bound rest with
      | ',' :: rest =>
        let (items, rest) ← items? levels bound rest
        return (item :: items, rest)
      | ']' :: rest => return ([item], rest)
      | _ => none

/-- The pairs of an inline table up to its closing brace, at least one, and what
follows. -/
def pairs? : Nat → Nat → Text → Option (List (List Text × Document) × Text)
  | _, 0, _ => none
  | levels, bound + 1, text => do
    let (keys, rest) ← dottedKeys? bound text
    match skipBlanks rest with
    | '=' :: rest =>
      let (value, rest) ← value? levels bound (skipBlanks rest)
      match skipBlanks rest with
      | ',' :: rest =>
        let (pairs, rest) ← pairs? levels bound rest
        return ((keys, value) :: pairs, rest)
      | '\x7d' :: rest => return ([(keys, value)], rest)
      | _ => none
    | _ => none

end

/-- The keys of a header behind its opening brackets, and what follows the closing
ones. -/
def headerKeys? (bound : Nat) (closing text : Text) : Option (List Text × Text) := do
  let (keys, rest) ← dottedKeys? bound text
  let rest ← Text.after? closing rest
  return (keys, rest)

/-- A statement and what follows it on its line. -/
def statement? (bound : Nat) : Text → Option (Statement × Text)
  | '[' :: '[' :: rest =>
    (headerKeys? bound [']', ']'] rest).map fun (keys, rest) => (.listHeader keys, rest)
  | '[' :: rest => (headerKeys? bound [']'] rest).map fun (keys, rest) => (.header keys, rest)
  | text => do
    let (keys, rest) ← dottedKeys? bound text
    let rest ← char? '=' rest
    let (value, rest) ← value? mostLevels bound (skipBlanks rest)
    return (.pair keys value, rest)

/-- The statements of a text. The number bounds how many steps reading takes: one for
each statement, and two for each character of a value. -/
def statements? : Nat → Text → Option (List Statement)
  | 0, _ => none
  | bound + 1, text =>
    match skipLines bound text with
    | [] => some []
    | text => do
      let (statement, rest) ← statement? bound text
      let rest ← afterLine? rest
      let statements ← statements? bound rest
      return statement :: statements

/-- The text without the byte order mark at its beginning. -/
def skipMark : Text → Text
  | '\uFEFF' :: rest => rest
  | text => text

/-- The document that a TOML text writes. -/
def read? (text : Text) : Option Document := do
  let statements ← statements? (2 * text.length + 4) (skipMark text)
  ofStatements? statements

end DistDirectives.Document.Toml
