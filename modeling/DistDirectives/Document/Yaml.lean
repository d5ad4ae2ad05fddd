import DistDirectives.Document.Yaml.Layout
import DistDirectives.Document.Yaml.Word

/-!
# YAML texts

A YAML text holds a document in flow style, with brackets, or in block style, where the
layout tells what belongs together. A node can be given a name, by which it is referred
to further on.

A name stands for a number: as many names as there have been before it was given. So a
name that is given again gets a new number, which the next new name gets too. A number
refers to the node that was the last one to begin with it.
-/

namespace DistDirectives.Document.Yaml

/-! ## Names -/

/-- A node that can be referred to. -/
structure Target where
  number : Nat
  /-- How many named nodes have begun before it. -/
  position : Nat
  document : Document

/-- The names that have been given to nodes. -/
structure Names where
  /-- The numbers that names stand for, one for each name. -/
  numbers : List (Text × Nat) := []
  /-- How many named nodes have begun. -/
  begun : Nat := 0
  /-- The named nodes that have been read. -/
  targets : List Target := []

namespace Names

/-- The names with one more, for a node that begins. -/
def add (names : Names) (name : Text) : Names :=
  { names with
    numbers := (name, names.numbers.length) :: names.numbers.filter (·.1 ≠ name)
    begun := names.begun + 1 }

/-- The names at the beginning of a node, which may have one. -/
def begin? (names : Names) : Option Text → Names
  | some name => names.add name
  | none => names

/-- What the numbers stand for. -/
def toTargets (names : Names) : List (Nat × Document) :=
  let lastFirst := names.targets.mergeSort fun left right => right.position ≤ left.position
  lastFirst.map fun target => (target.number, target.document)

end Names

/-- What the handles of tags stand for. -/
abbrev Handles := List (Text × Text)

/-- The properties in front of a node. -/
structure Properties where
  name : Option Text := none
  tag : Option Tag := none

/-- The properties at the beginning of some tokens, at most one of each kind, and what
follows them. -/
def properties : List Token → Properties × List Token
  | .anchor name :: .tag tag :: rest => (⟨some name, some tag⟩, rest)
  | .tag tag :: .anchor name :: rest => (⟨some name, some tag⟩, rest)
  | .anchor name :: rest => (⟨some name, none⟩, rest)
  | .tag tag :: rest => (⟨none, some tag⟩, rest)
  | rest => ({}, rest)

/-- A tag in full. A handle without a meaning is refused. -/
def resolve? (handles : Handles) (tag : Option Tag) : Option (Option Text) :=
  match tag with
  | none => some none
  | some tag =>
    if tag.handle.isEmpty then some (some tag.suffix)
    else (handles.lookup tag.handle).map fun meaning => some (meaning ++ tag.suffix)

/-- The document of a node without content. -/
def missing : Document := ofScalar none [] true

/-- A collection under a tag. -/
def ofCollection (tag : Option Text) (document : Document) : Document :=
  if tag.any isForeign then .foreign document else document

/-- What has been read of a document and what is left of its tokens. -/
structure Reading (α : Type) where
  result : α
  names : Names
  rest : List Token

/-- What has been read of a node that may have a name, given the names where it began. -/
def Reading.named (reading : Reading Document) (name : Option Text) (before : Names) :
    Reading Document :=
  match name with
  | some _ =>
    let target := ⟨before.numbers.length, before.begun, reading.result⟩
    { reading with names.targets := target :: reading.names.targets }
  | none => reading

/-- Where a node can stand. -/
inductive Place where
  /-- In flow style. -/
  | flow
  /-- In block style. -/
  | block
  /-- As the key or the value of a table in block style, where the items of a list need
  not stand further right. -/
  | entry
  deriving DecidableEq

/-! ## Missing nodes

A node is missing where its mark is followed at once by a token that goes on with the
collection around it.
-/

/-- Whether a token goes on behind the mark of an item. -/
def endsItem : Token → Bool
  | .item => true
  | .close => true
  | _ => false

/-- Whether a token goes on behind the mark of a key or a value. -/
def endsEntryPart : Token → Bool
  | .key => true
  | .value => true
  | .close => true
  | _ => false

/-- Whether a token goes on behind the mark of an item that stands no further right than
the table around its list. -/
def endsLooseItem : Token → Bool
  | .item => true
  | .key => true
  | .value => true
  | .close => true
  | _ => false

/-- Whether a token goes on behind the mark of a key or a value in flow style. -/
def endsFlowPart (isKey : Bool) (closing : Token) : Token → Bool
  | .comma => true
  | .value => isKey
  | token => token = closing

/-- The tokens behind the comma in front of all items but the first. -/
def afterComma? (isFirst : Bool) (tokens : List Token) : Option (List Token) :=
  if isFirst then some tokens
  else
    match tokens with
    | .comma :: rest => some rest
    | _ => none

/-! ## Nodes

Every step reads a token or turns to a part of a node, so four steps for each token are
enough.
-/

mutual

/-- A node at a place. -/
def node? (handles : Handles) : Nat → Place → Names → List Token → Option (Reading Document)
  | 0, _, _, _ => none
  | _ + 1, _, names, .alias name :: rest => do
    return { result := .reference (← names.numbers.lookup name), names, rest }
  | bound + 1, place, names, tokens => do
    let (⟨name, tag⟩, rest) := properties tokens
    let isMarked := name.isSome || tag.isSome
    let reading ←
      content? handles bound place isMarked (← resolve? handles tag) (names.begin? name) rest
    return reading.named name names

/-- What stands at a place behind the properties of a node, if there are any. Behind
properties nothing has to follow. -/
def content? (handles : Handles) : Nat → Place → Bool → Option Text → Names → List Token →
    Option (Reading Document)
  | 0, _, _, _, _, _ => none
  | bound + 1, place, isMarked, tag, names, tokens =>
    let unwritten := if isMarked then some ⟨ofScalar tag [] true, names, tokens⟩ else none
    match tokens with
    | .scalar content isPlain :: rest => some ⟨ofScalar tag content isPlain, names, rest⟩
    | .openFlowList :: rest => do
      let reading ← flowItems? handles bound true names rest
      return { reading with result := ofCollection tag (.list reading.result) }
    | .openFlowTable :: rest => do
      let reading ← flowEntries? handles bound true names rest
      return { reading with result := ofCollection tag (.table reading.result) }
    | .item :: _ =>
      if place = .entry then do
        let reading ← looseItems? handles bound names tokens
        return { reading with result := ofCollection tag (.list reading.result) }
      else
        unwritten
    | .openItems :: rest =>
      if place = .flow then unwritten
      else do
        let reading ← items? handles bound names rest
        return { reading with result := ofCollection tag (.list reading.result) }
    | .openEntries :: rest =>
      if place = .flow then unwritten
      else do
        let reading ← entries? handles bound names rest
        return { reading with result := ofCollection tag (.table reading.result) }
    | _ => unwritten

/-- A node unless the next token shows that it is missing. -/
def nodeUnless? (handles : Handles) : Nat → (Token → Bool) → Place → Names → List Token →
    Option (Reading Document)
  | 0, _, _, _, _ => none
  | bound + 1, isEnd, place, names, tokens =>
    if tokens.head?.any isEnd then some ⟨missing, names, tokens⟩
    else node? handles bound place names tokens

/-- The items of a list in block style. -/
def items? (handles : Handles) : Nat → Names → List Token → Option (Reading (List Document))
  | 0, _, _ => none
  | bound + 1, names, .item :: rest => do
    let first ← nodeUnless? handles bound endsItem .block names rest
    let more ← items? handles bound first.names first.rest
    return { more with result := first.result :: more.result }
  | _ + 1, names, .close :: rest => some ⟨[], names, rest⟩
  | _ + 1, _, _ => none

/-- The items of a list that stands no further right than the table around it. -/
def looseItems? (handles : Handles) : Nat → Names → List Token →
    Option (Reading (List Document))
  | 0, _, _ => none
  | bound + 1, names, .item :: rest => do
    let first ← nodeUnless? handles bound endsLooseItem .block names rest
    let more ← looseItems? handles bound first.names first.rest
    return { more with result := first.result :: more.result }
  | _ + 1, names, rest => some ⟨[], names, rest⟩

/-- The entries of a table in block style. -/
def entries? (handles : Handles) : Nat → Names → List Token →
    Option (Reading (List (Document × Document)))
  | 0, _, _ => none
  | bound + 1, names, .key :: rest => do
    let key ← nodeUnless? handles bound endsEntryPart .entry names rest
    let value ← match key.rest with
      | .value :: rest => nodeUnless? handles bound endsEntryPart .entry key.names rest
      | rest => some ⟨missing, key.names, rest⟩
    let more ← entries? handles bound value.names value.rest
    return { more with result := (key.result, value.result) :: more.result }
  | _ + 1, names, .close :: rest => some ⟨[], names, rest⟩
  | _ + 1, _, _ => none

/-- The items of a list in flow style, with commas between them. An item with a colon is
a table of one entry. -/
def flowItems? (handles : Handles) : Nat → Bool → Names → List Token →
    Option (Reading (List Document))
  | 0, _, _, _ => none
  | _ + 1, _, names, .closeFlowList :: rest => some ⟨[], names, rest⟩
  | bound + 1, isFirst, names, tokens => do
    let tokens ← afterComma? isFirst tokens
    match tokens with
    | .closeFlowList :: rest => return ⟨[], names, rest⟩
    | .key :: rest =>
      let key ←
        if rest.head?.any (endsFlowPart true .closeFlowList) then
          some ⟨missing, names, rest.drop 1⟩
        else
          node? handles bound .flow names rest
      let value ← flowValue? handles bound .closeFlowList key.names key.rest
      let more ← flowItems? handles bound false value.names value.rest
      return { more with result := .table [(key.result, value.result)] :: more.result }
    | tokens =>
      let first ← node? handles bound .flow names tokens
      let more ← flowItems? handles bound false first.names first.rest
      return { more with result := first.result :: more.result }

/-- The entries of a table in flow style, with commas between them. -/
def flowEntries? (handles : Handles) : Nat → Bool → Names → List Token →
    Option (Reading (List (Document × Document)))
  | 0, _, _, _ => none
  | _ + 1, _, names, .closeFlowTable :: rest => some ⟨[], names, rest⟩
  | bound + 1, isFirst, names, tokens => do
    let tokens ← afterComma? isFirst tokens
    match tokens with
    | .closeFlowTable :: rest => return ⟨[], names, rest⟩
    | .key :: rest =>
      let key ← nodeUnless? handles bound (endsFlowPart true .closeFlowTable) .flow names rest
      let value ← flowValue? handles bound .closeFlowTable key.names key.rest
      let more ← flowEntries? handles bound false value.names value.rest
      return { more with result := (key.result, value.result) :: more.result }
    | tokens =>
      let key ← node? handles bound .flow names tokens
      let more ← flowEntries? handles bound false key.names key.rest
      return { more with result := (key.result, missing) :: more.result }

/-- The value behind a key in flow style, which can be missing. -/
def flowValue? (handles : Handles) : Nat → Token → Names → List Token →
    Option (Reading Document)
  | 0, _, _, _ => none
  | bound + 1, closing, names, .value :: rest =>
    nodeUnless? handles bound (endsFlowPart false closing) .flow names rest
  | _ + 1, _, names, rest => some ⟨missing, names, rest⟩

end

/-! ## Documents -/

/-- The directives in front of a document. No directive may be repeated, and the version
has to be known. -/
def directives? : Bool → Handles → List Token → Option (Handles × List Token)
  | versionGiven, handles, .version major minor :: rest =>
    if versionGiven || major ≠ 1 || (minor ≠ 1 && minor ≠ 2) then none
    else directives? true handles rest
  | versionGiven, handles, .handle handle meaning :: rest =>
    if (handles.lookup handle).isSome then none
    else directives? versionGiven ((handle, meaning) :: handles) rest
  | _, handles, rest => some (handles, rest)

/-- The handles that need no directive. -/
def standardHandles : Handles := [(['!'], ['!']), (['!', '!'], standardTags)]

/-- Whether a token cannot be part of a document. -/
def endsDocument : Token → Bool
  | .version _ _ => true
  | .handle _ _ => true
  | .documentStart => true
  | .documentEnd => true
  | _ => false

/-- How many references may be followed for each part of a document. -/
def followsPerPart : Nat := 100

/-- The document that has been read, if nothing but the marks of its end is left. -/
def source? (reading : Reading Document) : Option Document.Source :=
  if reading.rest.all (· = .documentEnd) then
    some
      { root := reading.result
        targets := reading.names.toTargets
        allowance := followsPerPart * reading.result.size }
  else
    none

/-- The document of some tokens. There may not be a second one. -/
def ofTokens? (tokens : List Token) : Option Document.Source := do
  let (handles, rest) ← directives? false [] tokens
  let handles := handles ++ standardHandles
  let bound := 4 * tokens.length + 4
  match tokens, rest with
  | [], _ => source? ⟨missing, {}, []⟩
  | _, .documentStart :: rest =>
    if rest.isEmpty || rest.head?.any endsDocument then source? ⟨missing, {}, rest⟩
    else source? (← node? handles bound .block {} rest)
  | first :: _, _ =>
    if endsDocument first then none
    else source? (← node? handles bound .block {} tokens)

/-- The document that a text holds. -/
def read? (text : Text) : Option Document.Source := do
  ofTokens? (← tokens? text)

end DistDirectives.Document.Yaml
