import DistDirectives.Path
import DistDirectives.Text.Blank

/-!
# Conditions

The only condition asks whether the path of the distribution file starts with one
of several given texts. It is written

    current file path starts with dist-npm or dist-jsr

that is, as a fixed beginning followed by a list that is cut at each `or` between
blanks. A piece that is not one word makes the condition unsupported, and so does
everything else.
-/

namespace DistDirectives

/-- The path of the distribution file starts with one of these texts. -/
structure Condition where
  leads : List Text
  deriving DecidableEq

namespace Condition

/-- The fixed beginning of every condition. -/
def opening : Text := "current file path starts with".toList

/-- The word between two alternatives. -/
def orWord : Text := "or".toList

/-- Whether the condition holds for the path of a distribution file. The given
texts are matched as plain beginnings, not segment by segment. -/
def holds (condition : Condition) (path : Text) : Bool :=
  condition.leads.any fun lead => lead.isPrefixOf (Path.slashed path)

/-- The condition of a line replacement that has none of its own. -/
def standard : Condition := ⟨["dist-jsr".toList, "dist-npm".toList]⟩

/-- What follows a separator, if the text begins with one: `or` between blanks, which
are passed over as far as they go. -/
def afterSeparator? (text : Text) : Option Text := do
  let atWord ← Text.afterBlanks? text
  let behindWord ← Text.after? orWord atWord
  Text.afterBlanks? behindWord

/-- The pieces of a text between its separators, which are taken from left to right and
do not overlap. The count says how many characters still belong to the separator that
was met last. -/
def pieces : Nat → Text → List Text
  | _, [] => [[]]
  | skipped + 1, _ :: rest => pieces skipped rest
  | 0, c :: rest =>
    match afterSeparator? (c :: rest) with
    | some behind => [] :: pieces (rest.length - behind.length) rest
    | none =>
      match pieces 0 rest with
      | [] => [[c]]
      | piece :: more => (c :: piece) :: more

/-- Whether a piece can be a lead: it is one word. -/
def isLead (piece : Text) : Bool := !piece.isEmpty && !piece.any Text.isBlank

/-- The condition that a text describes, if it is a supported one. -/
def read? (text : Text) : Option Condition := do
  let afterOpening ← Text.after? opening (Text.trimStart text)
  let afterGap ← Text.afterBlanks? afterOpening
  let list := Text.trimEnd afterGap
  if list.contains '\n' then
    none
  else
    let leads := (pieces 0 list).map fun piece => Path.slashed (Text.trim piece)
    if leads.all isLead then some ⟨leads⟩ else none

end Condition

end DistDirectives
