import DistDirectives.Directive.Replacement
import DistDirectives.Text.WordChar

/-!
# Finding the directive of a line

A directive stands after a comment marker: blanks, possibly an annotation that
suppresses a type error together with its explanation, the token, a name, a body
that runs to the last closing bracket of the line. The leftmost marker from which
all this can be read counts.

The explanation of an annotation holds no opening bracket, so it ends where the
next bracket stands; the name runs as far as it can, since blanks and closing
brackets end it and neither can be part of it.
-/

namespace DistDirectives.Directive

/-- The keywords of the annotations that may stand before a directive. -/
def annotations : List Text := ["@ts-expect-error".toList, "@ts-ignore".toList]

/-- What follows the keyword of an annotation, which must end there. -/
def afterAnnotationKeyword? (text : Text) : Option Text :=
  (annotations.findSome? fun keyword => Text.after? keyword text).filter Text.wordEnds

/-- The text from the token on: an annotation with its explanation is passed
over, anything else is left as it is. -/
def behindExplanation (text : Text) : Text :=
  match afterAnnotationKeyword? text with
  | some explanation => explanation.dropWhile (· ≠ '<')
  | none => text

/-- The characters that can be part of a name. -/
def isNameChar (c : Char) : Bool := !Text.isBlank c && c ≠ '>'

/-- The text up to its last closing bracket, or nothing if it has none. -/
def upToLastBracket (text : Text) : Text := Text.dropEndWhile (· ≠ '>') text

/-- The name and the body that follow a token. -/
def nameAndBody? (text : Text) : Option (Text × Text) :=
  match text.takeWhile isNameChar with
  | [] => none
  | name =>
    let line := (text.dropWhile isNameChar).takeWhile (· ≠ '\n')
    match upToLastBracket line with
    | [] => none
    | closed => some (name, closed.dropLast)

/-- The name and the body of a directive that starts at a comment marker. -/
def atMarker? (text : Text) : Option (Text × Text) := do
  let afterMarker ← Text.after? commentMarker text
  let afterToken ← Text.after? token (behindExplanation (Text.trimStart afterMarker))
  nameAndBody? afterToken

/-- The name and the body of the leftmost directive. -/
def scan : Text → Option (Text × Text)
  | [] => none
  | c :: rest => (atMarker? (c :: rest)).or (scan rest)

/-- What a name and a body say. -/
def interpret (name body : Text) : Reading :=
  if name = removeLineName then .directive .removeLine
  else if name = removeFileName then .directive .removeFile
  else if name = removeCommentName then .directive .removeComment
  else if name = replaceLineName then
    match Body.read? body with
    | some directive => .directive directive
    | none => .malformed replaceLineName (Text.trim body)
  else .unknown name

/-- What is read off a line. A directive ends with a closing bracket, so nothing behind
the last one is looked at. -/
def read (line : Text) : Reading :=
  match scan (upToLastBracket line) with
  | some (name, body) => interpret name body
  | none => .nothing

end DistDirectives.Directive
