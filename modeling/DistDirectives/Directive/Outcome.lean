import DistDirectives.Directive.Condition
import DistDirectives.Directive.Scan

/-!
# Outcomes of lines

The outcome of a line says what the edited text has in its place, and whether
something about the line deserves a warning. It depends on the line and on the
path of the distribution file alone.
-/

namespace DistDirectives

/-- Something that is wrong with a line and does not stop the edit. -/
inductive Warning where
  | unknownDirective (name : Text)
  | unsupportedCondition (condition : Text)
  | malformedDirective (name body : Text)
  deriving DecidableEq

namespace Warning

/-- The warning as it is shown. -/
def message : Warning → String
  | unknownDirective name => s!"unknown directive <dler-{name.toString}>"
  | unsupportedCondition condition =>
    s!"unsupported condition '{condition.toString}', treated as false"
  | malformedDirective name body =>
    s!"malformed <dler-{name.toString}> body: {body.toString}"

end Warning

/-- What happens to a line. -/
inductive Verdict where
  | keep
  | replace (line : Text)
  | removeLine
  | removeFile
  deriving DecidableEq

/-- What happens to a line, and what is wrong with it. -/
structure Outcome where
  verdict : Verdict := .keep
  warning : Option Warning := none
  deriving DecidableEq

namespace Outcome

/-- The line stays as it is. -/
def isNoop (outcome : Outcome) : Bool := outcome.verdict == .keep

/-- Whether a line is a comment by itself. -/
def isComment (line : Text) : Bool := Directive.commentMarker.isPrefixOf (Text.trim line)

/-- The verdict of a line replacement whose condition is decided. -/
def chosen (holds : Bool) (replacement : Text) (alternative : Option Text) : Verdict :=
  if holds then .replace replacement
  else
    match alternative with
    | some line => .replace line
    | none => .keep

/-- The outcome of a directive on its line. A condition that cannot be read
counts as false. -/
def ofDirective (line path : Text) : Directive → Outcome
  | .removeFile => { verdict := .removeFile }
  | .removeLine => { verdict := .removeLine }
  | .removeComment => { verdict := if isComment line then .removeLine else .keep }
  | .replaceLine replacement none alternative =>
    { verdict := chosen (Condition.standard.holds path) replacement alternative }
  | .replaceLine replacement (some text) alternative =>
    match Condition.read? text with
    | some condition => { verdict := chosen (condition.holds path) replacement alternative }
    | none =>
      { verdict := chosen false replacement alternative
        warning := some (.unsupportedCondition text) }

/-- The outcome of what was read off a line. -/
def ofReading (line path : Text) : Reading → Outcome
  | .nothing => {}
  | .unknown name => { warning := some (.unknownDirective name) }
  | .malformed name body => { warning := some (.malformedDirective name body) }
  | .directive directive => ofDirective line path directive

end Outcome

/-- The outcome of a line in the distribution file at a path. -/
def Directive.evaluate (path line : Text) : Outcome :=
  Outcome.ofReading line path (Directive.read line)

end DistDirectives
