import DistDirectives.Directive.Outcome

/-!
# Edits of whole texts

A text is edited line by line. Lines end at line feeds; one carriage return at the
end of a line is set aside while the line is judged and put back after a
replacement. A line that removes the file ends the edit at once.
-/

namespace DistDirectives

/-- What becomes of a text. -/
inductive Edit where
  | unchanged
  | revised (text : Text)
  | remove
  deriving DecidableEq

/-- A warning and the number of the line that it is about, counted from one. -/
structure LineWarning where
  line : Nat
  warning : Warning
  deriving DecidableEq

/-- The effect of all directives of a text. -/
structure Application where
  edit : Edit
  /-- The number of lines replaced or removed; none when the file is removed. -/
  changedLines : Nat
  warnings : List LineWarning
  deriving DecidableEq

namespace Edit

/-- A line without its final carriage return, and that carriage return. -/
def setAside (raw : Text) : Text × Text :=
  match Text.before? ['\r'] raw with
  | some line => (line, ['\r'])
  | none => (raw, [])

/-- The effect of some lines of a text: whether one of them removes the file, the
lines that survive, how many lines changed, and the warnings. -/
structure Progress where
  removesFile : Bool := false
  lines : List Text := []
  changed : Nat := 0
  warnings : List LineWarning := []
  deriving DecidableEq

namespace Progress

/-- The effect of a line put before the effect of the lines after it. Behind a line
that removes the file nothing counts. -/
def after (raw line carriage : Text) (outcome : Outcome) (later : Progress) : Progress :=
  match outcome.verdict with
  | .removeFile => { removesFile := true }
  | .removeLine => { later with changed := later.changed + 1 }
  | .replace replacement =>
    { later with
      lines := (replacement ++ carriage) :: later.lines
      changed := if replacement = line then later.changed else later.changed + 1 }
  | .keep => { later with lines := raw :: later.lines }

/-- The warning of a line put before the warnings of the lines after it. -/
def warn (number : Nat) (outcome : Outcome) (progress : Progress) : Progress :=
  match outcome.warning with
  | some warning => { progress with warnings := ⟨number, warning⟩ :: progress.warnings }
  | none => progress

end Progress

/-- The effect of lines that are numbered from a given number on. -/
def pass (path : Text) : Nat → List Text → Progress
  | _, [] => {}
  | number, raw :: rest =>
    let (line, carriage) := setAside raw
    let outcome := Directive.evaluate path line
    Progress.warn number outcome
      (Progress.after raw line carriage outcome (pass path (number + 1) rest))

/-- The effect of all directives of a text in the distribution file at a path. -/
def apply (path content : Text) : Application :=
  if Directive.mentioned content then
    let progress := pass path 1 (Text.splitOn '\n' content)
    if progress.removesFile then
      { edit := .remove, changedLines := 0, warnings := progress.warnings }
    else
      let revised := Text.joinWith '\n' progress.lines
      { edit := if revised = content then .unchanged else .revised revised
        changedLines := progress.changed
        warnings := progress.warnings }
  else
    { edit := .unchanged, changedLines := 0, warnings := [] }

end Edit

end DistDirectives
