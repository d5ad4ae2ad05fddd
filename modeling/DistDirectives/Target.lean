import DistDirectives.Text

/-!
# Distribution targets

A run is asked for targets. Two of them are flat distribution trees; the others are
one library or all libraries below the directory of library distributions. A list
of targets is accepted when each of them can be read, none is given twice, and
the target for all libraries does not stand beside a single library.
-/

namespace DistDirectives

/-- A distribution target. -/
inductive Target where
  | npm
  | jsr
  /-- Every library found on disk. -/
  | allLibraries
  | library (name : Text)
  deriving DecidableEq

/-- Why a list of targets is refused. -/
inductive TargetError where
  | invalid (written : Text)
  | emptyLibrary (written : Text)
  | conflict (wildcard specific : Text)
  | duplicateTarget (written : Text)
  | duplicateLibrary (name : Text)
  deriving DecidableEq

namespace TargetError

/-- The refusal as it is shown. -/
def message : TargetError → String
  | invalid written =>
    s!"Invalid target '{written.toString}': " ++
      "expected dist-npm, dist-jsr, dist-libs or dist-libs/<lib>"
  | emptyLibrary written => s!"Invalid target '{written.toString}': library name is empty"
  | conflict wildcard specific =>
    s!"Target '{wildcard.toString}' (all libraries) cannot be combined with " ++
      s!"'{specific.toString}'"
  | duplicateTarget written => s!"Duplicate target '{written.toString}'"
  | duplicateLibrary name => s!"Duplicate library target '{name.toString}'"

end TargetError

namespace Target

/-- The directory of the npm distribution. -/
def npmDirectory : Text := "dist-npm".toList

/-- The directory of the JSR distribution. -/
def jsrDirectory : Text := "dist-jsr".toList

/-- The directory of the library distributions. -/
def librariesDirectory : Text := "dist-libs".toList

/-- The target as it is written. -/
def text : Target → Text
  | npm => npmDirectory
  | jsr => jsrDirectory
  | allLibraries => librariesDirectory
  | library name => librariesDirectory ++ '/' :: name

/-- The build output of a flat target, as seen from the project root. -/
def flatRoot? : Target → Option Text
  | npm => some (npmDirectory ++ "/bin".toList)
  | jsr => some (jsrDirectory ++ "/bin".toList)
  | allLibraries => none
  | library _ => none

/-- Whether a name cannot be the name of one library directory. -/
def isNestedName (name : Text) : Bool :=
  name.contains '/' || name.contains '\\' || name = ['.'] || name = ['.', '.']

/-- The target that a text names, by itself. -/
def read (written : Text) : Except TargetError Target :=
  if written = npmDirectory then .ok npm
  else if written = jsrDirectory then .ok jsr
  else if written = librariesDirectory then .ok allLibraries
  else
    match Text.after? (librariesDirectory ++ ['/']) written with
    | none => .error (.invalid written)
    | some [] => .error (.emptyLibrary written)
    | some (c :: name) =>
      if isNestedName (c :: name) then .error (.invalid written) else .ok (library (c :: name))

/-- The refusal of a target that was given before. -/
def duplicate (written : Text) : Target → TargetError
  | library name => .duplicateLibrary name
  | _ => .duplicateTarget written

/-- Reads texts one by one, refusing a target that is among those seen before. -/
def readDistinct (seen : List Target) : List Text → Except TargetError (List Target)
  | [] => .ok []
  | written :: rest => do
    let target ← read written
    if seen.contains target then
      throw (duplicate written target)
    return target :: (← readDistinct (target :: seen) rest)

/-- Whether a target is a single library. -/
def isLibrary : Target → Bool
  | library _ => true
  | _ => false

/-- Reads a list of targets and refuses lists that make no sense as a whole. -/
def readAll (written : List Text) : Except TargetError (List Target) := do
  let targets ← readDistinct [] written
  if targets.contains allLibraries then
    if let some specific := targets.find? isLibrary then
      throw (.conflict librariesDirectory specific.text)
  return targets

end Target

end DistDirectives
