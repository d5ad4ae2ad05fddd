import DistDirectives.Run.Report

/-!
# How reports are shown

A report is shown line by line, with a summary at the end, or as a JSON text with two
spaces of indentation.
-/

namespace DistDirectives.CommandLine

/-! ## As lines -/

/-- The sign in front of a file that an action happened to. -/
def actionSign : Run.FileAction → String
  | .modified => "~"
  | .removed => "-"

/-- The line of a file that changed. -/
def processedLine (file : Run.ProcessedFile) : String :=
  s!"   {actionSign file.action} {file.path} {file.action.name} ({file.target.toString})\n"

/-- The line of a file that could not be processed. -/
def failureLine (failure : Run.FileFailure) : String :=
  s!"   ! {failure.path}: {failure.message}\n"

/-- How many files changed, and how many warnings there were. -/
def counts (report : Run.Report) : String :=
  s!"{report.count .modified} modified, {report.count .removed} removed, " ++
    s!"{report.warnings} warning(s)"

/-- What came of the run as a whole. -/
def summary (report : Run.Report) : String :=
  if report.dryRun then s!"DRY RUN {counts report} (nothing written)\n"
  else if report.isSuccess then s!"OK {counts report}\n"
  else s!"FAILED {counts report}, {report.errors.length} failed\n"

/-- The report line by line. -/
def reportLines (report : Run.Report) : String :=
  String.join (report.processed.map processedLine) ++
    String.join (report.errors.map failureLine) ++ "\n" ++ summary report

/-! ## As JSON -/

/-- The digits of a number below 256 in base 16. -/
def twoDigits (n : Nat) : List Char := [Nat.digitChar (n / 16), Nat.digitChar (n % 16)]

/-- A character as it stands in a JSON string. -/
def escaped (c : Char) : List Char :=
  if c = '"' then ['\\', '"']
  else if c = '\\' then ['\\', '\\']
  else if c = '\n' then ['\\', 'n']
  else if c = '\r' then ['\\', 'r']
  else if c = '\t' then ['\\', 't']
  else if c = '\x08' then ['\\', 'b']
  else if c = '\x0c' then ['\\', 'f']
  else if c.toNat < 32 then '\\' :: 'u' :: '0' :: '0' :: twoDigits c.toNat
  else [c]

/-- A text as a JSON string. -/
def jsonString (text : Text) : String :=
  String.ofList ('"' :: text.flatMap escaped ++ ['"'])

/-- The indentation at a level. -/
def margin (level : Nat) : String := String.ofList (List.replicate (2 * level) ' ')

/-- Parts between brackets, each on a line of its own at one level more than the
brackets; brackets without parts stay together. -/
def bracketed (opening closing : String) (level : Nat) (parts : List String) : String :=
  if parts.isEmpty then opening ++ closing
  else
    opening ++ "\n" ++ ",\n".intercalate (parts.map (margin (level + 1) ++ ·)) ++ "\n" ++
      margin level ++ closing

/-- A JSON object of written values. -/
def jsonObject (level : Nat) (members : List (String × String)) : String :=
  bracketed "\x7b" "\x7d" level
    (members.map fun member => jsonString member.1.toList ++ ": " ++ member.2)

/-- A JSON array of written values. -/
def jsonArray (level : Nat) (items : List String) : String := bracketed "[" "]" level items

/-- A file that changed, as JSON. -/
def processedJson (level : Nat) (file : Run.ProcessedFile) : String :=
  jsonObject level
    [("path", jsonString file.path.text), ("action", jsonString file.action.name.toList),
      ("target", jsonString file.target)]

/-- A file that could not be processed, as JSON. -/
def failureJson (level : Nat) (failure : Run.FileFailure) : String :=
  jsonObject level
    [("path", jsonString failure.path.text), ("message", jsonString failure.message.toList)]

/-- The report as JSON. -/
def reportJson (report : Run.Report) : String :=
  jsonObject 0
    [("processed", jsonArray 1 (report.processed.map (processedJson 2))),
      ("errors", jsonArray 1 (report.errors.map (failureJson 2))),
      ("warnings", toString report.warnings),
      ("dry_run", if report.dryRun then "true" else "false")]

end DistDirectives.CommandLine
