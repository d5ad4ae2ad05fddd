import DistDirectives.Text

/-!
# Directives

A directive is written in a line comment of a source file, as in

    let v = 1; // <dler-replace-line-to `let v = 2;` if 'current file path starts with dist-npm'>

and says what becomes of its line, or of its whole file, in a distribution tree.
This module holds the four directives, the fixed texts that introduce them, and
what can be read off one line.
-/

namespace DistDirectives

/-- What a comment asks to be done with its line or its file. -/
inductive Directive where
  /-- Put a replacement in place of the line when the condition holds, and the
  alternative, if there is one, when it does not. A missing condition stands for
  the standard one. -/
  | replaceLine (replacement : Text) (condition alternative : Option Text)
  /-- Drop the line. -/
  | removeLine
  /-- Delete the file. -/
  | removeFile
  /-- Drop the line if it is a comment by itself. -/
  | removeComment
  deriving DecidableEq

namespace Directive

/-- The beginning of a directive. A text without it has no directives. -/
def token : Text := "<dler-".toList

/-- The marker of a line comment, which must come before the token. -/
def commentMarker : Text := "//".toList

/-- The written name of line replacement. -/
def replaceLineName : Text := "replace-line-to".toList

/-- The written name of line removal. -/
def removeLineName : Text := "remove-line".toList

/-- The written name of file removal. -/
def removeFileName : Text := "remove-file".toList

/-- The written name of comment removal. -/
def removeCommentName : Text := "remove-comment".toList

/-- The name as written after the token. -/
def name : Directive → Text
  | replaceLine _ _ _ => replaceLineName
  | removeLine => removeLineName
  | removeFile => removeFileName
  | removeComment => removeCommentName

/-- Whether a text can hold a directive at all. -/
def mentioned (text : Text) : Bool := Text.occurs token text

end Directive

/-- What is read off one line. -/
inductive Reading where
  /-- The line holds no directive. -/
  | nothing
  /-- The line holds a directive token with a name that is not known. -/
  | unknown (name : Text)
  /-- The name is known, but what follows it does not obey its grammar. -/
  | malformed (name body : Text)
  /-- The line holds a directive. -/
  | directive (directive : Directive)
  deriving DecidableEq

end DistDirectives
