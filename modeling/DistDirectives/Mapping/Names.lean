import DistDirectives.Path

/-!
# Names of sources and of their outputs

A build keeps declarations as they are, emits scripts as `.js` or `.ts`, and copies
everything else. So a source has one or two possible output names, and an output has
several possible source names, which are tried in a fixed order.

Names are given as texts that may start with directories; only the last segment
decides.
-/

namespace DistDirectives.Mapping

/-- The ending of declaration files. -/
def declarationEnding : Text := ".d.ts".toList

/-- The extensions of scripts, in the order in which sources are looked for. -/
def scriptExtensions : List Text :=
  ["ts", "js", "tsx", "jsx", "mts", "mjs", "cts", "cjs"].map String.toList

/-- The extensions under which a script can be emitted. -/
def outputExtensions : List Text := ["js", "ts"].map String.toList

/-- The extensions under which the source of a declaration is looked for. -/
def declarationSources : List Text := ["ts", "js"].map String.toList

/-- A file by the role that its name gives it; the stem is all that precedes the
ending. -/
inductive Shape where
  | declaration (stem : Text)
  | script (stem : Text)
  | other
  deriving DecidableEq

/-- The text behind the last slash. -/
def lastSegment (file : Text) : Text := Text.takeEndWhile (· ≠ '/') file

/-- The role of a file. A name that is nothing but a script ending, such as `.ts`, is
no script. -/
def shape (file : Text) : Shape :=
  match Text.before? declarationEnding file with
  | some stem => .declaration stem
  | none =>
    match Path.extensionOf? (lastSegment file) with
    | none => .other
    | some extension =>
      if scriptExtensions.contains extension then
        match Text.before? ('.' :: extension) file with
        | some stem => .script stem
        | none => .other
      else
        .other

/-- A stem with an extension. -/
def withExtension (stem extension : Text) : Text := stem ++ '.' :: extension

/-- The names under which a source can be found in a distribution. -/
def outputs (file : Text) : List Text :=
  match shape file with
  | .script stem => outputExtensions.map (withExtension stem)
  | .declaration _ | .other => [file]

/-- The names that the source of a distribution file can have, first choice first. -/
def sources (file : Text) : List Text :=
  match shape file with
  | .declaration stem => declarationSources.map (withExtension stem) ++ [file]
  | .script stem => scriptExtensions.map (withExtension stem)
  | .other => [file]

end DistDirectives.Mapping
