import DistDirectives.Config
import DistDirectives.Disk.Files
import DistDirectives.Document.Json
import DistDirectives.Document.Toml
import DistDirectives.Document.Yaml

/-!
# Configuration files

The extension of a configuration file tells its format. A project is configured by the
first file in its root that has one of the standard names; the others are not looked
at, and a project without such a file has the standard configuration.
-/

namespace DistDirectives.Config

/-- The formats of configuration files. -/
inductive Format where
  | toml
  | json
  | yaml
  deriving DecidableEq

namespace Format

/-- The name of the format as it is shown. -/
def name : Format → String
  | toml => "TOML"
  | json => "JSON"
  | yaml => "YAML"

/-- The format that goes with an extension, in whatever letters it is written. -/
def ofExtension? (extension : Text) : Option Format :=
  let lower := Text.lowerAscii extension
  if lower = "toml".toList then some toml
  else if lower = "json".toList then some json
  else if lower = "yaml".toList ∨ lower = "yml".toList then some yaml
  else none

/-- The document that a text of the format holds. Only one of the formats has
references. -/
def read? (format : Format) (text : Text) : Option Document.Source :=
  match format with
  | toml => (Document.Toml.read? text).map fun root => { root }
  | json => (Document.Json.read? text).map fun root => { root }
  | yaml => Document.Yaml.read? text

/-- The greatest number of levels of lists and tables in the value of an option. -/
def levels (format : Format) (text : Text) : Nat :=
  match format with
  | toml => text.length
  | json => 125
  | yaml => 126

/-- Whether a file can be a list of its one table. -/
def allowsList : Format → Bool
  | toml => false
  | json => true
  | yaml => false

end Format

/-- Why there is no configuration. -/
inductive FileError where
  | disk (error : DiskError)
  /-- No format goes with the extension. -/
  | unsupported (extension : Text)
  /-- The text is none of the format, or holds no configuration. -/
  | unreadable (format : Format) (path : Text)
  deriving DecidableEq

/-- The error as it is shown. -/
def FileError.message : FileError → String
  | disk error => error.message
  | unsupported extension => s!"Unsupported config format: {extension.toString}"
  | unreadable format path =>
    s!"Failed to parse {format.name} config at {path.toString}: no configuration of a project"

/-- The configuration that the text of a file at a path holds. -/
def ofFile (path : Path) (text : Text) : Except FileError Config :=
  let extension := path.extension?.getD []
  match Format.ofExtension? extension with
  | none => .error (.unsupported extension)
  | some format =>
    match (format.read? text).bind (ofSource? (format.levels text) format.allowsList) with
    | some config => .ok config
    | none => .error (.unreadable format path.text)

/-- The configuration that the file at a path holds. -/
def load (disk : Disk) (path : Path) : Except FileError Config :=
  match disk.readText path with
  | .ok text => ofFile path text
  | .error error => .error (.disk error)

/-- The names of configuration files, in the order in which they are looked for. -/
def fileNames : List Text := ["dler.toml".toList, "dler.json".toList, "dler.yaml".toList]

/-- The configuration of the project at a root. -/
def ofProject (disk : Disk) (root : Path) : Except FileError Config :=
  match (fileNames.map root.join).find? disk.isFile with
  | some path => load disk path
  | none => .ok {}

end DistDirectives.Config
