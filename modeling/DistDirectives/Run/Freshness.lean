import DistDirectives.Disk.Files
import DistDirectives.Mapping

/-!
# Fresh content

Directives are applied to the bytes of the source rather than to what an earlier
run, or the build, left in the distribution. A file without a source is taken as it
is.
-/

namespace DistDirectives.Run

/-- The bytes to which directives are applied, and the source that they come from. -/
structure FreshContent where
  bytes : Bytes
  source : Option Path := none
  deriving DecidableEq

namespace FreshContent

/-- Whether the bytes come from a source and differ from those at hand. -/
def replaces (fresh : FreshContent) (current : Bytes) : Bool :=
  fresh.source.isSome && fresh.bytes != current

end FreshContent

/-- The first existing source that a distribution file can come from. -/
def resolveSource (disk : Disk) (root : Path) (sourceDir : Text) (dist : Path) : Option Path :=
  (Mapping.reverse dist sourceDir).find? fun source => disk.isFile (root.join source.text)

/-- The bytes to which directives are applied, for a distribution file with given
bytes. -/
def refresh (disk : Disk) (root : Path) (sourceDir : Text) (enabled : Bool) (dist : Path)
    (current : Bytes) : Except DiskError FreshContent :=
  if enabled then
    match resolveSource disk root sourceDir dist with
    | none => .ok { bytes := current }
    | some source => do
      let bytes ← disk.readBytes (root.join source.text)
      return { bytes := bytes, source := some source }
  else
    .ok { bytes := current }

end DistDirectives.Run
