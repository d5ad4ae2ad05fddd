import DistDirectives.Text

/-!
# Binary files

Directives are looked for in text only. A file counts as binary when its extension
is one of a fixed list, or when a zero byte stands near its beginning.
-/

namespace DistDirectives.Binary

/-- The extensions of binary formats. -/
def extensions : List Text :=
  ["png", "jpg", "jpeg", "gif", "webp", "ico", "bmp", "tiff", "avif", "woff", "woff2", "ttf",
    "otf", "eot", "zip", "gz", "tgz", "tar", "bz2", "xz", "7z", "wasm", "pdf", "mp3", "mp4",
    "wav", "ogg", "webm", "mov", "exe", "dll", "so", "dylib", "node", "bin", "lockb"].map
    String.toList

/-- Whether an extension is one of a binary format; ASCII case does not matter. -/
def hasExtension (extension : Option Text) : Bool :=
  extension.any fun text => extensions.contains (Text.lowerAscii text)

/-- The number of bytes that are looked at. -/
def window : Nat := 8192

/-- Whether a zero byte stands near the beginning. -/
def looksBinary (content : Bytes) : Bool := (content.take window).contains 0

end DistDirectives.Binary
