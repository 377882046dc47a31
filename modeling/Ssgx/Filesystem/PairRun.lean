import Ssgx.Support.Run
import Ssgx.Filesystem.WriterOpen

/-!
# Runs on one pair of files

A protected file and its metadata file change by the calls an application makes on the path: opens
by a writer, with any outcome of every call they make, writes through a handle, removals of one of
the files or of both, and opens by an application that knows no metadata files (`PairOp`). A run is
a list of such calls.
-/

set_option autoImplicit false

namespace Ssgx.Filesystem

open Ssgx.Support

/-- A call on the pair of a path. The removals are of the file, or of its metadata file. -/
inductive PairOp where
  | openWriter (io : WriterIo) (fileMode : FileMode) (policy : UInt16)
  | writeContent (raw : List UInt8)
  | openLegacy (raw : List UInt8)
  | remove (io : RemoveIo) (ofMetadata : Bool)
  | removeProtected (fileIo metaIo : RemoveIo) (ofMetadata : Bool)

/-- The file or its metadata file. -/
def pairFile (p : Path) (ofMetadata : Bool) : Path := if ofMetadata then metadataFile p else p

/-- The file after its content was written through a handle: the key stays. -/
def HostFile.rewritten (raw : List UInt8) : HostFile → HostFile
  | .plain content => .plain content
  | .sealed key _ => .sealed key raw

section Digest

variable (sha256 : List UInt8 → List.Vector UInt8 32) (p : Path)

/-- The world after the call. -/
def pairStep (w : World) : PairOp → World
  | .openWriter io fileMode policy => (protectedFileWriter sha256 io p fileMode policy w).2
  | .writeContent raw => w.put p ((w.files p).map (HostFile.rewritten raw))
  | .openLegacy raw => w.put p (some (.sealed .auto raw))
  | .remove io ofMetadata => (remove io (pairFile p ofMetadata) w).2
  | .removeProtected fileIo metaIo ofMetadata =>
      (removeProtectedFile fileIo metaIo (pairFile p ofMetadata) w).2

end Digest

end Ssgx.Filesystem
