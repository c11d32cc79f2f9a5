import PkgRecipe.Digest.Sha256
import PkgRecipe.Number.Range
import PkgRecipe.Recipe.Metadata

namespace PkgRecipe

/-- Whether so many bytes of a body can be asked for at a time. The number has to fit into 64 bits,
unless no more bytes are asked for than are left. -/
def Body.takes (body : Body) (size : Int) : Bool :=
  Number.fits size || (body.isSized && decide (0 < size))

namespace Recipe

/-- The parts in which bytes arrive when `size` are asked for at a time: none are asked for when
the size is zero, and all at once when it is negative. -/
def chunks (size : Int) (bytes : List UInt8) : List (List UInt8) :=
  if _h : bytes = [] ∨ size = 0 then []
  else if size < 0 then [bytes]
  else bytes.take size.toNat :: chunks size (bytes.drop size.toNat)
termination_by bytes.length
decreasing_by
  have : 0 < bytes.length := List.length_pos_iff.2 fun empty => _h (.inl empty)
  simp only [List.length_drop]
  omega

def digestOfChunks (parts : List (List UInt8)) : List Char :=
  (parts.foldl Sha256.Hasher.update .empty).hexDigest

def sourceDigest (chunkSize : Int) (location : List Char) : Run (List Char) := do
  Run.log .info ("Fetching ".toList ++ location)
  match ← Run.download location with
  | .body body =>
      if body.takes chunkSize then return digestOfChunks (chunks chunkSize body.bytes)
      else throw (.sizeOutOfRange chunkSize)
  | .failed reason => throw (.downloadFailed location reason)
  | .broken reason => throw (.unexpected reason)
  | .interrupted => throw .interrupted

structure ChecksumPolicy where
  /-- The digest of the source at a location. -/
  digest? : Option (List Char → Run (List Char))
  /-- Whether the source may be downloaded. -/
  fetch : Bool
  /-- How the user is told of progress. -/
  status? : Option StatusCallback

namespace ChecksumPolicy

/-- The digest of the recorded source, or none when sources are not downloaded. -/
def derive (p : ChecksumPolicy) (doc : Document) : Run (Option (List Char)) :=
  match p.digest?, p.fetch with
  | some digest, true =>
      match doc.sourceUrl with
      | none | some [] => throw .sourceMissing
      | some source => do
          Run.tell? p.status? "progress".toList "Generating sha256sum...".toList
          return some (← digest (doc.expand source))
  | _, _ => do
      Run.log .warning "Checksum fetching disabled; no source_sha256 emitted".toList
      return none

def settle (p : ChecksumPolicy) (doc : Document) : Run Document :=
  match doc.checksumSlot, doc.checksum with
  | none, _ => return doc
  | some _, some digest => return doc.fillChecksum (some (textStatement "source_sha256" digest))
  | some _, none => do
      let digest ← p.derive doc
      return doc.fillChecksum (digest.map (textStatement "source_sha256"))

end ChecksumPolicy

end Recipe

end PkgRecipe
