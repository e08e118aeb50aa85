import RecordRegistry.Json.Printer
import RecordRegistry.Sha256
import RecordRegistry.Text.Utf8

/-!
# Fingerprints

The fingerprint of a value is a digest of its canonical text, so that values which differ in the
order of object members only have the same one. A value with a surrogate in its canonical text has
no fingerprint, for the digest is one of bytes.
-/

namespace RecordRegistry.Json

/-- The name of the digest and the digest in base sixteen. -/
def fingerprintOfBytes (bytes : List UInt8) : Text := "sha256:" ++ Sha256.hexDigest bytes

/-- The fingerprint of a value. -/
def Value.fingerprint (value : Value) : Except Text.SurrogateError Text :=
  value.canonical.utf8.map fingerprintOfBytes

end RecordRegistry.Json
