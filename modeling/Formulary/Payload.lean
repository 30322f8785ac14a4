import Formulary.Checksum
import Formulary.Error

/-!
# Verified payloads

Bytes that were compared with the declared checksum. Only `Verified.check` yields them, so
whatever takes a `Verified` never sees bytes with another digest.
-/

namespace Formulary

/-- Bytes with the digest they were verified against. -/
structure Verified where
  bytes : ByteArray
  digest : Checksum
  matches_digest : digest.Matches bytes

namespace Verified

/-- Compare bytes with a declared checksum. A text that is no checksum fits no bytes. -/
def check (bytes : ByteArray) (declared : String) : Except Error Verified :=
  match Checksum.parse declared with
  | .error defect => .error (.integrity declared ("<unusable checksum: " ++ defect.message ++ ">"))
  | .ok digest =>
    if h : digest.Matches bytes then .ok ⟨bytes, digest, h⟩
    else .error (.integrity digest.display (Checksum.of digest.algorithm bytes).display)

end Verified

end Formulary
