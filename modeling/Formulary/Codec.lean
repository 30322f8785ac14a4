import Formulary.Codec.Gzip
import Formulary.Codec.Xz
import Formulary.Codec.Zstd

/-!
# Codecs

How the bytes of an archive may be wrapped. A codec is recognised by the first bytes of the data;
data with none of the known signatures is taken as it is.
-/

namespace Formulary

/-- A way to wrap bytes. -/
inductive Codec where
  | plain | gzip | xz | zstd
deriving DecidableEq, Inhabited

namespace Codec

/-- The name of a codec. -/
def name : Codec → String
  | plain => "plain"
  | gzip => "gzip"
  | xz => "xz"
  | zstd => "zstd"

/-- The bytes that data in a codec starts with. -/
def signature : Codec → List UInt8
  | plain => []
  | gzip => [0x1F, 0x8B]
  | xz => Xz.magic
  | zstd => Zstd.magic

/-- The codec of some data, by its first bytes. -/
def sniff (data : ByteArray) : Codec :=
  ([gzip, xz, zstd].find? fun c => Bytes.startsWith data c.signature).getD plain

/-- The bytes that are wrapped. -/
def decode : Codec → ByteArray → Stream
  | plain, data => .whole data
  | gzip, data => Gzip.decode data
  | xz, data => Xz.decode data
  | zstd, data => Zstd.decode data

/-- The wrapped bytes of data whose codec is not known. -/
def unwrap (data : ByteArray) : Stream := (sniff data).decode data

end Codec

end Formulary
