import Formulary.Bytes

/-!
# Decoded streams

What a decoder makes of compressed data : the bytes that a reader gets, and whether a reader
that goes on behind them finds the end or a fault.
-/

namespace Formulary.Codec

/-- Bytes with what lies behind them. -/
structure Stream where
  bytes : ByteArray
  /-- The data behind the bytes is damaged or missing. -/
  broken : Bool := false

instance : Inhabited Stream := ⟨⟨.empty, false⟩⟩

namespace Stream

/-- A stream that ends well. -/
def whole (bytes : ByteArray) : Stream := ⟨bytes, false⟩

/-- A stream with a fault behind its bytes. -/
def cut (bytes : ByteArray) : Stream := ⟨bytes, true⟩

/-- All bytes, if the stream ends well. -/
def all? (s : Stream) : Option ByteArray := if s.broken then none else some s.bytes

end Stream

end Formulary.Codec
