import DeviceLink.Digest
import DeviceLink.Json.Printer

/-!
The protocol fingerprint of a schema document: the first four bytes of the digest of its canonical
text, read as a little-endian number.
-/

set_option autoImplicit false
set_option relaxedAutoImplicit false

namespace DeviceLink

def swapBytes (x : UInt32) : UInt32 :=
  let second : UInt32 := (x >>> 8) &&& (0xFF00 : UInt32)
  let third : UInt32 := (x <<< 8) &&& (0xFF0000 : UInt32)
  (x >>> 24) ||| second ||| third ||| (x <<< 24)

/-- The fingerprint of a document, which does not depend on the order of members. -/
def fingerprint (document : Json) : UInt32 :=
  swapBytes (Digest.sha256 document.canonicalText.toUTF8.toList).a

def hexLiteral (n : UInt32) : String :=
  String.ofList ('0' :: 'x' :: Text.hexDigits n.toNat)

end DeviceLink
