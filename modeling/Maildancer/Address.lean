import Maildancer.Queue

namespace Maildancer

open Text Queue

def plusSign : UInt8 := 43

namespace Auth

def parseLocalPart (localPart : Bytes) : Bytes × Bytes := (cut plusSign localPart).getD (localPart, [])

def splitUsername (username : Bytes) : Bytes × Bytes := (cutLast atSign username).getD (username, [])

end Auth

namespace Deliver

def splitAddress (addr : Bytes) : Bytes × Bytes := (cutLast atSign addr).getD (addr, [])

end Deliver

namespace Msgstore

structure Recipient where
  address : Bytes
  extension : Bytes
deriving DecidableEq

-- The domain keeps its at sign while the local part is cut.
def parseRecipient (email : Bytes) : Recipient :=
  let (localPart, domain) :=
    match cutLast atSign email with
    | some (localPart, domain) => (localPart, atSign :: domain)
    | none => (email, [])
  let (base, extension) := (cut plusSign localPart).getD (localPart, [])
  ⟨base ++ domain, extension⟩

def splitEmail (email : Bytes) : Bytes × Bytes := (cutLast atSign email).getD (email, [])

end Msgstore

end Maildancer
