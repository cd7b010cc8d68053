import Maildancer.Deliver.Encryption
import Maildancer.MailSession.Calls

namespace Maildancer.MailSession

open Text Deliver

-- NaCl's box as DecryptMessage uses it. The tag is not part of what it opens.
structure Box where
  openBox : (ciphertext nonce peerKey privateKey : Bytes) → Option Bytes
  length : ∀ ciphertext nonce peerKey privateKey plain,
    openBox ciphertext nonce peerKey privateKey = some plain → ciphertext.length = plain.length + overhead

namespace Box

variable (b : Box)

def decryptMessage (encryptedData privateKey : Bytes) : Option Bytes :=
  if privateKey.length ≠ publicKeySize then none
  else if encryptedData.length < publicKeySize + nonceSize + overhead then none
  else b.openBox (encryptedData.drop (publicKeySize + nonceSize)) ((encryptedData.drop publicKeySize).take nonceSize)
    (encryptedData.take publicKeySize) privateKey

def unsealed (sessionKey : Option Bytes) (data : Bytes) : Option Bytes :=
  sessionKey.bind (b.decryptMessage data)

-- The decrypting store serves what it cannot open as it is.
def decryptOrRaw (sessionKey : Option Bytes) (data : Bytes) : Bytes := (b.unsealed sessionKey data).getD data

lemma length_of_unsealed {sessionKey : Option Bytes} {data plain : Bytes}
    (h : b.unsealed sessionKey data = some plain) :
    data.length = plain.length + (publicKeySize + nonceSize + overhead) := by
  obtain ⟨key, -, ho⟩ := Option.bind_eq_some_iff.mp h
  unfold decryptMessage at ho
  split_ifs at ho with hk hs
  have hl := b.length _ _ _ _ _ ho
  rw [List.length_drop] at hl
  omega

lemma decryptOrRaw_length (sessionKey : Option Bytes) (data : Bytes) :
    (b.decryptOrRaw sessionKey data).length + (if (b.unsealed sessionKey data).isSome then
      publicKeySize + nonceSize + overhead else 0) = data.length := by
  unfold decryptOrRaw
  rcases ho : b.unsealed sessionKey data with _ | plain
  · rfl
  · exact (b.length_of_unsealed ho).symm

def fetch (sessionKey : Option Bytes) (p : Process) (folder : Bytes) (uid : Nat) : Process × Except RpcError Bytes :=
  let (p, data) := MailboxServer.fetch p folder uid
  (p, data.map (b.decryptOrRaw sessionKey))

end Box

end Maildancer.MailSession
