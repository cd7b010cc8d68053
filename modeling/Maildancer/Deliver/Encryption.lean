import Maildancer.Admin.Keyring
import Maildancer.Deliver.Spawn

namespace Maildancer.Deliver

open Text Queue Domains Admin Msgstore

def publicKeySize : Nat := 32

def nonceSize : Nat := 24

def overhead : Nat := 16

-- EncryptMessage as one run has it. The output starts with the ephemeral key
-- and the nonce, and the box adds its tag.
structure Sealing where
  encryptMessage : Bytes → Bytes → Option Bytes
  keySize : ∀ msg key, key.length ≠ publicKeySize → encryptMessage msg key = none
  length : ∀ msg key out, encryptMessage msg key = some out →
    out.length = publicKeySize + nonceSize + (msg.length + overhead)

lemma Sealing.ne_plain (s : Sealing) (msg key : Bytes) : s.encryptMessage msg key ≠ some msg := by
  intro h
  have hl := s.length msg key msg h
  simp only [publicKeySize, nonceSize, overhead] at hl
  omega

def Reads (files : Files) (readFile : Bytes → ReadResult) : Prop :=
  ∀ path, readFile path = files path ∨ readFile path = .failed

-- While a user has a keypair, everything that is written is encrypted with its key. If that cannot be read or
-- used, nothing is written and the answer is a temporary failure, unless the message is refused before.
def StoredSealed (site : Site) (access : Access) (f : Folding) (order : MapOrder) (s : Sealing) (name : Bytes) : Prop :=
  ∀ user, validUsername user = true → ∀ before ops key, latestKey name user ops = some key →
    ∀ d, d.folding = f → d.encryptMessage = s.encryptMessage → Spawned site access order name d →
      Reads (runKeyOps site.adminPaths before ops) d.readFile →
      ∀ attempt req msg, (parseRecipient req.recipient).address = user ++ atSign :: name →
        (∀ copy ∈ (deliver d attempt req msg).1, s.encryptMessage msg key = some copy.data) ∧
          (d.readFile (site.adminPaths.publicKeyFile name user) = .failed ∨ s.encryptMessage msg key = none →
            ∃ temporary reason, deliver d attempt req msg = ([], some (.rejected temporary reason)) ∧
              (temporary = true ∨ reason.early = true))

section

variable {site : Site} {name user : Bytes}

lemma mailboxUser_of_validUsername (hu : validUsername user = true) : MailboxUser user := by
  have hp := plainName_of_validUsername hu
  simp only [validUsername, pathSafe, Bool.and_eq_true, Bool.not_eq_true', Bool.or_eq_false_iff, List.all_eq_true,
    Bool.or_eq_true, decide_eq_true_eq] at hu
  obtain ⟨⟨⟨⟨⟨hd, -⟩, -⟩, -⟩, -⟩, hby⟩ := hu
  have hn : ∀ b ∈ user, b ≠ 47 ∧ b ≠ 92 ∧ b ≠ plusSign := by
    intro b hb
    have hbt := hby b hb
    refine ⟨?_, ?_, ?_⟩ <;> rintro rfl <;> revert hbt <;> decide
  refine ⟨?_, hp.ne_dot, fun hm => (hn _ hm).2.2 rfl⟩
  simp only [validAddressComponent, Bool.and_eq_true, Bool.not_eq_true', List.any_eq_false, Bool.or_eq_true,
    decide_eq_true_eq, not_or]
  exact ⟨⟨hp.ne_nil, fun b hb => ⟨(hn b hb).1, (hn b hb).2.1⟩⟩, hd⟩

variable {recipient : Bytes} {f : Folding}

lemma keyringPath_iff (hn : validDomainName name = true) (hu : validUsername user = true)
    (ha : (parseRecipient recipient).address = user ++ atSign :: name) :
    keyringPath (site.loginRoot name) recipient = site.adminPaths.publicKeyFile name user ↔
      cleanPath (site.loginRoot name) = cleanPath (site.adminPaths.userKeyringBase name) := by
  have hna : ∀ n ∈ [user, keyringPubFile], PlainName n := by
    simpa using ⟨plainName_of_validUsername hu, by decide⟩
  rw [keyringPath, ha, splitAddress_address (atSign_notMem_domainName hn), Paths.publicKeyFile, pubFile,
    userFile_base hu plainName_keyring.1]
  exact joinPath_base_iff (by simp) hna

lemma keyringPath_apart (hn : validDomainName name = true) (hu : validUsername user = true)
    (ha : (parseRecipient recipient).address = user ++ atSign :: name)
    (hr : cleanPath (site.loginRoot name) ≠ cleanPath (site.adminPaths.userKeyringBase name)) :
    Apart (keyringPath (site.loginRoot name) recipient) (site.adminPaths.userKeyringDir name user) keyringName := by
  refine ⟨fun heq => hr ((keyringPath_iff hn hu ha).mp heq), fun heq => ?_⟩
  have hp : ∀ n ∈ [user, keyringPubFile], PlainName n := by
    simpa using ⟨plainName_of_validUsername hu, by decide⟩
  have hk : ∀ n ∈ [keyringName ++ ascii ".key"], PlainName n := by simpa using plainName_keyring.2
  have hl := congrArg (fun path => (components path).getLast?) heq
  rw [keyringPath, ha, splitAddress_address (atSign_notMem_domainName hn), keyFile,
    components_joinPath (by simp) hp, components_joinPath (by simp) hk] at hl
  simp only [List.getLast?_append, List.getLast?_cons_cons, List.getLast?_singleton, Option.some_or] at hl
  revert hl
  decide

variable {access : Access} {order : MapOrder} {d : Deliverer} {req : DeliverRequest}

lemma maybeEncrypt_spawned (hs : Spawned site access order name d) (msg : Bytes) :
    maybeEncrypt d req msg = match d.readFile (keyringPath (site.loginRoot name) req.recipient) with
      | .notExist => some msg
      | .failed => none
      | .content pubKey => d.encryptMessage msg pubKey := by
  rw [maybeEncrypt, hs.storeBasePath]
  exact if_neg (site.loginRoot_ne_nil name)

def keyedDeliverer (site : Site) (access : Access) (order : MapOrder) (f : Folding) (s : Sealing) (name user : Bytes)
    (pair : Keypair) : Deliverer :=
  plainDeliverer site access order f name
    (runKeyOps site.adminPaths (fun _ => .notExist) [.createUser name user pair]) s.encryptMessage

lemma StoredSealed.keyed {s : Sealing} (h : StoredSealed site access f order s name)
    (hn : validDomainName name = true) (hu : validUsername user = true) (pair : Keypair) (msg : Bytes) :
    ∀ copy ∈ (deliver (keyedDeliverer site access order f s name user pair) (fun _ => .done)
      ⟨user ++ atSign :: name, false⟩ msg).1, s.encryptMessage msg pair.pub = some copy.data := by
  have ha : (parseRecipient (user ++ atSign :: name)).address = user ++ atSign :: name := by
    rw [parseRecipient_mailboxUser (mailboxUser_of_validUsername hu) (atSign_notMem_domainName hn)]
  exact (h user hu (fun _ => .notExist) [.createUser name user pair] pair.pub (if_pos ⟨rfl, rfl⟩)
    (keyedDeliverer site access order f s name user pair) rfl rfl (plainDeliverer_spawned _ _ _ _ _ _ _)
    (fun _ => .inl rfl) (fun _ => .done) ⟨user ++ atSign :: name, false⟩ msg ha).1

lemma stored_plain {dom : Domains.Domain} (hn : validDomainName name = true)
    (hu : validUsername user = true) (hd : site.domain access f.toCaseMap order name = some dom)
    (hr : cleanPath (site.loginRoot name) ≠ cleanPath (site.adminPaths.userKeyringBase name)) (s : Sealing)
    (pair : Keypair) : (deliver (keyedDeliverer site access order f s name user pair) (fun _ => .done)
      ⟨user ++ atSign :: name, false⟩ []).1 = [⟨user ++ atSign :: name, ascii "INBOX", [], []⟩] := by
  have hm := mailboxUser_of_validUsername hu
  have hat := atSign_notMem_domainName hn
  have ha : (parseRecipient (user ++ atSign :: name)).address = user ++ atSign :: name := by
    rw [parseRecipient_mailboxUser hm hat]
  have hf : runKeyOps site.adminPaths (fun _ => .notExist) [.createUser name user pair] =
      site.adminPaths.createUserKeypair (fun _ => .notExist) name user pair := if_pos (by rw [hn, hu]; rfl)
  refine deliver_unscripted _ false hm (validAddressComponent_domainName hn) hat rfl
    (congrArg (Option.map ofLoaded) hd) rfl ?_
  rw [keyedDeliverer, maybeEncrypt_spawned (plainDeliverer_spawned site access order f name _ _)]
  dsimp only [plainDeliverer]
  rw [hf, Paths.createUserKeypair, (keyringPath_apart hn hu ha hr).saveKeypair]

end

section Sample

def sampleSealing : Sealing where
  encryptMessage msg key := if key.length = publicKeySize then some (List.replicate 72 0 ++ msg) else none
  keySize _ _ h := if_neg h
  length msg key out h := by
    by_cases hsize : key.length = publicKeySize
    · rw [if_pos hsize] at h
      cases h
      rw [List.length_append, List.length_replicate]
      simp only [publicKeySize, nonceSize, overhead]
      omega
    · rw [if_neg hsize] at h
      cases h

def samplePair : Keypair := ⟨List.replicate 32 7, []⟩

end Sample

end Maildancer.Deliver
