import Maildancer.Admin

namespace Maildancer.Admin

open Function List Text

structure Keypair where
  pub : Bytes
  encPriv : Bytes

def keyringName : Bytes := ascii "keyring"

def domainKeyName : Bytes := ascii "domain"

def pubFile (dir name : Bytes) : Bytes := joinPath [dir, name ++ ascii ".pub"]

def keyFile (dir name : Bytes) : Bytes := joinPath [dir, name ++ ascii ".key"]

def saveKeypair (files : Files) (dir name : Bytes) (pair : Keypair) : Files :=
  Function.update (Function.update files (pubFile dir name) (.content pair.pub)) (keyFile dir name)
    (.content pair.encPriv)

def deleteKeypair (files : Files) (dir name : Bytes) : Files :=
  Function.update (Function.update files (pubFile dir name) .notExist) (keyFile dir name) .notExist

namespace Paths

variable (p : Paths) (files : Files)

def userKeyringBase (domain : Bytes) : Bytes := joinPath [p.data, domain, ascii "users"]

def userKeyringDir (domain username : Bytes) : Bytes := joinPath [p.userKeyringBase domain, username]

def domainKeysDir (domain : Bytes) : Bytes := joinPath [p.config, domain, ascii "keys"]

def createUserKeypair (domain username : Bytes) (pair : Keypair) : Files :=
  saveKeypair files (p.userKeyringDir domain username) keyringName pair

-- The legacy files in the configuration tree go too.
def deleteUserKeys (domain username : Bytes) : Files :=
  deleteKeypair (deleteKeypair files (p.userKeyringDir domain username) keyringName) (p.domainKeysDir domain) username

def createKeypair (domain name : Bytes) (pair : Keypair) : Files :=
  saveKeypair files (p.domainKeysDir domain) name pair

end Paths

-- What the admin tools do to keys, where nothing fails. A user's keypair is made by CreateUserKeys, by
-- CreateUser and by ResetPasswordRegenKeys, and removed by DeleteUserKeys and by DeleteUser.
inductive KeyOp
  | createUser (domain username : Bytes) (pair : Keypair)
  | deleteUser (domain username : Bytes)
  | createDomain (domain : Bytes) (pair : Keypair)
  | deleteDomain (domain : Bytes)

-- An operation with an invalid name is refused.
def KeyOp.apply (p : Paths) (files : Files) : KeyOp → Files
  | .createUser domain username pair =>
    if validDomainName domain && validUsername username then p.createUserKeypair files domain username pair else files
  | .deleteUser domain username =>
    if validDomainName domain && validUsername username then p.deleteUserKeys files domain username else files
  | .createDomain domain pair =>
    if validDomainName domain then p.createKeypair files domain domainKeyName pair else files
  | .deleteDomain domain =>
    if validDomainName domain then deleteKeypair files (p.domainKeysDir domain) domainKeyName else files

def runKeyOps (p : Paths) (files : Files) (ops : List KeyOp) : Files := ops.foldl (KeyOp.apply p) files

def KeyOp.userKey (domain username : Bytes) (key : Option Bytes) : KeyOp → Option Bytes
  | .createUser domain' username' pair => if domain' = domain ∧ username' = username then some pair.pub else key
  | .deleteUser domain' username' => if domain' = domain ∧ username' = username then none else key
  | _ => key

-- The public key of a user for whom a keypair was made and not removed since.
def latestKey (domain username : Bytes) (ops : List KeyOp) : Option Bytes :=
  ops.foldl (KeyOp.userKey domain username) none

def Paths.publicKeyFile (p : Paths) (domain username : Bytes) : Bytes :=
  pubFile (p.userKeyringDir domain username) keyringName

section

variable {p : Paths} {files : Files} {domain username : Bytes}

lemma plainName_users : PlainName (ascii "users") := by decide

lemma plainName_keyring : PlainName (keyringName ++ ascii ".pub") ∧ PlainName (keyringName ++ ascii ".key") := by decide

def Apart (path dir name : Bytes) : Prop := path ≠ pubFile dir name ∧ path ≠ keyFile dir name

lemma Apart.saveKeypair {path dir name : Bytes} (h : Apart path dir name) (pair : Keypair) :
    saveKeypair files dir name pair path = files path := by
  rw [Admin.saveKeypair, update_of_ne h.2, update_of_ne h.1]

lemma Apart.deleteKeypair {path dir name : Bytes} (h : Apart path dir name) :
    deleteKeypair files dir name path = files path := by
  rw [Admin.deleteKeypair, update_of_ne h.2, update_of_ne h.1]

variable {file : Bytes}

lemma userFile_base (huser : validUsername username = true) (hf : PlainName file) :
    joinPath [p.userKeyringDir domain username, file] = joinPath [p.userKeyringBase domain, username, file] := by
  have hd : ∀ n ∈ [username], PlainName n := by simpa using plainName_of_validUsername huser
  have hl : ∀ n ∈ [file], PlainName n := by simpa using hf
  exact joinPath_joinPath (by simp) (by simp) hd hl

section Files

variable (hdomain : validDomainName domain = true) (huser : validUsername username = true)

include hdomain huser

lemma userFile_names (hf : PlainName file) :
    ∀ n ∈ [domain, ascii "users", username, file], PlainName n := by
  have hn : PlainName domain ∧ PlainName (ascii "users") ∧ PlainName username ∧ PlainName file :=
    ⟨plainName_of_validDomainName hdomain, plainName_users, plainName_of_validUsername huser, hf⟩
  simpa using hn

lemma userFile_eq (hf : PlainName file) :
    joinPath [p.userKeyringDir domain username, file] = joinPath [p.data, domain, ascii "users", username, file] := by
  have ha := userFile_names hdomain huser hf
  have hb : ∀ n ∈ [domain, ascii "users"], PlainName n := fun n hn => ha n (mem_append_left _ hn)
  have hr : ∀ n ∈ [username, file], PlainName n := fun n hn => ha n (mem_append_right [_, _] hn)
  have hd : ∀ n ∈ [username], PlainName n := fun n hn => hr n (mem_append_left _ hn)
  have hl : ∀ n ∈ [file], PlainName n := fun n hn => hr n (mem_append_right [_] hn)
  rw [Paths.userKeyringDir, joinPath_joinPath (by simp) (by simp) hd hl, Paths.userKeyringBase]
  exact joinPath_joinPath (by simp) (by simp) hb hr

variable {domain' username' : Bytes}

lemma publicKeyFile_inj (hdomain' : validDomainName domain' = true)
    (huser' : validUsername username' = true) (hf : PlainName file)
    (heq : p.publicKeyFile domain username = joinPath [p.userKeyringDir domain' username', file]) :
    domain' = domain ∧ username' = username ∧ file = keyringName ++ ascii ".pub" := by
  rw [Paths.publicKeyFile, pubFile, userFile_eq hdomain huser plainName_keyring.1,
    userFile_eq hdomain' huser' hf] at heq
  have hn := joinPath_names_inj (by simp) (by simp) (userFile_names hdomain huser plainName_keyring.1)
    (userFile_names hdomain' huser' hf) heq
  simp only [List.cons.injEq, and_true, true_and] at hn
  exact ⟨hn.1.symm, hn.2.1.symm, hn.2.2.symm⟩

lemma apart_otherUser (hdomain' : validDomainName domain' = true)
    (huser' : validUsername username' = true) (ho : ¬(domain' = domain ∧ username' = username)) :
    Apart (p.publicKeyFile domain username) (p.userKeyringDir domain' username') keyringName := by
  constructor
  · intro heq
    have hs := publicKeyFile_inj hdomain huser hdomain' huser' plainName_keyring.1 heq
    exact ho ⟨hs.1, hs.2.1⟩
  · intro heq
    have hs := publicKeyFile_inj hdomain huser hdomain' huser' plainName_keyring.2 heq
    exact ho ⟨hs.1, hs.2.1⟩

lemma userFile_ne_domainKey {file' : Bytes} (hf : PlainName file)
    (hdomain' : validDomainName domain' = true) (hfi : PlainName file') :
    joinPath [p.userKeyringDir domain username, file] ≠ joinPath [p.domainKeysDir domain', file'] := by
  intro heq
  have hk : ∀ n ∈ [domain', ascii "keys"], PlainName n := by
    simpa using ⟨plainName_of_validDomainName hdomain', by decide⟩
  have hl : ∀ n ∈ [file'], PlainName n := by simpa using hfi
  have ha : ∀ n ∈ [domain', ascii "keys"] ++ [file'], PlainName n :=
    fun n hn => (mem_append.mp hn).elim (hk n) (hl n)
  rw [userFile_eq hdomain huser hf, Paths.domainKeysDir, joinPath_joinPath (by simp) (by simp) hk hl] at heq
  have hp := congrArg components heq
  rw [components_joinPath (by simp) (userFile_names hdomain huser hf), components_joinPath (by simp) ha] at hp
  have hr := congrArg List.reverse hp
  simp only [reverse_append, reverse_cons, reverse_nil, nil_append, cons_append, List.cons.injEq] at hr
  rw [← hr.2.2.1] at hdomain'
  revert hdomain'
  decide

lemma publicKeyFile_ne_domainKey (hdomain' : validDomainName domain' = true)
    (hf : PlainName file) : p.publicKeyFile domain username ≠ joinPath [p.domainKeysDir domain', file] :=
  userFile_ne_domainKey hdomain huser plainName_keyring.1 hdomain' hf

lemma apart_domainKeys {name : Bytes} (hdomain' : validDomainName domain' = true) (hn : PlainName name) :
    Apart (p.publicKeyFile domain username) (p.domainKeysDir domain') name :=
  ⟨publicKeyFile_ne_domainKey hdomain huser hdomain' (hn.append (by decide) (by decide)),
    publicKeyFile_ne_domainKey hdomain huser hdomain' (hn.append (by decide) (by decide))⟩

lemma createUserKeypair_publicKey (pair : Keypair) :
    p.createUserKeypair files domain username pair (p.publicKeyFile domain username) = .content pair.pub := by
  have hk : p.publicKeyFile domain username ≠ keyFile (p.userKeyringDir domain username) keyringName :=
    fun heq => absurd (publicKeyFile_inj hdomain huser hdomain huser plainName_keyring.2 heq).2.2 (by decide)
  rw [Paths.createUserKeypair, saveKeypair, update_of_ne hk]
  exact update_self _ _ _

lemma apply_userKey {key : Option Bytes} (h : ∀ k, key = some k → files (p.publicKeyFile domain username) = .content k)
    (op : KeyOp) (k : Bytes) (hk : op.userKey domain username key = some k) :
    op.apply p files (p.publicKeyFile domain username) = .content k := by
  have hd : PlainName domainKeyName := by decide
  cases op with
  | createUser domain' username' pair =>
    rw [KeyOp.userKey] at hk
    rw [KeyOp.apply]
    by_cases hs : domain' = domain ∧ username' = username
    · rw [if_pos hs] at hk
      obtain ⟨rfl, rfl⟩ := hs
      cases hk
      rw [hdomain, huser, Bool.and_true, if_pos rfl]
      exact createUserKeypair_publicKey hdomain huser pair
    rw [if_neg hs] at hk
    by_cases hv : (validDomainName domain' && validUsername username') = true
    · rw [if_pos hv, Paths.createUserKeypair]
      rw [Bool.and_eq_true] at hv
      rw [(apart_otherUser hdomain huser hv.1 hv.2 hs).saveKeypair, h k hk]
    · rw [if_neg hv, h k hk]
  | deleteUser domain' username' =>
    rw [KeyOp.userKey] at hk
    rw [KeyOp.apply]
    split_ifs at hk with hs
    by_cases hv : (validDomainName domain' && validUsername username') = true
    · rw [if_pos hv, Paths.deleteUserKeys]
      rw [Bool.and_eq_true] at hv
      have hl : Apart (p.publicKeyFile domain username) (p.domainKeysDir domain') username' :=
        apart_domainKeys hdomain huser hv.1 (plainName_of_validUsername hv.2)
      rw [hl.deleteKeypair, (apart_otherUser hdomain huser hv.1 hv.2 hs).deleteKeypair, h k hk]
    · rw [if_neg hv, h k hk]
  | createDomain domain' pair =>
    rw [KeyOp.apply]
    by_cases hv : validDomainName domain' = true
    · rw [if_pos hv, Paths.createKeypair, (apart_domainKeys hdomain huser hv hd).saveKeypair, h k hk]
    · rw [if_neg hv, h k hk]
  | deleteDomain domain' =>
    rw [KeyOp.apply]
    by_cases hv : validDomainName domain' = true
    · rw [if_pos hv, (apart_domainKeys hdomain huser hv hd).deleteKeypair, h k hk]
    · rw [if_neg hv, h k hk]

lemma runKeyOps_publicKey (files : Files) {ops : List KeyOp} {key : Bytes}
    (h : latestKey domain username ops = some key) :
    runKeyOps p files ops (p.publicKeyFile domain username) = .content key := by
  have hr : ∀ (ops : List KeyOp) (files : Files) (before : Option Bytes),
      (∀ k, before = some k → files (p.publicKeyFile domain username) = .content k) →
      ∀ k, ops.foldl (KeyOp.userKey domain username) before = some k →
        ops.foldl (KeyOp.apply p) files (p.publicKeyFile domain username) = .content k := by
    intro ops
    induction ops with
    | nil => exact fun _ _ h k hk => h k hk
    | cons op rest ih =>
      intro files before hb
      exact ih _ _ (apply_userKey hdomain huser hb op)
  exact hr ops files none nofun key h

end Files

end

end Maildancer.Admin
