import Maildancer.Passwd

namespace Maildancer.Admin

open List Text Passwd

structure Paths where
  config : Bytes
  data : Bytes

def isLower (b : UInt8) : Bool := 97 ≤ b && b ≤ 122

def isUpper (b : UInt8) : Bool := 65 ≤ b && b ≤ 90

def isDigit (b : UInt8) : Bool := 48 ≤ b && b ≤ 57

def dot : UInt8 := 46

def hyphen : UInt8 := 45

def underscore : UInt8 := 95

def backslash : UInt8 := 92

def pathSafe (name : Bytes) : Bool :=
  !(contains (ascii "..") name || contains [slash] name || contains [backslash] name)

-- [a-z0-9]([a-z0-9-]*[a-z0-9])?
def isLabel (label : Bytes) : Bool :=
  let alphanumeric := fun b => isLower b || isDigit b
  label.head?.any alphanumeric && label.getLast?.any alphanumeric &&
    label.all fun b => alphanumeric b || b = hyphen

-- domainNameRe: two labels or more with dots between them.
def validDomainName (name : Bytes) : Bool :=
  name ≠ [] && name.length ≤ 253 && pathSafe name && 2 ≤ (split dot name).length && (split dot name).all isLabel

-- usernameRe
def validUsername (name : Bytes) : Bool :=
  let alphanumeric := fun b => isLower b || isUpper b || isDigit b
  pathSafe name && name.head?.any alphanumeric && name.length ≤ 64 &&
    name.all fun b => alphanumeric b || b = dot || b = underscore || b = hyphen

def minPasswordLength : Nat := 8

def validPassword (password : Bytes) : Bool := minPasswordLength ≤ password.length

variable {name : Bytes}

lemma notMem_of_pathSafe (h : pathSafe name = true) : slash ∉ name := by
  intro hm
  have hc : contains [slash] name = true := by
    obtain ⟨front, tail, rfl⟩ := append_of_mem hm
    exact contains_iff.mpr ⟨front, tail, by simp⟩
  simp [pathSafe, hc] at h

lemma entryName_of_valid {username : Bytes} (h : validUsername username = true) : EntryName username := by
  simp only [validUsername, Bool.and_eq_true, all_eq_true] at h
  obtain ⟨⟨⟨-, hh⟩, -⟩, ha⟩ := h
  have hby : ∀ b : UInt8, (isLower b || isUpper b || isDigit b) = true → Graphic b ∧ b ≠ colon ∧ b ≠ 35 := by
    intro b hb
    simp only [isLower, isUpper, isDigit, Bool.or_eq_true, Bool.and_eq_true, decide_eq_true_eq,
      UInt8.le_iff_toNat_le, UInt8.reduceToNat] at hb
    simp only [Graphic, colon, ne_eq, ← UInt8.toNat_inj, UInt8.le_iff_toNat_le, UInt8.reduceToNat]
    omega
  have ho : ∀ b ∈ username, Graphic b ∧ b ≠ colon := by
    intro b hb
    have hb := ha b hb
    simp only [Bool.or_eq_true, decide_eq_true_eq] at hb
    rcases hb with ((hb | rfl) | rfl) | rfl
    · exact ⟨(hby b (by simpa using hb)).1, (hby b (by simpa using hb)).2.1⟩
    all_goals decide
  rcases username with _ | ⟨first, rest⟩
  · cases hh
  refine ⟨cons_ne_nil _ _, fun b hb => (ho b hb).1, fun hm => (ho _ hm).2 rfl, ?_⟩
  have hf := (hby first hh).2.2
  rw [show ascii "#" = [35] from rfl, hasPrefix_byte]
  simpa using hf

lemma plainName_of_validUsername {username : Bytes} (h : validUsername username = true) : PlainName username := by
  simp only [validUsername, Bool.and_eq_true] at h
  obtain ⟨⟨⟨hs, hh⟩, -⟩, -⟩ := h
  refine ⟨?_, notMem_of_pathSafe hs, ?_, ?_⟩
  all_goals
    rintro rfl
    revert hh
    decide

lemma plainName_of_validDomainName (h : validDomainName name = true) : PlainName name := by
  simp only [validDomainName, Bool.and_eq_true] at h
  obtain ⟨⟨⟨-, hs⟩, -⟩, hl⟩ := h
  refine ⟨?_, notMem_of_pathSafe hs, ?_, ?_⟩
  all_goals
    rintro rfl
    revert hl
    decide

lemma domainByte (h : validDomainName name = true) {b : UInt8} (hb : b ∈ name) :
    isLower b = true ∨ isDigit b = true ∨ b = hyphen ∨ b = dot := by
  simp only [validDomainName, Bool.and_eq_true, all_eq_true] at h
  obtain hdot | ⟨label, hl, hb⟩ := (mem_split_of_mem hb : b = dot ∨ _)
  · exact .inr (.inr (.inr hdot))
  have hby := h.2 label hl
  simp only [isLabel, Bool.and_eq_true, all_eq_true, Bool.or_eq_true, decide_eq_true_eq] at hby
  rcases hby.2 b hb with (hlo | hd) | hh
  · exact .inl hlo
  · exact .inr (.inl hd)
  · exact .inr (.inr (.inl hh))

lemma lower_domainName (c : CaseMap) (h : validDomainName name = true) : c.lower name = name := by
  have hby : ∀ b ∈ name, b < 128 ∧ lowerByte b = b := by
    intro b hb
    have hb := domainByte h hb
    simp only [isLower, isDigit, Bool.and_eq_true, decide_eq_true_eq, hyphen, dot, ← UInt8.toNat_inj,
      UInt8.le_iff_toNat_le, UInt8.reduceToNat] at hb
    have hl : b < 128 := by
      simp only [UInt8.lt_iff_toNat_lt, UInt8.reduceToNat]
      omega
    have hu : ¬(65 ≤ b ∧ b ≤ 90) := by
      simp only [UInt8.le_iff_toNat_le, UInt8.reduceToNat]
      omega
    exact ⟨hl, if_neg hu⟩
  rw [c.lower_ascii name fun b hb => (hby b hb).1]
  exact (map_congr_left fun b hb => (hby b hb).2).trans (map_id name)

abbrev Files := Bytes → ReadResult

def userExists (file : ReadResult) (username : Bytes) : Bool :=
  match parsePasswd file with
  | none => false
  | some users => users.any (·.username = username)

namespace Paths

variable (p : Paths) (h : Hasher) (domainExists : Bytes → Bool) (files : Files)

def domainDir (domain : Bytes) : Bytes := joinPath [p.config, domain]

def passwdPath (domain : Bytes) : Bytes := joinPath [p.config, domain, ascii "passwd"]

-- An operation on the passwd file of a domain, where nothing outside the file
-- fails: what must hold of the file, and what it is replaced by.
def edit (domain username path : Bytes) (valid : Bool) (ready : ReadResult → Bool)
    (change : ReadResult → Option Bytes) : Option Files :=
  if !validDomainName domain || !validUsername username || !valid || !domainExists domain then none
  else if !ready (files path) then none
  else (change (files path)).map fun text => Function.update files path (.content text)

def createUser (domain username password salt : Bytes) : Option Files :=
  edit domainExists files domain username (joinPath [p.domainDir domain, ascii "passwd"]) (validPassword password)
    (fun file => !userExists file username) fun file => addUser h file username password salt

def deleteUser (domain username : Bytes) : Option Files :=
  edit domainExists files domain username (joinPath [p.domainDir domain, ascii "passwd"]) true
    (fun file => userExists file username) fun file => Passwd.deleteUser file username

-- A user with a sealed key is refused.
def resetPassword (hasSealedKey : Bool) (domain username password salt : Bytes) : Option Files :=
  edit domainExists files domain username (joinPath [p.config, domain, ascii "passwd"]) (validPassword password)
    (fun file => userExists file username && !hasSealedKey) fun file => setPassword h file username password salt

-- The old password is checked by an agent of its own.
def changePassword (keys : KeyResult) (domain username oldPassword newPassword salt : Bytes) : Option Files :=
  edit domainExists files domain username (joinPath [p.config, domain, ascii "passwd"])
    (oldPassword ≠ [] && validPassword newPassword)
    (fun file => userExists file username && (newAgent file).any fun agent =>
      (agent.authenticate h keys username oldPassword).toOption.isSome)
    fun file => setPassword h file username newPassword salt

def resetPasswordRegenKeys (domain username newPassword salt : Bytes) : Option Files :=
  edit domainExists files domain username (joinPath [p.config, domain, ascii "passwd"]) (validPassword newPassword)
    (fun file => userExists file username) fun file => setPassword h file username newPassword salt

lemma joinPath_domainDir {domain : Bytes} (hd : validDomainName domain = true) :
    joinPath [p.domainDir domain, ascii "passwd"] = p.passwdPath domain := by
  have hp := plainName_of_validDomainName hd
  have hpa : PlainName (ascii "passwd") := by decide
  exact joinPath_joinPath (by simp) (by simp) (by simpa using hp) (by simpa using hpa)

lemma passwdPath_inj {domain other : Bytes} (hd : validDomainName domain = true)
    (ho : validDomainName other = true) (heq : p.passwdPath domain = p.passwdPath other) : domain = other := by
  have hp : PlainName (ascii "passwd") := by decide
  have hna : ∀ name, validDomainName name = true → ∀ n ∈ [name, ascii "passwd"], PlainName n := by
    intro name hnm n hn
    rcases mem_cons.mp hn with rfl | hn
    · exact plainName_of_validDomainName hnm
    · rwa [mem_singleton.mp hn]
  have hl := joinPath_names_inj (by simp) (by simp) (hna domain hd) (hna other ho) heq
  exact (cons_eq_cons.mp hl).1

structure Sets (files next : Files) (domain username : Bytes) (accepted : Bytes → Bool) : Prop where
  valid : validDomainName domain = true
  other : ∀ path, path ≠ p.passwdPath domain → next path = files path
  sets : ∃ text, next (p.passwdPath domain) = .content text ∧
    SetsPasswords h (files (p.passwdPath domain)) text username accepted

section Operations

variable {h domainExists files} {next : Files} {domain username path : Bytes}

variable {valid : Bool} {ready : ReadResult → Bool} {change : ReadResult → Option Bytes}

lemma edit_some (he : edit domainExists files domain username path valid ready change = some next) :
    validDomainName domain = true ∧ validUsername username = true ∧ ∃ text, change (files path) = some text ∧
      next = Function.update files path (.content text) := by
  unfold edit at he
  by_cases hb : (!validDomainName domain || !validUsername username || !valid || !domainExists domain) = true
  · rw [if_pos hb] at he
    cases he
  rw [if_neg hb] at he
  simp only [Bool.or_eq_true, Bool.not_eq_true', not_or, Bool.not_eq_false] at hb
  split_ifs at he with hr
  obtain ⟨text, hc, rfl⟩ := Option.map_eq_some_iff.mp he
  exact ⟨hb.1.1.1, hb.1.1.2, text, hc, rfl⟩

lemma edit_sets
    {accepted : Bytes → Bool} (hp : validDomainName domain = true → path = p.passwdPath domain)
    (hc : ∀ text, EntryName username → change (files (p.passwdPath domain)) = some text →
      SetsPasswords h (files (p.passwdPath domain)) text username accepted)
    (he : edit domainExists files domain username path valid ready change = some next) :
    p.Sets h files next domain username accepted := by
  obtain ⟨hd, hu, text, ht, rfl⟩ := edit_some he
  obtain rfl := hp hd
  exact ⟨hd, fun _ hne => Function.update_of_ne hne _ _, text, Function.update_self _ _ _,
    hc text (entryName_of_valid hu) ht⟩

end Operations

end Paths

end Maildancer.Admin
