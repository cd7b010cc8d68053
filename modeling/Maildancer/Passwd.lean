import Maildancer.Text.Path
import Maildancer.Text.Lines

namespace Maildancer.Passwd

open Option List Text

def colon : UInt8 := 58

-- An argon2id hash of a password under a salt. Two passwords are taken to have
-- different hashes, and the text of a hash is printable without a colon.
structure Hasher where
  hashPassword : Bytes → Bytes → Bytes
  verifyPassword : Bytes → Bytes → Bool
  verify_hash : ∀ password other salt, verifyPassword password (hashPassword other salt) = decide (password = other)
  hash_graphic : ∀ password salt, ∀ b ∈ hashPassword password salt, Graphic b
  colon_notMem_hash : ∀ password salt, colon ∉ hashPassword password salt

structure UserEntry where
  username : Bytes
  hash : Bytes
  mailbox : Bytes
deriving DecidableEq

def isSkipped (trimmed : Bytes) : Bool := trimmed = [] || hasPrefix (ascii "#") trimmed

def parseLine (line : Bytes) : Option UserEntry :=
  let trimmed := trimSpace line
  if isSkipped trimmed then none
  else
    match splitN colon 4 trimmed with
    | username :: hash :: rest => some ⟨username, hash, rest.head?.getD username⟩
    | _ => none

-- parsePasswd and loadPasswd: a missing file has no users.
def parsePasswd : ReadResult → Option (List UserEntry)
  | .notExist => some []
  | .failed => none
  | .content data =>
    let scan := scanLines data
    if scan.tooLong then none else some (scan.lines.filterMap parseLine)

def formatEntry (fields : List Bytes) : Bytes := List.intercalate [colon] fields

def existing : ReadResult → Bytes
  | .content data => data
  | _ => []

def addUser (h : Hasher) (file : ReadResult) (username password salt : Bytes) : Option Bytes :=
  match parsePasswd file with
  | none => none
  | some users =>
    if users.any (·.username = username) then none
    else some (existing file ++ (formatEntry [username, h.hashPassword password salt, username] ++ [newline]))

def replaceLine (username hash line : Bytes) : Option Bytes :=
  let trimmed := trimSpace line
  if isSkipped trimmed then none
  else
    match splitN colon 4 trimmed with
    | name :: _ :: rest =>
      if name ≠ username then none
      else some (formatEntry (username :: hash :: if rest = [] then [name] else rest))
    | _ => none

def setPassword (h : Hasher) (file : ReadResult) (username password salt : Bytes) : Option Bytes :=
  match file with
  | .content data =>
    let scan := scanLines data
    let replace := replaceLine username (h.hashPassword password salt)
    if scan.tooLong || !scan.lines.any fun line => (replace line).isSome then none
    else some (unlines (scan.lines.map fun line => (replace line).getD line))
  | _ => none

def isUserLine (username line : Bytes) : Bool :=
  let trimmed := trimSpace line
  !isSkipped trimmed && (splitN colon 3 trimmed).head? = some username

def deleteUser (file : ReadResult) (username : Bytes) : Option Bytes :=
  match file with
  | .content data =>
    let scan := scanLines data
    if scan.tooLong || !scan.lines.any (isUserLine username) then none
    else some (unlines (scan.lines.filter fun line => !isUserLine username line))
  | _ => none

inductive AuthError
  | userNotFound
  | authFailed
  | keyError
  | agentInit
  | rateLimited
  | domainNotHosted
deriving DecidableEq

structure AuthSession where
  username : Bytes
  mailbox : Bytes
  encryptionEnabled : Bool
deriving DecidableEq

inductive KeyResult
  | loaded
  | notFound
  | failed

-- The agent keeps the users that it read when it was made.
structure Agent where
  users : List UserEntry
deriving DecidableEq

-- A later entry of the same name replaces an earlier one.
def Agent.lookup (a : Agent) (username : Bytes) : Option UserEntry :=
  (a.users.filter (·.username = username)).getLast?

def newAgent (file : ReadResult) : Option Agent := (parsePasswd file).map Agent.mk

def Agent.authenticate (h : Hasher) (a : Agent) (keys : KeyResult) (username password : Bytes) :
    Except AuthError AuthSession :=
  match a.lookup username with
  | none => .error .userNotFound
  | some entry =>
    if !h.verifyPassword password entry.hash then .error .authFailed
    else
      match keys with
      | .loaded => .ok ⟨entry.username, entry.mailbox, true⟩
      | .notFound => .ok ⟨entry.username, entry.mailbox, false⟩
      | .failed => .error .keyError

def Agent.userExists (a : Agent) (username : Bytes) : Bool := (a.lookup username).isSome

def Agent.accepts (h : Hasher) (a : Agent) (username password : Bytes) : Bool :=
  (a.lookup username).any fun entry => h.verifyPassword password entry.hash

structure EntryName (username : Bytes) : Prop where
  ne_nil : username ≠ []
  graphic : ∀ b ∈ username, Graphic b
  noColon : colon ∉ username
  noComment : hasPrefix (ascii "#") username = false

lemma parseLine_dropCR (line : Bytes) : parseLine (dropCR line) = parseLine line := by
  simp [parseLine, trimSpace_dropCR]

variable {data : Bytes} {users : List UserEntry} {lines : List Bytes}

lemma parsePasswd_content : parsePasswd (.content data) = some users ↔
      (scanLines data).tooLong = false ∧ users = (rawLinesFrom [] data).filterMap parseLine := by
  rcases hl : (scanLines data).tooLong with _ | _
  · have hp : ((rawLinesFrom [] data).map dropCR).filterMap parseLine =
        (rawLinesFrom [] data).filterMap parseLine := by
      rw [filterMap_map]
      exact filterMap_congr fun line _ => parseLine_dropCR line
    simp only [parsePasswd, hl, scanLines_lines hl, hp, Bool.false_eq_true, ite_false,
      Option.some.injEq, true_and, eq_comm]
  · simp [parsePasswd, hl]

lemma filter_entries (lines : List Bytes) (username : Bytes) :
    (lines.filterMap parseLine).filter (·.username = username) =
      lines.filterMap fun line => (parseLine line).filter (·.username = username) :=
  filter_filterMap

lemma isSkipped_append {username : Bytes} (hn : EntryName username) (rest : Bytes) :
    isSkipped (username ++ rest) = false := by
  obtain ⟨b, tail, rfl⟩ := exists_cons_of_ne_nil hn.ne_nil
  simpa [isSkipped, hasPrefix, ascii, List.isPrefixOf] using hn.noComment

lemma parseLine_entry {username hash : Bytes} (hn : EntryName username) (hh : ∀ b ∈ hash, Graphic b)
    (hc : colon ∉ hash) (rest : Bytes) :
    ∃ mailbox, parseLine (username ++ colon :: (hash ++ colon :: rest)) = some ⟨username, hash, mailbox⟩ := by
  have hw : ∀ b ∈ username ++ colon :: (hash ++ [colon]), Graphic b := by
    intro b hb
    simp only [mem_append, mem_cons, not_mem_nil, or_false] at hb
    rcases hb with hb | rfl | hb | rfl
    · exact hn.graphic b hb
    · decide
    · exact hh b hb
    · decide
  have ht : trimSpace (username ++ colon :: (hash ++ colon :: rest)) =
      username ++ colon :: (hash ++ colon :: trimSpaceRight rest) := by
    have h := trimSpace_word (by simp) hw rest
    simpa using h
  obtain ⟨mailbox, more, hm⟩ := exists_cons_of_ne_nil (splitN_ne_nil colon 1 (trimSpaceRight rest))
  refine ⟨mailbox, ?_⟩
  simp only [parseLine, ht, isSkipped_append hn, Bool.false_eq_true, ite_false, splitN_cons hn.noColon,
    splitN_cons hc, hm, List.head?_cons, getD_some]

lemma newline_notMem_entry {username hash rest : Bytes} (hn : EntryName username) (hh : ∀ b ∈ hash, Graphic b)
    (hr : newline ∉ rest) : newline ∉ username ++ colon :: (hash ++ colon :: rest) := by
  intro hm
  simp only [mem_append, mem_cons] at hm
  rcases hm with hm | hm | hm | hm | hm
  · exact absurd (hn.graphic _ hm) (by decide)
  · exact absurd hm (by decide)
  · exact absurd (hh _ hm) (by decide)
  · exact absurd hm (by decide)
  · exact hr hm

section Replace

variable {username hash line : Bytes}

lemma parseLine_of_replaceLine_none (h : replaceLine username hash line = none) :
    (parseLine line).filter (·.username = username) = none := by
  unfold replaceLine at h
  unfold parseLine
  by_cases hs : isSkipped (trimSpace line) = true
  · rw [if_pos hs]
    rfl
  rw [if_neg hs] at h ⊢
  rcases hp : splitN colon 4 (trimSpace line) with _ | ⟨name, rest⟩
  · rfl
  rcases rest with _ | ⟨old, rest⟩
  · rfl
  rw [hp] at h
  dsimp only at h
  by_cases hn : name ≠ username
  · simp [hn]
  · rw [if_neg hn] at h
    cases h

lemma replaceLine_some {new : Bytes} (h : replaceLine username hash line = some new) :
    (∃ entry, parseLine line = some entry ∧ entry.username = username) ∧
      ∃ rest, new = username ++ colon :: (hash ++ colon :: rest) ∧ ∀ b ∈ rest, b = colon ∨ b ∈ line := by
  unfold replaceLine at h
  unfold parseLine
  by_cases hs : isSkipped (trimSpace line) = true
  · rw [if_pos hs] at h
    cases h
  rw [if_neg hs] at h ⊢
  rcases hp : splitN colon 4 (trimSpace line) with _ | ⟨name, rest⟩
  · rw [hp] at h
    cases h
  rcases rest with _ | ⟨old, rest⟩
  · rw [hp] at h
    cases h
  rw [hp] at h
  dsimp only at h ⊢
  by_cases hn : name ≠ username
  · rw [if_pos hn] at h
    cases h
  rw [if_neg hn] at h
  have hm : ∀ part ∈ name :: old :: rest, ∀ b ∈ part, b ∈ line := fun part hpa b hb =>
    mem_of_mem_trimSpace (mem_of_mem_splitN (hp ▸ hpa) hb)
  refine ⟨⟨_, rfl, not_not.mp hn⟩, List.intercalate [colon] (if rest = [] then [name] else rest), ?_, ?_⟩
  · have hne : (if rest = [] then [name] else rest) ≠ [] := by
      by_cases hr : rest = [] <;> simp [hr]
    rw [← Option.some.inj h, formatEntry, intercalate_cons colon _ (by simp), intercalate_cons colon _ hne]
  intro b hb
  refine (mem_intercalate hb).imp_right fun ⟨part, hpa, hb⟩ => hm part ?_ b hb
  by_cases hr : rest = []
  · rw [if_pos hr, mem_singleton] at hpa
    exact hpa ▸ mem_cons_self
  · rw [if_neg hr] at hpa
    exact mem_cons_of_mem _ (mem_cons_of_mem _ hpa)

end Replace

lemma isUserLine_eq {line : Bytes} {entry : UserEntry} (h : parseLine line = some entry) (username : Bytes) :
    isUserLine username line = decide (entry.username = username) := by
  unfold parseLine at h
  unfold isUserLine
  by_cases hs : isSkipped (trimSpace line) = true
  · rw [if_pos hs] at h
    cases h
  rw [if_neg hs] at h
  rcases hp : splitN colon 4 (trimSpace line) with _ | ⟨name, rest⟩
  · rw [hp] at h
    cases h
  rcases rest with _ | ⟨hash, rest⟩
  · rw [hp] at h
    cases h
  rw [hp] at h
  cases h
  have hh : (splitN colon 3 (trimSpace line)).head? = some name := by
    rw [head?_splitN colon 1 2, hp, List.head?_cons]
  simp [hs, hh]

structure SetsPasswords (h : Hasher) (file : ReadResult) (text username : Bytes) (accepted : Bytes → Bool) : Prop where
  readable : ∃ before, newAgent file = some before
  terminated : Terminated text
  accepts : ∀ before after, newAgent file = some before → newAgent (.content text) = some after →
    ∀ name password, after.accepts h name password =
      if name = username then accepted password else before.accepts h name password

section Effect

variable {h : Hasher} {file : ReadResult} {username password salt text : Bytes}

variable {a : Agent}

lemma Agent.accepts_congr {b : Agent} {name : Bytes}
    (heq : a.users.filter (·.username = name) = b.users.filter (·.username = name)) (password : Bytes) :
    a.accepts h name password = b.accepts h name password := by
  rw [Agent.accepts, Agent.accepts, Agent.lookup, Agent.lookup, heq]

lemma newAgent_eq (ha : newAgent (.content data) = some a) :
    (scanLines data).tooLong = false ∧ a.users = (rawLinesFrom [] data).filterMap parseLine := by
  obtain ⟨users, hu, rfl⟩ := map_eq_some_iff.mp ha
  exact parsePasswd_content.mp hu

lemma newAgent_unlines (hl : ∀ line ∈ lines, newline ∉ line)
    (ha : newAgent (.content (unlines lines)) = some a) : a.users = lines.filterMap parseLine := by
  obtain ⟨users, hu, rfl⟩ := map_eq_some_iff.mp ha
  rw [(parsePasswd_content.mp hu).2, rawLinesFrom_unlines lines hl]

lemma newAgent_scan (ha : newAgent (.content data) = some a) :
    a.users = (scanLines data).lines.filterMap parseLine := by
  obtain ⟨users, hu, rfl⟩ := map_eq_some_iff.mp ha
  rw [parsePasswd] at hu
  by_cases hl : (scanLines data).tooLong = true
  · rw [if_pos hl] at hu
    cases hu
  · rw [if_neg hl] at hu
    exact (Option.some.inj hu).symm

lemma newAgent_of_short (hl : (scanLines data).tooLong = false) :
    ∃ a, newAgent (.content data) = some a :=
  ⟨_, by rw [newAgent, parsePasswd, hl]; rfl⟩

lemma accepts_of_entries (password salt : Bytes) (hne : a.users.filter (·.username = username) ≠ [])
    (ha : ∀ entry ∈ a.users.filter (·.username = username), entry.hash = h.hashPassword password salt)
    (tried : Bytes) : a.accepts h username tried = decide (tried = password) := by
  have hl := List.getLast?_eq_some_getLast hne
  rw [Agent.accepts, Agent.lookup, hl, any_some, ha _ (getLast_mem hne), h.verify_hash]

lemma newAgent_existing (ha : newAgent file = some a) :
    a.users = (rawLinesFrom [] (existing file)).filterMap parseLine := by
  cases file with
  | content data => exact (newAgent_eq ha).2
  | notExist =>
    cases ha
    rfl
  | failed => cases ha

lemma addUser_sets (hn : EntryName username) (he : Terminated (existing file))
    (hadd : addUser h file username password salt = some text) :
    SetsPasswords h file text username fun tried => decide (tried = password) := by
  unfold addUser at hadd
  rcases hp : parsePasswd file with _ | users <;> rw [hp] at hadd
  · cases hadd
  dsimp only at hadd
  split_ifs at hadd with hany
  cases hadd
  refine ⟨⟨⟨users⟩, by rw [newAgent, hp]; rfl⟩, ?_, ?_⟩
  · rw [← append_assoc]
    exact terminated_append _
  intro before after hb ha name tried
  -- the new line follows the lines that were there
  obtain ⟨mailbox, hen⟩ := parseLine_entry hn (h.hash_graphic password salt)
    (h.colon_notMem_hash password salt) username
  have hf : formatEntry [username, h.hashPassword password salt, username] =
      username ++ colon :: (h.hashPassword password salt ++ colon :: username) := by
    simp [formatEntry, List.intercalate]
  have hnl : newline ∉ username := fun hm => absurd (hn.graphic _ hm) (by decide)
  have hl := rawLinesFrom_line [] _ []
    (newline_notMem_entry hn (h.hash_graphic password salt) hnl)
  rw [nil_append, show rawLinesFrom [] [] = [] from rfl] at hl
  have ha := (newAgent_eq ha).2
  rw [hf, rawLinesFrom_append he, hl, filterMap_append, ← newAgent_existing hb,
    filterMap_cons_some hen, filterMap_nil] at ha
  have hb : before.users = users := by
    rw [newAgent, hp] at hb
    rw [← Option.some.inj hb]
  by_cases heq : name = username
  · rw [if_pos heq, heq]
    have hno : users.filter (·.username = username) = [] := by
      simpa [filter_eq_nil_iff] using hany
    refine accepts_of_entries password salt ?_ ?_ tried
    · simp [ha, filter_append]
    · rw [ha, hb, filter_append, hno]
      simp
  · rw [if_neg heq]
    refine Agent.accepts_congr ?_ tried
    rw [ha, filter_append]
    simp [Ne.symm heq]

lemma setPassword_sets (hn : EntryName username) (hset : setPassword h file username password salt = some text) :
    SetsPasswords h file text username fun tried => decide (tried = password) := by
  cases file with
  | notExist | failed => cases hset
  | content data =>
    unfold setPassword at hset
    dsimp only at hset
    by_cases hf : ((scanLines data).tooLong || !(scanLines data).lines.any fun line =>
        (replaceLine username (h.hashPassword password salt) line).isSome) = true
    · rw [if_pos hf] at hset
      cases hset
    rw [if_neg hf] at hset
    cases hset
    rw [Bool.or_eq_true, not_or, Bool.not_eq_true, Bool.not_eq_true', Bool.not_eq_false] at hf
    obtain ⟨hs, hfo⟩ := hf
    refine ⟨newAgent_of_short hs, terminated_unlines _, ?_⟩
    intro before after hb ha name tried
    have hb := newAgent_scan hb
    have he := fun rest => parseLine_entry hn (h.hash_graphic password salt)
      (h.colon_notMem_hash password salt) rest
    have ha : after.users = ((scanLines data).lines.map fun line =>
        (replaceLine username (h.hashPassword password salt) line).getD line).filterMap parseLine := by
      refine newAgent_unlines (fun line hl => ?_) ha
      obtain ⟨old, hold, rfl⟩ := mem_map.mp hl
      have hnl := newline_notMem_scanLines hold
      rcases hr : replaceLine username (h.hashPassword password salt) old with _ | new
      · exact hnl
      · obtain ⟨-, rest, rfl, hre⟩ := replaceLine_some hr
        refine newline_notMem_entry hn (h.hash_graphic password salt) fun hm => ?_
        exact (hre _ hm).elim (by decide) hnl
    have hli : after.users.filter (·.username = name) = (scanLines data).lines.filterMap fun line =>
        (parseLine ((replaceLine username (h.hashPassword password salt) line).getD line)).filter
          (·.username = name) := by
      rw [ha, filter_entries, filterMap_map]
      rfl
    by_cases heq : name = username
    · rw [if_pos heq, heq]
      subst heq
      refine accepts_of_entries password salt ?_ ?_ tried
      · obtain ⟨line, hl, hso⟩ := any_eq_true.mp hfo
        obtain ⟨new, hnew⟩ := isSome_iff_exists.mp hso
        obtain ⟨-, rest, rfl, -⟩ := replaceLine_some hnew
        obtain ⟨mailbox, hp⟩ := he rest
        refine ne_nil_of_mem (a := ⟨name, h.hashPassword password salt, mailbox⟩) ?_
        rw [hli, mem_filterMap]
        exact ⟨line, hl, by rw [hnew, getD_some, hp]; simp⟩
      · intro entry hm
        rw [hli, mem_filterMap] at hm
        obtain ⟨line, -, hfi⟩ := hm
        rcases hr : replaceLine name (h.hashPassword password salt) line with _ | new
        · rw [hr, getD_none, parseLine_of_replaceLine_none hr] at hfi
          cases hfi
        obtain ⟨-, rest, rfl, -⟩ := replaceLine_some hr
        obtain ⟨mailbox, hp⟩ := he rest
        rw [hr, getD_some, hp] at hfi
        obtain ⟨heq, -⟩ := filter_eq_some_iff.mp hfi
        rw [← Option.some.inj heq]
    · rw [if_neg heq]
      refine Agent.accepts_congr ?_ tried
      rw [hli, hb, filter_entries]
      refine filterMap_congr fun line _ => ?_
      rcases hr : replaceLine username (h.hashPassword password salt) line with _ | new
      · rfl
      obtain ⟨⟨entry, hold, ho⟩, rest, rfl, -⟩ := replaceLine_some hr
      obtain ⟨mailbox, hp⟩ := he rest
      rw [getD_some, hp, hold, filter_some, filter_some]
      simp [ho, Ne.symm heq]

lemma deleteUser_sets (hd : deleteUser file username = some text) :
    SetsPasswords h file text username fun _ => false := by
  cases file with
  | notExist | failed => cases hd
  | content data =>
    unfold deleteUser at hd
    dsimp only at hd
    split_ifs at hd with hf
    cases hd
    rw [Bool.or_eq_true, not_or, Bool.not_eq_true] at hf
    refine ⟨newAgent_of_short hf.1, terminated_unlines _, ?_⟩
    intro before after hb ha name tried
    have hl : after.users.filter (·.username = name) = (scanLines data).lines.filterMap fun line =>
        if !isUserLine username line then (parseLine line).filter (·.username = name) else none := by
      rw [newAgent_unlines (fun line hli => newline_notMem_scanLines (mem_filter.mp hli).1) ha,
        filter_entries, filterMap_filter]
    by_cases heq : name = username
    · rw [if_pos heq, heq]
      subst heq
      have hn : after.users.filter (·.username = name) = [] := by
        rw [hl, filterMap_eq_nil_iff]
        intro line _
        rcases hli : isUserLine name line with _ | _
        · rcases hp : parseLine line with _ | entry
          · rfl
          · rw [isUserLine_eq hp] at hli
            simp [filter_some, hli]
        · rfl
      rw [Agent.accepts, Agent.lookup, hn]
      rfl
    · rw [if_neg heq]
      refine Agent.accepts_congr ?_ tried
      rw [hl, newAgent_scan hb, filter_entries]
      refine filterMap_congr fun line _ => ?_
      rcases hli : isUserLine username line with _ | _
      · rfl
      rcases hp : parseLine line with _ | entry
      · rfl
      · rw [isUserLine_eq hp, decide_eq_true_eq] at hli
        simp [filter_some, hli, Ne.symm heq]

end Effect

end Maildancer.Passwd
