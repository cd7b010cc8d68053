import Maildancer.Maildir.MailboxPath
import Maildancer.Maildir.Store
import Maildancer.Text.Relative

namespace Maildancer.Maildir

open List Text Queue Domains Msgstore

-- The maildirs that have a cur/, and the messages delivered so far with the directory in whose new/ they are.
structure Shelves where
  dirs : List Bytes
  mail : List (Bytes × Bytes)
deriving DecidableEq

-- How the file system answers while one recipient is served. Default folders are
-- created up to the first that fails.
structure Luck where
  statFolder : Bool
  statInbox : Bool
  init : Bool
  defaultFolders : Nat
  newDelivery : Bool
  copy : Bool
  close : Bool
deriving DecidableEq

inductive DeliverError
  | noRecipients
  | readMessage
  | pathTraversal
  | init
  | newDelivery
  | copy
  | close
deriving DecidableEq

section Deliver

variable (st : StoreConfig)

-- The path that folderPath returns. None stands for both of its errors.
def folderDirectory (mailbox folder : Bytes) : Option Bytes :=
  if validateFolderName folder then
    match mailboxPath st mailbox with
    | none => none
    | some basePath =>
      let candidate := joinPath [basePath, ascii "." ++ folder]
      let cleanBase := cleanPath basePath
      let cleanCandidate := cleanPath candidate
      if hasPrefix (cleanBase ++ [slash]) (cleanCandidate ++ [slash]) then some cleanCandidate else none
  else none

def folderIfExists (s : Shelves) (luck : Luck) (mailbox folder : Bytes) : Option Bytes :=
  match folderDirectory st mailbox folder with
  | none => none
  | some path => if luck.statFolder ∧ path ∈ s.dirs then some path else none

def ensureMailbox (s : Shelves) (luck : Luck) (mailbox : Bytes) : Shelves × Except DeliverError Bytes :=
  match mailboxPath st mailbox with
  | none => (s, .error .pathTraversal)
  | some path =>
    if luck.statInbox ∧ path ∉ s.dirs then
      if luck.init then
        ({ s with dirs := s.dirs ++ path ::
          (defaultFolders.take luck.defaultFolders).filterMap (folderDirectory st mailbox) }, .ok path)
      else (s, .error .init)
    else (s, .ok path)

def deliveryTarget (s : Shelves) (luck : Luck) (parsed : Msgstore.Recipient) :
    Shelves × Except DeliverError (Bytes × Bytes) :=
  match if parsed.extension ≠ [] then folderIfExists st s luck parsed.address parsed.extension else none with
  | some dir => (s, .ok (dir, parsed.extension))
  | none =>
    match ensureMailbox st s luck parsed.address with
    | (s, .error e) => (s, .error e)
    | (s, .ok dir) => (s, .ok (dir, ascii "INBOX"))

-- The message goes to tmp/ and is moved into new/ when it is complete.
def deliverTo (data : Bytes) (s : Shelves) (recipient : Bytes) (luck : Luck) :
    Shelves × Except DeliverError (Bytes × Bytes) :=
  match deliveryTarget st s luck (parseRecipient recipient) with
  | (s, .error e) => (s, .error e)
  | (s, .ok (dir, folder)) =>
    if ¬ luck.newDelivery then (s, .error .newDelivery)
    else if ¬ luck.copy then (s, .error .copy)
    else if ¬ luck.close then (s, .error .close)
    else ({ s with mail := s.mail ++ [(dir, data)] }, .ok (dir, folder))

structure Tally where
  shelves : Shelves
  delivered : Nat
  lastErr : Option DeliverError
  folders : Bytes → Option Bytes

def Tally.next (requested : Bool) (data : Bytes) (t : Tally) (entry : Bytes × Luck) : Tally :=
  match deliverTo st data t.shelves entry.1 entry.2 with
  | (s, .error e) => { t with shelves := s, lastErr := some e }
  | (s, .ok place) => { t with
      shelves := s
      delivered := t.delivered + 1
      folders := if requested then Function.update t.folders (parseRecipient entry.1).address (some place.2)
        else t.folders }

-- What Deliver leaves, the map DeliveredFolders and the error. The recipients come
-- with the answers of the file system; a message that cannot be read is none.
def deliverAll (requested : Bool) (s : Shelves) (recipients : List (Bytes × Luck)) (message : Option Bytes) :
    Shelves × (Bytes → Option Bytes) × Option DeliverError :=
  if recipients = [] then (s, fun _ => none, some .noRecipients)
  else
    match message with
    | none => (s, fun _ => none, some .readMessage)
    | some data =>
      let t := recipients.foldl (Tally.next st requested data) ⟨s, 0, none, fun _ => none⟩
      (t.shelves, t.folders, if t.delivered = 0 then t.lastErr else none)

def outcomes (data : Bytes) : Shelves → List (Bytes × Luck) → List (Bytes × Except DeliverError (Bytes × Bytes))
  | _, [] => []
  | s, (recipient, luck) :: rest =>
    let (s, outcome) := deliverTo st data s recipient luck
    (recipient, outcome) :: outcomes data s rest

def received (data : Bytes) (s : Shelves) (recipients : List (Bytes × Luck)) : List (Bytes × Bytes × Bytes) :=
  (outcomes st data s recipients).filterMap fun o => o.2.toOption.map fun place => (o.1, place)

def Lies (recipient : Bytes) (place : Bytes × Bytes) : Prop :=
  place.2 = ascii "INBOX" ∧ mailboxPath st (parseRecipient recipient).address = some place.1 ∨
    place.2 = (parseRecipient recipient).extension ∧
      folderDirectory st (parseRecipient recipient).address place.2 = some place.1

def Accounted (requested : Bool) (s : Shelves) (recipients : List Bytes) (data : Bytes) (t : Shelves)
    (folders : Bytes → Option Bytes) : Prop :=
  ∃ places, List.Forall₂ (Lies st) recipients places ∧ t.mail = s.mail ++ places.map (fun place => (place.1, data)) ∧
    (requested = true → ∀ r ∈ recipients.zip places, folders (parseRecipient r.1).address = some r.2.2)

-- A recipient with the directories there are when its turn comes.
structure Turn where
  dirs : List Bytes
  recipient : Bytes
  luck : Luck

namespace Turn

variable (turn : Turn)

def address : Bytes := (parseRecipient turn.recipient).address

def extension : Bytes := (parseRecipient turn.recipient).extension

-- The user has a folder for the extension.
def toFolder : Bool :=
  turn.extension ≠ [] ∧ turn.luck.statFolder ∧ (folderDirectory st turn.address turn.extension).any (· ∈ turn.dirs)

def folder : Bytes := if turn.toFolder st then turn.extension else ascii "INBOX"

def needsInit : Bool := turn.luck.statInbox ∧ (mailboxPath st turn.address).any (· ∉ turn.dirs)

-- The mailbox has no path, or it is missing and cannot be made.
def homeless : Bool :=
  !turn.toFolder st ∧ (mailboxPath st turn.address = none ∨ turn.needsInit st ∧ !turn.luck.init)

def fails : Bool := turn.homeless st ∨ !(turn.luck.newDelivery ∧ turn.luck.copy ∧ turn.luck.close)

def dirsAfter : List Bytes :=
  if !turn.toFolder st ∧ turn.needsInit st ∧ turn.luck.init then
    turn.dirs ++ (mailboxPath st turn.address).toList ++
      (defaultFolders.take turn.luck.defaultFolders).filterMap (folderDirectory st turn.address)
  else turn.dirs

end Turn

def turns : List Bytes → List (Bytes × Luck) → List Turn
  | _, [] => []
  | dirs, (recipient, luck) :: rest =>
    ⟨dirs, recipient, luck⟩ :: turns (Turn.dirsAfter st ⟨dirs, recipient, luck⟩) rest

-- Nobody gets a copy, or everybody does and, where the folders are asked for, no
-- address has copies in two of them.
def Evenly (requested : Bool) (ts : List Turn) : Prop :=
  (∀ turn ∈ ts, turn.fails st = true) ∨ (∀ turn ∈ ts, turn.fails st = false) ∧
    (requested = true → ∀ turn ∈ ts, ∀ turn' ∈ ts, turn.address = turn'.address → turn.folder st = turn'.folder st)

end Deliver

variable {s t : Shelves}

section Place

variable {st : StoreConfig} {mailbox folder dir recipient : Bytes}

variable {luck : Luck}

lemma folderIfExists_eq_some (h : folderIfExists st s luck mailbox folder = some dir) :
    folderDirectory st mailbox folder = some dir := by
  unfold folderIfExists at h
  rcases hp : folderDirectory st mailbox folder with _ | path <;> rw [hp] at h
  · cases h
  dsimp only at h
  split_ifs at h
  exact h

lemma ensureMailbox_mail {answer : Except DeliverError Bytes}
    (h : ensureMailbox st s luck mailbox = (t, answer)) :
    t.mail = s.mail ∧ ∀ dir, answer = .ok dir → mailboxPath st mailbox = some dir := by
  unfold ensureMailbox at h
  rcases hp : mailboxPath st mailbox with _ | path
  · rw [hp] at h
    cases h
    exact ⟨rfl, fun _ h => by cases h⟩
  rw [hp] at h
  dsimp only at h
  split_ifs at h
  all_goals
    cases h
    refine ⟨rfl, fun dir h => ?_⟩
    cases h
    try rfl

variable {answer : Except DeliverError (Bytes × Bytes)}

lemma deliveryTarget_mail (h : deliveryTarget st s luck (parseRecipient recipient) = (t, answer)) :
    t.mail = s.mail ∧ ∀ place, answer = .ok place → Lies st recipient place := by
  unfold deliveryTarget at h
  cases hf : if (parseRecipient recipient).extension ≠ [] then
      folderIfExists st s luck (parseRecipient recipient).address (parseRecipient recipient).extension else none with
  | some dir =>
    rw [hf] at h
    cases h
    refine ⟨rfl, fun place hp => ?_⟩
    cases hp
    split_ifs at hf
    exact .inr ⟨rfl, folderIfExists_eq_some hf⟩
  | none =>
    rw [hf] at h
    rcases he : ensureMailbox st s luck (parseRecipient recipient).address with ⟨u, inbox⟩
    obtain ⟨hm, hd⟩ := ensureMailbox_mail he
    rw [he] at h
    rcases inbox with e | dir
    · cases h
      exact ⟨hm, fun _ h => by cases h⟩
    cases h
    refine ⟨hm, fun place hp => ?_⟩
    cases hp
    exact .inl ⟨rfl, hd dir rfl⟩

lemma deliverTo_mail {data : Bytes}
    (h : deliverTo st data s recipient luck = (t, answer)) : (∀ e, answer = .error e → t.mail = s.mail) ∧
      ∀ place, answer = .ok place → t.mail = s.mail ++ [(place.1, data)] ∧ Lies st recipient place := by
  unfold deliverTo at h
  rcases ht : deliveryTarget st s luck (parseRecipient recipient) with ⟨u, target⟩
  obtain ⟨hm, hl⟩ := deliveryTarget_mail ht
  rw [ht] at h
  rcases target with e | place
  · cases h
    exact ⟨fun _ _ => hm, fun _ h => by cases h⟩
  split_ifs at h
  · cases h
    refine ⟨fun _ h => (by cases h), fun other ho => ?_⟩
    cases ho
    exact ⟨by rw [hm], hl place rfl⟩
  all_goals
    cases h
    exact ⟨fun _ _ => hm, fun _ h => by cases h⟩

lemma plainName_folder (h : validateFolderName folder = true) : PlainName (ascii "." ++ folder) := by
  simp only [validateFolderName, decide_eq_true_eq, all_eq_true] at h
  obtain ⟨hne, -, -, -, hch⟩ := h
  obtain ⟨b, rest, rfl⟩ := exists_cons_of_ne_nil hne
  have hca : ∀ c ∈ b :: rest, c ≠ slash ∧ c ≠ dot := by
    intro c hc
    have hv := hch c hc
    constructor
    · rintro rfl
      exact absurd hv (by decide)
    · rintro rfl
      exact absurd hv (by decide)
  refine ⟨by simp [ascii], ?_, by simp [ascii], ?_⟩
  · rintro hm
    obtain hm | hm := mem_append.mp hm
    · exact absurd hm (by decide)
    · exact (hca slash hm).1 rfl
  · intro heq
    have hb := (cons_eq_cons.mp (cons_eq_cons.mp heq).2).1
    exact (hca b mem_cons_self).2 hb

lemma folderDirectory_ne (h : folderDirectory st mailbox folder = some dir) : mailboxPath st mailbox ≠ some dir := by
  intro hb
  unfold folderDirectory at h
  split_ifs at h with hv
  rw [hb] at h
  dsimp only at h
  split_ifs at h
  have hp := plainName_folder hv
  have hd : dir ≠ [] := by
    rw [← Option.some.inj h]
    exact cleanPath_ne_nil _
  have hpa := congrArg components (Option.some.inj h)
  rw [cleanPath, (components_normal _).components_renderPath, components_joinPath_names hd,
    split_of_notMem hp.noSlash] at hpa
  · simp [hp.ne_nil] at hpa
  · rw [split_of_notMem hp.noSlash]
    intro part hpr
    exact .inr (mem_singleton.mp hpr ▸ hp)

lemma Lies.folder_eq {place place' : Bytes × Bytes} (h : Lies st recipient place) (h' : Lies st recipient place')
    (hd : place.1 = place'.1) : place = place' := by
  refine Prod.ext hd ?_
  obtain ⟨hf, hp⟩ | ⟨hf, hp⟩ := h
  · obtain ⟨hfo, -⟩ | ⟨-, hpa⟩ := h'
    · rw [hf, hfo]
    · exact absurd (hd ▸ hp) (folderDirectory_ne hpa)
  · obtain ⟨-, hpa⟩ | ⟨hfo, -⟩ := h'
    · exact absurd (hd ▸ hpa) (folderDirectory_ne hp)
    · rw [hf, hfo]

end Place

section Loop

variable (st : StoreConfig) (requested : Bool) (data : Bytes)

def note (folders : Bytes → Option Bytes) (r : Bytes × Bytes × Bytes) : Bytes → Option Bytes :=
  Function.update folders (parseRecipient r.1).address (some r.2.2)

lemma foldl_next (recipients : List (Bytes × Luck)) (t : Tally) :
    (recipients.foldl (Tally.next st requested data) t).shelves.mail =
        t.shelves.mail ++ (received st data t.shelves recipients).map (fun r => (r.2.1, data)) ∧
      (recipients.foldl (Tally.next st requested data) t).delivered =
        t.delivered + (received st data t.shelves recipients).length ∧
      (recipients.foldl (Tally.next st requested data) t).folders =
        (if requested then (received st data t.shelves recipients).foldl note t.folders else t.folders) := by
  induction recipients generalizing t with
  | nil => simp [received, outcomes]
  | cons entry rest ih =>
    obtain ⟨recipient, luck⟩ := entry
    rcases hs : deliverTo st data t.shelves recipient luck with ⟨s, answer⟩
    obtain ⟨he, hok⟩ := deliverTo_mail hs
    rcases answer with e | place
    · have hn : t.next st requested data (recipient, luck) = { t with shelves := s, lastErr := some e } := by
        rw [Tally.next, hs]
      have hr : received st data t.shelves ((recipient, luck) :: rest) = received st data s rest := by
        simp [received, outcomes, hs, Except.toOption]
      obtain ⟨hm, hd, hf⟩ := ih (t.next st requested data (recipient, luck))
      rw [foldl_cons, hm, hd, hf, hn, hr, ← he e rfl]
      exact ⟨rfl, rfl, rfl⟩
    · have hn : t.next st requested data (recipient, luck) = { t with
          shelves := s
          delivered := t.delivered + 1
          folders := if requested then note t.folders (recipient, place) else t.folders } := by
        rw [Tally.next, hs]
        rfl
      have hr : received st data t.shelves ((recipient, luck) :: rest) =
          (recipient, place) :: received st data s rest := by
        simp [received, outcomes, hs, Except.toOption]
      obtain ⟨hm, hd, hf⟩ := ih (t.next st requested data (recipient, luck))
      rw [foldl_cons, hm, hd, hf, hn, hr]
      refine ⟨?_, ?_, ?_⟩
      · rw [(hok place rfl).1]
        simp
      · simp only [length_cons]
        omega
      · cases requested with
        | false | true => rfl

lemma outcomes_lies (recipients : List (Bytes × Luck)) (s : Shelves) :
    (outcomes st data s recipients).map Prod.fst = recipients.map Prod.fst ∧
      ∀ o ∈ outcomes st data s recipients, ∀ place, o.2 = .ok place → Lies st o.1 place := by
  induction recipients generalizing s with
  | nil => exact ⟨rfl, fun _ h => by cases h⟩
  | cons entry rest ih =>
    obtain ⟨recipient, luck⟩ := entry
    obtain ⟨hf, hl⟩ := ih (deliverTo st data s recipient luck).1
    refine ⟨by simp only [outcomes, map_cons, hf], ?_⟩
    intro o ho place hp
    obtain rfl | ho := mem_cons.mp ho
    · exact ((deliverTo_mail rfl).2 place hp).2
    · exact hl o ho place hp

variable {r : Bytes × Bytes × Bytes}

lemma foldl_note (l : List (Bytes × Bytes × Bytes)) (folders : Bytes → Option Bytes)
    (hr : r ∈ l) : ∃ r' ∈ l, (parseRecipient r'.1).address = (parseRecipient r.1).address ∧
      l.foldl note folders (parseRecipient r.1).address = some r'.2.2 := by
  induction l using List.reverseRecOn with
  | nil => cases hr
  | append_singleton l x ih =>
    rw [foldl_concat, note]
    by_cases hx : (parseRecipient x.1).address = (parseRecipient r.1).address
    · exact ⟨x, by simp, hx, by rw [hx, Function.update_self]⟩
    have hm : r ∈ l := by
      obtain hm | hm := mem_append.mp hr
      · exact hm
      · exact absurd (by rw [mem_singleton.mp hm]) hx
    obtain ⟨r', hr', ha, hf⟩ := ih hm
    refine ⟨r', mem_append_left _ hr', ha, ?_⟩
    rw [Function.update_of_ne (Ne.symm hx), hf]

lemma noted_iff (l : List (Bytes × Bytes × Bytes)) (folders : Bytes → Option Bytes) :
    (∀ r ∈ l, l.foldl note folders (parseRecipient r.1).address = some r.2.2) ↔
      ∀ r ∈ l, ∀ r' ∈ l, (parseRecipient r.1).address = (parseRecipient r'.1).address → r.2.2 = r'.2.2 := by
  constructor
  · intro h r hr r' hr' ha
    have heq := h r hr
    rw [ha, h r' hr'] at heq
    exact (Option.some.inj heq).symm
  · intro h r hr
    obtain ⟨r', hr', ha, hf⟩ := foldl_note l folders hr
    rw [hf, h r' hr' r hr ha]

lemma next_counts (t : Tally) (entry : Bytes × Luck) :
    (t.next st requested data entry).delivered ≠ 0 ∨ (t.next st requested data entry).lastErr ≠ none := by
  rw [Tally.next]
  obtain ⟨s, answer⟩ := deliverTo st data t.shelves entry.1 entry.2
  rcases answer with e | place
  · exact .inr (by simp)
  · exact .inl (by simp)

variable {recipients : List (Bytes × Luck)}

lemma foldl_counts (h : recipients ≠ []) (t : Tally) :
    (recipients.foldl (Tally.next st requested data) t).delivered ≠ 0 ∨
      (recipients.foldl (Tally.next st requested data) t).lastErr ≠ none := by
  rw [← dropLast_append_getLast h, foldl_concat]
  exact next_counts _ _ _ _ _

variable {st requested data}

lemma received_fst (h : ∀ o ∈ outcomes st data s recipients, o.2.isOk = true) :
    (received st data s recipients).map Prod.fst = recipients.map Prod.fst := by
  rw [← (outcomes_lies st data recipients s).1, received, map_filterMap,
    filterMap_eq_map_iff_forall_eq_some]
  intro o ho
  have hok := h o ho
  rcases ha : o.2 with e | place
  · rw [ha] at hok
    cases hok
  · rfl

lemma received_lies (h : r ∈ received st data s recipients) : Lies st r.1 r.2 := by
  obtain ⟨o, ho, hr⟩ := mem_filterMap.mp h
  obtain ⟨place, hp, rfl⟩ := Option.map_eq_some_iff.mp hr
  refine (outcomes_lies st data recipients s).2 o ho place ?_
  rcases ha : o.2 with e | place'
  · rw [ha] at hp
    cases hp
  · rw [ha] at hp
    cases hp
    rfl

lemma received_length_iff (recipients : List (Bytes × Luck)) (s : Shelves) :
    (received st data s recipients).length = recipients.length ↔
      ∀ o ∈ outcomes st data s recipients, o.2.isOk = true := by
  have hl : (outcomes st data s recipients).length = recipients.length := by
    simpa using congrArg List.length (outcomes_lies st data recipients s).1
  rw [← hl, received, filterMap_length_eq_length]
  refine forall₂_congr fun o _ => ?_
  cases o.2 with
  | error e | ok place => simp [Except.toOption, Except.isOk, Except.toBool]

lemma places_unique {recipients : List Bytes} {places places' : List (Bytes × Bytes)}
    (h : List.Forall₂ (Lies st) recipients places) (h' : List.Forall₂ (Lies st) recipients places')
    (hm : places.map (fun place => (place.1, data)) = places'.map (fun place => (place.1, data))) :
    places = places' := by
  induction h generalizing places' with
  | nil =>
    cases h'
    rfl
  | cons hl _ ih =>
    obtain - | ⟨hli, hr⟩ := h'
    obtain ⟨hh, ht⟩ := cons_eq_cons.mp hm
    rw [hl.folder_eq hli (Prod.mk.inj hh).1, ih hr ht]

lemma accounted_iff {folders : Bytes → Option Bytes}
    (hm : t.mail = s.mail ++ (received st data s recipients).map (fun r => (r.2.1, data))) :
    Accounted st requested s (recipients.map Prod.fst) data t folders ↔
      (∀ o ∈ outcomes st data s recipients, o.2.isOk = true) ∧
        (requested = true → ∀ r ∈ received st data s recipients,
          folders (parseRecipient r.1).address = some r.2.2) := by
  have hl : List.Forall₂ (Lies st) ((received st data s recipients).map Prod.fst)
      ((received st data s recipients).map Prod.snd) := by
    rw [forall₂_map_left_iff, forall₂_map_right_iff, forall₂_same]
    exact fun r hr => received_lies hr
  have hd : ((received st data s recipients).map Prod.snd).map (fun place => (place.1, data)) =
      (received st data s recipients).map (fun r => (r.2.1, data)) := by
    rw [map_map, Function.comp_def]
  constructor
  · rintro ⟨places, hp, hma, hf⟩
    have hs := append_cancel_left (hm.symm.trans hma)
    have hle := (congrArg List.length hs).trans (length_map _)
    rw [length_map, ← hp.length_eq, length_map] at hle
    have ha := (received_length_iff recipients s).mp hle
    refine ⟨ha, fun hre r hr => hf hre r ?_⟩
    rw [← received_fst ha] at hp ⊢
    rw [places_unique hp hl (hs.symm.trans hd.symm), ← zip_of_prod rfl rfl]
    exact hr
  · rintro ⟨ha, hf⟩
    refine ⟨(received st data s recipients).map Prod.snd, ?_, ?_, ?_⟩
    · rw [← received_fst ha]
      exact hl
    · rw [hd, hm]
    · intro hre r hr
      rw [← received_fst ha, ← zip_of_prod rfl rfl] at hr
      exact hf hre r hr

lemma deliverAll_succeeds_iff (s : Shelves) (recipients : List (Bytes × Luck)) :
    (deliverAll st requested s recipients (some data)).2.2 = none ↔ received st data s recipients ≠ [] := by
  by_cases hn : recipients = []
  · subst hn
    simp [deliverAll, received, outcomes]
  obtain ⟨-, hd, -⟩ := foldl_next st requested data recipients ⟨s, 0, none, fun _ => none⟩
  simp only [deliverAll, if_neg hn]
  rw [Nat.zero_add] at hd
  by_cases hz : (received st data s recipients).length = 0
  · rw [if_pos (hd.trans hz)]
    obtain hc | hc := foldl_counts st requested data hn ⟨s, 0, none, fun _ => none⟩
    · exact absurd (hd.trans hz) hc
    · exact iff_of_false hc (not_not_intro (length_eq_zero_iff.mp hz))
  · rw [if_neg (hd ▸ hz)]
    exact iff_of_true rfl fun h => hz (length_eq_zero_iff.mpr h)

lemma accounted_deliverAll_iff (s : Shelves) (recipients : List (Bytes × Luck)) :
    Accounted st requested s (recipients.map Prod.fst) data (deliverAll st requested s recipients (some data)).1
        (deliverAll st requested s recipients (some data)).2.1 ↔
      (∀ o ∈ outcomes st data s recipients, o.2.isOk = true) ∧
        (requested = true → ∀ r ∈ received st data s recipients, ∀ r' ∈ received st data s recipients,
          (parseRecipient r.1).address = (parseRecipient r'.1).address → r.2.2 = r'.2.2) := by
  by_cases hn : recipients = []
  · subst hn
    rw [accounted_iff (by simp [deliverAll, received, outcomes])]
    simp [received, outcomes]
  obtain ⟨hm, -, hf⟩ := foldl_next st requested data recipients ⟨s, 0, none, fun _ => none⟩
  simp only [deliverAll, if_neg hn]
  rw [accounted_iff hm, hf]
  refine and_congr_right fun _ => forall_congr' fun hr => ?_
  rw [if_pos hr]
  exact noted_iff _ _

end Loop

section Turns

variable {st : StoreConfig} {requested : Bool} {data recipient : Bytes} {luck : Luck}
  {answer : Except DeliverError (Bytes × Bytes)}

lemma folderIfExists_turn (st : StoreConfig) (s : Shelves) (recipient : Bytes) (luck : Luck) :
    (if (parseRecipient recipient).extension ≠ [] then
        folderIfExists st s luck (parseRecipient recipient).address (parseRecipient recipient).extension
      else none).isSome =
      Turn.toFolder st ⟨s.dirs, recipient, luck⟩ := by
  unfold Turn.toFolder Turn.extension Turn.address folderIfExists
  by_cases he : (parseRecipient recipient).extension = []
  · simp [he]
  rcases folderDirectory st (parseRecipient recipient).address (parseRecipient recipient).extension with _ | path
  · simp
  · by_cases hl : luck.statFolder = true ∧ path ∈ s.dirs <;> simp [he, hl]

lemma deliveryTarget_turn (h : deliveryTarget st s luck (parseRecipient recipient) = (t, answer)) :
    t.dirs = Turn.dirsAfter st ⟨s.dirs, recipient, luck⟩ ∧
      answer.toOption.map Prod.snd = if Turn.homeless st ⟨s.dirs, recipient, luck⟩ then none
        else some (Turn.folder st ⟨s.dirs, recipient, luck⟩) := by
  have hf := folderIfExists_turn st s recipient luck
  unfold deliveryTarget at h
  unfold Turn.dirsAfter Turn.homeless Turn.folder
  rcases hd : (if (parseRecipient recipient).extension ≠ [] then
      folderIfExists st s luck (parseRecipient recipient).address (parseRecipient recipient).extension
    else none) with _ | dir
  · rw [hd] at h hf
    rw [← hf]
    unfold ensureMailbox at h
    unfold Turn.needsInit Turn.address
    rcases hm : mailboxPath st (parseRecipient recipient).address with _ | path
    · rw [hm] at h
      cases h
      simp [Except.toOption]
    rw [hm] at h
    by_cases hn : luck.statInbox = true ∧ path ∉ s.dirs
    · by_cases hi : luck.init = true <;> simp [hn, hi] at h <;> obtain ⟨rfl, rfl⟩ := h <;>
        simp [hn, hi, Except.toOption]
    · simp only [if_neg hn] at h
      cases h
      simp_all [Except.toOption]
  · rw [hd] at h hf
    cases h
    rw [← hf]
    simp [Except.toOption, Turn.extension]

lemma deliverTo_turn (h : deliverTo st data s recipient luck = (t, answer)) :
    t.dirs = Turn.dirsAfter st ⟨s.dirs, recipient, luck⟩ ∧
      answer.toOption.map Prod.snd = if Turn.fails st ⟨s.dirs, recipient, luck⟩ then none
        else some (Turn.folder st ⟨s.dirs, recipient, luck⟩) := by
  unfold deliverTo at h
  rcases ht : deliveryTarget st s luck (parseRecipient recipient) with ⟨u, target⟩
  obtain ⟨hd, hp⟩ := deliveryTarget_turn ht
  rw [ht] at h
  unfold Turn.fails
  rcases target with e | place
  · cases h
    refine ⟨hd, ?_⟩
    simp_all [Except.toOption]
  split_ifs at h
  all_goals
    cases h
    refine ⟨hd, ?_⟩
    simp_all [Except.toOption]

-- The copies and their folders, read off the recipients and the directories they find.
lemma received_turns (st : StoreConfig) (data : Bytes) (recipients : List (Bytes × Luck)) (s : Shelves) :
    (received st data s recipients).map (fun r => (r.1, r.2.2)) =
      ((turns st s.dirs recipients).filter (!Turn.fails st ·)).map fun turn => (turn.recipient, turn.folder st) := by
  induction recipients generalizing s with
  | nil => rfl
  | cons entry rest ih =>
    obtain ⟨recipient, luck⟩ := entry
    rcases h : deliverTo st data s recipient luck with ⟨t, answer⟩
    obtain ⟨hd, hp⟩ := deliverTo_turn h
    have ih := ih t
    rw [hd] at ih
    simp only [received, outcomes, h, turns] at ih ⊢
    by_cases hf : Turn.fails st ⟨s.dirs, recipient, luck⟩ = true
    · rw [if_pos hf] at hp
      rw [filterMap_cons_none (by simpa using hp), filter_cons_of_neg (by simpa using hf), ih]
    · rw [if_neg hf] at hp
      obtain ⟨place, ha, hp⟩ := Option.map_eq_some_iff.mp hp
      rw [filterMap_cons_some (by rw [ha]; rfl), filter_cons_of_pos (by simpa using hf), map_cons, map_cons, ih, hp]

lemma length_turns (st : StoreConfig) (recipients : List (Bytes × Luck)) (dirs : List Bytes) :
    (turns st dirs recipients).length = recipients.length := by
  induction recipients generalizing dirs with
  | nil => rfl
  | cons entry rest ih => rw [turns, length_cons, length_cons, ih]

variable {recipients : List (Bytes × Luck)}

lemma received_eq_nil_iff :
    received st data s recipients = [] ↔ ∀ turn ∈ turns st s.dirs recipients, turn.fails st = true := by
  rw [← map_eq_nil_iff, received_turns, map_eq_nil_iff, filter_eq_nil_iff]
  simp

lemma outcomes_ok_iff : (∀ o ∈ outcomes st data s recipients, o.2.isOk = true) ↔
    ∀ turn ∈ turns st s.dirs recipients, turn.fails st = false := by
  have hl := congrArg List.length (received_turns st data recipients s)
  rw [length_map, length_map] at hl
  rw [← received_length_iff, hl, ← length_turns st recipients s.dirs, length_filter_eq_length_iff]
  simp

lemma received_folders_iff (h : ∀ turn ∈ turns st s.dirs recipients, turn.fails st = false) :
    (∀ r ∈ received st data s recipients, ∀ r' ∈ received st data s recipients,
        (parseRecipient r.1).address = (parseRecipient r'.1).address → r.2.2 = r'.2.2) ↔
      ∀ turn ∈ turns st s.dirs recipients, ∀ turn' ∈ turns st s.dirs recipients,
        turn.address = turn'.address → turn.folder st = turn'.folder st := by
  have hr := received_turns st data recipients s
  rw [filter_eq_self.mpr fun turn ht => by rw [h turn ht]; rfl] at hr
  have hagree := congrArg (fun l : List (Bytes × Bytes) => ∀ p ∈ l, ∀ q ∈ l,
    (parseRecipient p.1).address = (parseRecipient q.1).address → p.2 = q.2) hr
  simpa only [forall_mem_map, Turn.address] using Iff.of_eq hagree

end Turns

-- Deliver reports success as soon as one recipient has a copy.
theorem deliver_accounted_iff (st : StoreConfig) (requested : Bool) (s : Shelves) (recipients : List (Bytes × Luck))
    (message : Option Bytes) :
    ((deliverAll st requested s recipients message).2.2 = none → ∃ data, message = some data ∧
        Accounted st requested s (recipients.map Prod.fst) data (deliverAll st requested s recipients message).1
          (deliverAll st requested s recipients message).2.1) ↔
      message = none ∨ Evenly st requested (turns st s.dirs recipients) := by
  rcases message with _ | data
  · by_cases hn : recipients = [] <;> simp [deliverAll, hn]
  rw [deliverAll_succeeds_iff, Ne, received_eq_nil_iff]
  simp only [Option.some.injEq, exists_eq_left', accounted_deliverAll_iff, outcomes_ok_iff, reduceCtorEq, false_or]
  rw [Evenly, ← or_iff_not_imp_left]
  refine or_congr_right (and_congr_right fun h => imp_congr_right fun _ => received_folders_iff h)

def srvMail (template : Bytes) : StoreConfig := ⟨ascii "maildir", ascii "/srv/mail", [], template⟩

def healthy : Luck := ⟨true, true, true, 0, true, true, true⟩

def twoUsers : List (Bytes × Luck) := [(ascii "a@x", { healthy with copy := false }), (ascii "b@x", healthy)]

def twoFolders : List (Bytes × Luck) := [(ascii "a+A@x", healthy), (ascii "a+B@x", healthy)]

def subfolders : Shelves := ⟨[ascii "/srv/mail/a/.A", ascii "/srv/mail/a/.B"], []⟩

lemma received_twoFolders : received (srvMail []) (ascii "hi") subfolders twoFolders =
    [(ascii "a+A@x", ascii "/srv/mail/a/.A", ascii "A"), (ascii "a+B@x", ascii "/srv/mail/a/.B", ascii "B")] := by
  decide +kernel

def oneOfTwo : Shelves × (Bytes → Option Bytes) × Option DeliverError :=
  deliverAll (srvMail []) true ⟨[], []⟩ twoUsers (some (ascii "hi"))

def bothFolders : Shelves × (Bytes → Option Bytes) × Option DeliverError :=
  deliverAll (srvMail []) true subfolders twoFolders (some (ascii "hi"))

theorem copies_unaccounted : (oneOfTwo.2.2 = none ∧ oneOfTwo.1.mail = [(ascii "/srv/mail/b", ascii "hi")] ∧
      ¬ Accounted (srvMail []) true ⟨[], []⟩ [ascii "a@x", ascii "b@x"] (ascii "hi") oneOfTwo.1 oneOfTwo.2.1) ∧
    bothFolders.2.2 = none ∧ bothFolders.2.1 (ascii "a@x") = some (ascii "B") ∧
      ¬ Accounted (srvMail []) true subfolders [ascii "a+A@x", ascii "a+B@x"] (ascii "hi") bothFolders.1
        bothFolders.2.1 := by
  refine ⟨⟨by decide +kernel, by decide +kernel, fun h => ?_⟩, by decide +kernel, by decide +kernel, fun h => ?_⟩
  · have ha := (accounted_deliverAll_iff ⟨[], []⟩ twoUsers).mp h
    exact absurd ha.1 (by decide +kernel)
  have ha := ((accounted_deliverAll_iff subfolders twoFolders).mp h).2 rfl
  rw [received_twoFolders] at ha
  exact absurd (ha _ mem_cons_self _ (mem_cons_of_mem _ mem_cons_self) (by decide +kernel))
    (by decide)

end Maildancer.Maildir
