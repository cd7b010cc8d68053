import Maildancer.MailRemote.Exchange

namespace Maildancer.MailRemote

open List Text

-- The error of a delivery tells how the transmission ended.
structure Tells (err : Option Err) (ending : Ending) : Prop where
  connection : err.any isConnectionError = true ↔ ending = .lost ∨ ending = .ambiguous
  ambiguous : err.any Err.isAmbiguous = true ↔ ending = .ambiguous
  permanent : err.any Err.isPermanent = true ↔ ∃ code, ending = .verdict code ∧ 500 ≤ code

lemma tells_command (message : Bytes) (f : Fault) :
    Tells (some (classifyError (.wrap message (.fault f)))) f.ending := by
  cases f with
  | reply code text =>
    by_cases hc : 500 ≤ code <;>
      constructor <;>
      simp [classifyError, Err.root, hc, Fault.ending, isConnectionError, Err.isAmbiguous, Err.isPermanent]
  | lost text | other text =>
    constructor <;>
      simp [classifyError, Err.root, Fault.ending, isConnectionError, Err.isAmbiguous, Err.isPermanent]

lemma deliver_tells (bodyPath : Bytes) (a : Answers) (env : Envelope) :
    Tells (deliver bodyPath a env) a.ending := by
  obtain ⟨opened, mail, rcpt, data, copy, close, reset⟩ := a
  unfold deliver Answers.ending
  rcases opened with _ | text
  · rcases mail with _ | f
    · cases rcpt with
      | some f => exact tells_command _ f
      | none =>
        cases data with
        | some f => exact tells_command _ f
        | none =>
          cases copy with
          | some f =>
            cases f <;> constructor <;>
              simp [Err.root, isConnectionError, Err.isAmbiguous, Err.isPermanent]
          | none =>
            cases close with
            | none => constructor <;> simp
            | some f =>
              cases f with
              | lost text =>
                constructor <;> simp [Err.root, isConnectionError, Err.isAmbiguous, Err.isPermanent]
              | reply code text => exact tells_command _ _
              | other text => exact tells_command _ _
    · exact tells_command _ f
  · constructor <;> simp [Err.root, isConnectionError, Err.isAmbiguous, Err.isPermanent]

lemma terminated_of_lost {a : Answers} (h : a.ending = .lost) : a.terminated = false := by
  obtain ⟨opened, mail, rcpt, data, copy, close, reset⟩ := a
  unfold Answers.ending at h
  unfold Answers.terminated
  rcases opened with _ | text
  · simp only at h
    rcases hc : (mail <|> rcpt <|> data) with _ | f
    · simp only [hc] at h
      cases copy with
      | none =>
        cases close with
        | none => cases h
        | some f => cases f <;> cases h
      | some f =>
        cases f with
        | lost text => simp [isConnectionError, Err.root]
        | reply code text | other text => cases h
    · simp
  · rfl

variable {results : Results} {path : Bytes} {P : Loop → Prop}

lemma keys_insert_new (h : path ∉ results.keys) (err : Option Err) :
    (results.insert path err).keys = path :: results.keys := by
  rw [AList.keys, AList.entries_insert_of_notMem (AList.mem_keys.not.mpr h)]
  rfl

section RecordAll

variable (err : Err)

lemma lookup_recordAll_other (envs : List Envelope) (results : Results)
    (h : path ∉ envs.map Envelope.path) : (recordAll err envs results).lookup path = results.lookup path := by
  induction envs generalizing results with
  | nil => rfl
  | cons env envs ih =>
    rw [map_cons, mem_cons, not_or] at h
    calc (recordAll err (env :: envs) results).lookup path
        = (results.insert env.path _).lookup path := ih _ h.2
      _ = results.lookup path := AList.lookup_insert_ne h.1

lemma lookup_recordAll (envs : List Envelope) (results : Results)
    (h : path ∈ envs.map Envelope.path) : (recordAll err envs results).lookup path = some (some err) := by
  induction envs generalizing results with
  | nil => cases h
  | cons env envs ih =>
    by_cases hr : path ∈ envs.map Envelope.path
    · exact ih _ hr
    obtain rfl := (mem_cons.mp h).resolve_right hr
    calc (recordAll err (env :: envs) results).lookup env.path
        = (results.insert env.path _).lookup env.path :=
          lookup_recordAll_other err envs _ hr
      _ = some _ := AList.lookup_insert results

lemma keys_recordAll {envs : List Envelope} (h : (results.keys ++ envs.map Envelope.path).Nodup) :
    (recordAll err envs results).keys.Perm (results.keys ++ envs.map Envelope.path) := by
  induction envs generalizing results with
  | nil => simp [recordAll]
  | cons env envs ih =>
    have hm : (results.keys ++ (env :: envs).map Envelope.path).Perm
        (env.path :: results.keys ++ envs.map Envelope.path) := perm_middle
    have hn : env.path ∉ results.keys := by
      intro hmem
      exact disjoint_of_nodup_append h hmem mem_cons_self
    have hk := keys_insert_new hn (some err)
    have hr := hm.nodup h
    rw [← hk] at hm hr
    exact (ih hr).trans hm.symm

end RecordAll

section Session

variable {bodyPath : Bytes} {s : Session} {conn : Nat} {maxTxn : Int}

lemma deliverAll_rule {P : List Envelope → Results → Outcome → Prop}
    (hnil : ∀ results, P [] results ⟨results, [], none, []⟩) (hl : ∀ env rest results,
      P (env :: rest) results ⟨recordAll (limitError maxTxn) (env :: rest) results, [], none, []⟩)
    (hlo : ∀ env rest results a err, a.ending = .lost → err.isPermanent = false →
      P (env :: rest) results ⟨results, env :: rest, some err, [⟨conn, env, a⟩]⟩)
    (hs : ∀ env rest results a err, a.ending ≠ .lost → err.isPermanent = false → P (env :: rest) results
        ⟨results.insert env.path (deliver bodyPath a env), rest, some err, [⟨conn, env, a⟩]⟩)
    (hn : ∀ env rest results a out, a.ending ≠ .lost →
      P rest (results.insert env.path (deliver bodyPath a env)) out →
      P (env :: rest) results { out with sent := ⟨conn, env, a⟩ :: out.sent })
    (i : Nat) (envs : List Envelope) (results : Results) :
    P envs results (deliverAll bodyPath s conn maxTxn i envs results) := by
  induction envs generalizing i results with
  | nil => exact hnil results
  | cons env rest ih =>
    have ht := deliver_tells bodyPath (s.answers i env) env
    have hte : ∀ err, deliver bodyPath (s.answers i env) env = some err →
        (s.answers i env).ending = .lost ∨ (s.answers i env).ending = .ambiguous →
        err.isPermanent = false := by
      intro err herr he
      rw [herr] at ht
      rw [Bool.eq_false_iff]
      intro hp
      obtain ⟨code, hc, -⟩ := ht.permanent.mp hp
      rw [hc] at he
      rcases he with hca | hca <;> cases hca
    unfold deliverAll
    by_cases hco : 0 < maxTxn ∧ maxTxn ≤ i
    · rw [if_pos hco]
      exact hl env rest results
    rw [if_neg hco]
    by_cases hcn : (deliver bodyPath (s.answers i env) env).any isConnectionError = true
    · rw [if_pos hcn]
      by_cases ha : (deliver bodyPath (s.answers i env) env).any Err.isAmbiguous = true
      · rw [if_pos ha]
        obtain ⟨err, herr, -⟩ := (Option.any_eq_true _ _).mp ha
        have he := ht.ambiguous.mp ha
        have hst := hs env rest results _ err (by rw [he]; decide)
          (hte err herr (Or.inr he))
        rw [herr] at hst ⊢
        exact hst
      · rw [if_neg ha]
        obtain ⟨err, herr, -⟩ := (Option.any_eq_true _ _).mp hcn
        have he := (ht.connection.mp hcn).resolve_right fun heq =>
          ha (ht.ambiguous.mpr heq)
        rw [herr]
        exact hlo env rest results _ err he (hte err herr (Or.inl he))
    · rw [if_neg hcn]
      have he : (s.answers i env).ending ≠ .lost := fun heq =>
        hcn (ht.connection.mpr (Or.inl heq))
      split
      · exact hs env rest results _ _ he rfl
      · exact hn env rest results _ _ he (ih _ _)

lemma keys_deliverAll (i : Nat) (envs : List Envelope) (results : Results)
    (h : (results.keys ++ envs.map Envelope.path).Nodup) :
    ((deliverAll bodyPath s conn maxTxn i envs results).results.keys ++
        (deliverAll bodyPath s conn maxTxn i envs results).retryable.map Envelope.path).Perm
      (results.keys ++ envs.map Envelope.path) := by
  have hr : ∀ (env : Envelope) (rest : List Envelope) (results : Results) (err : Option Err),
      (results.keys ++ (env :: rest).map Envelope.path).Nodup →
      ((results.insert env.path err).keys ++ rest.map Envelope.path).Perm
        (results.keys ++ (env :: rest).map Envelope.path) := by
    intro env rest results err hn
    have hnew : env.path ∉ results.keys := by
      intro hm
      exact disjoint_of_nodup_append hn hm mem_cons_self
    rw [keys_insert_new hnew]
    exact perm_middle.symm
  revert h
  apply @deliverAll_rule bodyPath s conn maxTxn (fun envs results out =>
    (results.keys ++ envs.map Envelope.path).Nodup →
      (out.results.keys ++ out.retryable.map Envelope.path).Perm _)
  · intro results _
    rfl
  · intro env rest results hn
    rw [map_nil, append_nil]
    exact keys_recordAll _ hn
  · intro env rest results a err _ _ _
    rfl
  · intro env rest results a err _ _ hn
    exact hr env rest results _ hn
  · intro env rest results a out _ ih hn
    have hp := hr env rest results (deliver bodyPath a env) hn
    exact (ih (hp.symm.nodup hn)).trans hp

lemma sent_deliverAll (i : Nat) (envs : List Envelope) (results : Results) :
    (deliverAll bodyPath s conn maxTxn i envs results).sent.map Transmission.env <+: envs ∧
      ∀ x ∈ (deliverAll bodyPath s conn maxTxn i envs results).sent, x.conn = conn := by
  apply @deliverAll_rule bodyPath s conn maxTxn (fun envs _ out =>
    out.sent.map Transmission.env <+: envs ∧ ∀ x ∈ out.sent, x.conn = conn)
  · intro results
    exact ⟨prefix_rfl, by simp⟩
  · intro env rest results
    exact ⟨ nil_prefix, by simp⟩
  · intro env rest results a err _ _
    exact ⟨prefix_append [env] rest, by simp⟩
  · intro env rest results a err _ _
    exact ⟨prefix_append [env] rest, by simp⟩
  intro env rest results a out _ ih
  refine ⟨(prefix_cons_inj env).mpr ih.1, fun x hx => ?_⟩
  rcases mem_cons.mp hx with rfl | hx
  · rfl
  · exact ih.2 x hx

lemma lookup_deliverAll (i : Nat) (envs : List Envelope) (results : Results) :
    (∀ path, path ∉ envs.map Envelope.path →
      (deliverAll bodyPath s conn maxTxn i envs results).results.lookup path = results.lookup path) ∧
    ((envs.map Envelope.path).Nodup → ∀ x ∈ (deliverAll bodyPath s conn maxTxn i envs results).sent,
      x.answers.ending ≠ .lost →
      (deliverAll bodyPath s conn maxTxn i envs results).results.lookup x.env.path =
        some (deliver bodyPath x.answers x.env)) := by
  apply @deliverAll_rule bodyPath s conn maxTxn (fun envs results out =>
    (∀ path, path ∉ envs.map Envelope.path → out.results.lookup path = results.lookup path) ∧
    ((envs.map Envelope.path).Nodup → ∀ x ∈ out.sent, x.answers.ending ≠ .lost →
      out.results.lookup x.env.path = some (deliver bodyPath x.answers x.env)))
  · intro results
    exact ⟨fun _ _ => rfl, fun _ x hx => by cases hx⟩
  · intro env rest results
    exact ⟨fun path hp => lookup_recordAll_other _ _ _ hp, fun _ x hx => by cases hx⟩
  · intro env rest results a err hl _
    refine ⟨fun _ _ => rfl, fun _ x hx he => ?_⟩
    obtain rfl := mem_singleton.mp hx
    exact absurd hl he
  · intro env rest results a err _ _
    refine ⟨fun path hp => AList.lookup_insert_ne (ne_of_not_mem_cons hp), fun _ x hx _ => ?_⟩
    obtain rfl := mem_singleton.mp hx
    exact AList.lookup_insert results
  · intro env rest results a out _ ih
    refine ⟨fun path hp => ?_, fun hn x hx he => ?_⟩
    · rw [ih.1 path (not_mem_of_not_mem_cons hp)]
      exact AList.lookup_insert_ne (ne_of_not_mem_cons hp)
    obtain ⟨hnew, hn⟩ := nodup_cons.mp hn
    rcases mem_cons.mp hx with rfl | hx
    · rw [ih.1 env.path hnew]
      exact AList.lookup_insert results
    · exact ih.2 hn x hx he

end Session

lemma tryHosts_rule {w : World} {req : Request} {dialer : Dialer} {bodySize : Nat}
    {hosts : List Host} {s : Loop} (hs : P s)
    (hk : ∀ s h, h ∈ hosts → s.tried.length < maxMXAttempts → P s → P (tryHost w req dialer bodySize s h)) :
    P (tryHosts w req dialer bodySize hosts s) := by
  induction hosts generalizing s with
  | nil => exact hs
  | cons h rest ih =>
    unfold tryHosts
    split_ifs with hd
    · exact hs
    rw [not_or] at hd
    apply ih
    · exact hk s h mem_cons_self (by omega) hs
    · exact fun s g hg => hk s g (mem_cons_of_mem _ hg)

lemma tryHost_cases {w : World} {req : Request} {dialer : Dialer} {bodySize : Nat} (s : Loop) (h : Host)
    (hf : ∀ err, dialer.dial (w.lines s.tried.length h.addr) h.addr = .error err →
      P { s with lastErr := some err, tried := s.tried ++ [⟨h, dialer, .failed⟩] })
    (ho : ∀ conn err, dialer.dial (w.lines s.tried.length h.addr) h.addr = .ok conn →
      checkSize conn.session bodySize = some err →
      P { s with lastErr := some err, tried := s.tried ++ [⟨h, dialer, .oversize⟩] })
    (hs : ∀ conn out, dialer.dial (w.lines s.tried.length h.addr) h.addr = .ok conn →
      checkSize conn.session bodySize = none →
      out = deliverAll req.bodyPath conn.session s.tried.length req.maxTxn 0 s.pending s.results →
      P { pending := out.retryable
          lastErr := if out.retryable = [] then s.lastErr else out.cause
          results := out.results
          tried := s.tried ++ [⟨h, dialer, .connected conn.channel⟩]
          sent := s.sent ++ out.sent }) :
    P (tryHost w req dialer bodySize s h) := by
  unfold tryHost
  split
  · next err hd => exact hf err hd
  next conn hd =>
    split
    · next err hsi => exact ho conn err hd hsi
    · next hsi => exact hs conn _ hd hsi rfl

-- A later transmission of an envelope is on a later connection, and the earlier
-- one was lost before the terminator.
def Retried (x y : Transmission) : Prop :=
  x.env.path = y.env.path → x.conn < y.conn ∧ x.answers.ending = .lost

-- Each envelope is pending or has its result, and none is offered again unless it was lost.
structure Loop.Inv (req : Request) (s : Loop) : Prop where
  keys : (s.results.keys ++ s.pending.map Envelope.path).Perm (req.envs.map Envelope.path)
  past : ∀ x ∈ s.sent, x.conn < s.tried.length
  once : s.sent.Pairwise Retried
  reported : ∀ x ∈ s.sent, x.answers.ending ≠ .lost →
    s.results.lookup x.env.path = some (deliver req.bodyPath x.answers x.env)
  attempts : s.tried.length ≤ maxMXAttempts

namespace Loop

variable {w : World} {req : Request} {dialer : Dialer} {bodySize : Nat} {s : Loop}

lemma inv_start : (start req.envs).Inv req := by
  refine ⟨List.Perm.refl _, fun x hx => ?_, List.Pairwise.nil, fun x hx => ?_, Nat.zero_le _⟩ <;> cases hx

lemma Inv.nodup (h : s.Inv req) (hp : (req.envs.map Envelope.path).Nodup) :
    (s.results.keys ++ s.pending.map Envelope.path).Nodup := h.keys.symm.nodup hp

lemma Inv.waiting (h : s.Inv req) (hp : (req.envs.map Envelope.path).Nodup) {x : Transmission}
    (hx : x ∈ s.sent) (hpe : x.env.path ∈ s.pending.map Envelope.path) : x.answers.ending = .lost := by
  by_contra he
  have hl := h.reported x hx he
  have hm := AList.lookup_isSome.mp (by rw [hl]; rfl)
  exact disjoint_of_nodup_append (h.nodup hp) (AList.mem_keys.mp hm) hpe

lemma Inv.skip (h : s.Inv req) (hm : s.tried.length < maxMXAttempts) (err : Option Err) (a : Attempt) :
    Inv req { s with lastErr := err, tried := s.tried ++ [a] } := by
  refine ⟨h.keys, fun x hx => ?_, h.once, h.reported, ?_⟩
  · have hlt := h.past x hx
    rw [length_append, length_singleton]
    omega
  · rw [length_append, length_singleton]
    omega

lemma Inv.tryHost (h : s.Inv req) (hp : (req.envs.map Envelope.path).Nodup)
    (hm : s.tried.length < maxMXAttempts) (host : Host) :
    Inv req (tryHost w req dialer bodySize s host) := by
  apply tryHost_cases
  · intro err _
    exact h.skip hm _ _
  · intro conn err _ _
    exact h.skip hm _ _
  intro conn out _ _ hout
  have hn := h.nodup hp
  have hpe := hn.of_append_right
  have hk := @keys_deliverAll req.bodyPath conn.session s.tried.length req.maxTxn 0 _ _ hn
  obtain ⟨ho, hc⟩ :=
    @sent_deliverAll req.bodyPath conn.session s.tried.length req.maxTxn 0 s.pending s.results
  obtain ⟨hot, hnew⟩ :=
    @lookup_deliverAll req.bodyPath conn.session s.tried.length req.maxTxn 0 s.pending s.results
  rw [← hout] at hk ho hc hot hnew
  have hd : out.sent.Pairwise fun x y => x.env.path ≠ y.env.path := by
    have hsub : (out.sent.map Transmission.env).map Envelope.path <+: s.pending.map Envelope.path :=
      ho.map _
    have hs := hsub.sublist.nodup hpe
    rw [map_map] at hs
    exact pairwise_map.mp hs
  refine ⟨hk.trans h.keys, fun x hx => ?_, pairwise_append.mpr ⟨h.once, ?_, ?_⟩, fun x hx he => ?_, ?_⟩
  · rw [length_append, length_singleton]
    rcases mem_append.mp hx with hx | hx
    · have hlt := h.past x hx
      omega
    · have heq := hc x hx
      omega
  · exact hd.imp fun hne heq => absurd heq hne
  · intro x hx y hy heq
    have hy' := ho.subset (mem_map_of_mem hy)
    refine ⟨?_, h.waiting hp hx ?_⟩
    · rw [hc y hy]
      exact h.past x hx
    · rw [heq]
      exact mem_map_of_mem hy'
  · rcases mem_append.mp hx with hx | hx
    · have hg : x.env.path ∉ s.pending.map Envelope.path := fun hmem =>
        he (h.waiting hp hx hmem)
      rw [← h.reported x hx he]
      exact hot x.env.path hg
    · exact hnew hpe x hx he
  · rw [length_append, length_singleton]
    omega

lemma Inv.tryHosts (hp : (req.envs.map Envelope.path).Nodup) (hosts : List Host) :
    Inv req (tryHosts w req dialer bodySize hosts (start req.envs)) :=
  tryHosts_rule inv_start fun _ host _ hm h => h.tryHost hp hm host

end Loop

lemma deliverViaMX_cases (c : CaseMap) (w : World) (req : Request) :
    (∃ err, lookup w.resolver w.sorting req.domain = .error err ∧
      deliverViaMX c w req = .failed (classifyMXError err) req.envs) ∨
    (∃ hosts err, lookup w.resolver w.sorting req.domain = .ok hosts ∧ err.isPermanent = false ∧
      (∀ selected bodySize, selectHosts c req hosts = .ok selected → w.body ≠ .ok bodySize) ∧
      deliverViaMX c w req = .failed err req.envs) ∨
    (∃ hosts selected dialer bodySize, lookup w.resolver w.sorting req.domain = .ok hosts ∧
      selectHosts c req hosts = .ok (selected, dialer) ∧ w.body = .ok bodySize ∧
      deliverViaMX c w req = (tryHosts w req dialer bodySize selected (.start req.envs)).finish req.domain) := by
  unfold deliverViaMX
  rcases hl : lookup w.resolver w.sorting req.domain with err | hosts
  · exact Or.inl ⟨err, rfl, rfl⟩
  rcases hs : selectHosts c req hosts with err | selected
  · refine Or.inr (Or.inl ⟨hosts, err, rfl, ?_, fun _ _ hok => (nomatch hs.symm.trans hok), ?_⟩)
    · unfold selectHosts at hs
      split at hs
      · dsimp only at hs
        split_ifs at hs
        obtain rfl := Except.error.inj hs
        rfl
      · cases hs
    · simp [hs]
  · cases hb : w.body with
    | error text =>
      refine Or.inr (Or.inl ⟨hosts, .wrap (ascii "stat body " ++ req.bodyPath) (.fault (.other text)), rfl,
        rfl, fun _ _ _ hok => ?_, ?_⟩)
      · cases hok
      · simp [hs]
    | ok bodySize =>
      refine Or.inr (Or.inr ⟨hosts, selected.1, selected.2, bodySize, rfl, hs, rfl, ?_⟩)
      simp [hs]

-- Every envelope gets one result, and that of a decided transmission is its own. It is offered again only on
-- a later connection and after it was lost before the terminator, without a verdict.
structure Run.Once (req : Request) (run : Run) : Prop where
  results : run.results.keys.Perm (req.envs.map Envelope.path)
  reported : ∀ x ∈ run.sent, x.answers.ending ≠ .lost →
    run.results.lookup x.env.path = some (deliver req.bodyPath x.answers x.env)
  offered : run.sent.Pairwise fun x y => x.env.path = y.env.path →
    x.conn < y.conn ∧ x.answers.terminated = false ∧ x.answers.ending = .lost
  dialled : run.tried.length ≤ maxMXAttempts

theorem deliverViaMX_once (c : CaseMap) (w : World) (req : Request)
    (hpaths : (req.envs.map Envelope.path).Nodup) : (deliverViaMX c w req).Once req := by
  rcases deliverViaMX_cases c w req with ⟨err, -, hr⟩ | ⟨hosts, err, -, -, -, hr⟩ |
    ⟨hosts, selected, dialer, bodySize, -, -, -, hr⟩
  · rw [hr]
    refine ⟨keys_recordAll _ hpaths, fun x hx => ?_, List.Pairwise.nil, Nat.zero_le _⟩
    cases hx
  · rw [hr]
    refine ⟨keys_recordAll _ hpaths, fun x hx => ?_, List.Pairwise.nil, Nat.zero_le _⟩
    cases hx
  rw [hr]
  have hi := @Loop.Inv.tryHosts w req dialer bodySize hpaths selected
  refine ⟨(keys_recordAll _ (hi.nodup hpaths)).trans hi.keys, fun x hx he => ?_, ?_, hi.attempts⟩
  · rw [← hi.reported x hx he]
    apply lookup_recordAll_other
    exact fun hm => he (hi.waiting hpaths hx hm)
  · refine hi.once.imp fun hre heq => ?_
    obtain ⟨hl, hlo⟩ := hre heq
    exact ⟨hl, terminated_of_lost hlo, hlo⟩

section Sample

def insertionByPref : PrefSort where
  sort := List.insertionSort fun a b => a.pref ≤ b.pref
  perm := List.perm_insertionSort _
  sorted := by
    exact fun mxs => List.pairwise_insertionSort _ mxs

def noFaults : Answers := ⟨none, none, none, none, none, none, none⟩

def lineTo (session : Session) : Line := ⟨none, fun _ => none, none, session⟩

def twoHosts : World where
  resolver := ⟨fun _ => .ok [⟨ascii "mx2.example.net.", 20⟩, ⟨ascii "mx1.example.net.", 10⟩],
    fun _ => .error (.notFound (ascii "no such host"))⟩
  sorting := insertionByPref
  body := .ok 100
  lines attempt _ _ := lineTo ⟨none, fun i _ =>
    if attempt = 0 ∧ i = 1 then { noFaults with rcpt := some (.lost (ascii "EOF")) } else noFaults⟩

def sampleEnvelope (name : String) : Envelope :=
  ⟨ascii "queue/" ++ ascii name, ascii "alice@example.com", ascii name ++ ascii "@example.net"⟩

def sampleRequest : Request where
  domain := ascii "example.net"
  bodyPath := ascii "queue/body"
  envs := [sampleEnvelope "bob", sampleEnvelope "carol"]
  maxTxn := 0
  policy := none

theorem deliverViaMX_once_failover :
    (deliverViaMX CaseMap.asciiOnly twoHosts sampleRequest).Once sampleRequest ∧
      (deliverViaMX CaseMap.asciiOnly twoHosts sampleRequest).sent.map (fun x => (x.conn, x.env.path)) =
        [(0, ascii "queue/bob"), (0, ascii "queue/carol"), (1, ascii "queue/carol")] :=
  ⟨deliverViaMX_once _ _ _ (by decide), by decide +kernel⟩

end Sample

end Maildancer.MailRemote
