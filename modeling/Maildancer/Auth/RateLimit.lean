import Maildancer.Auth.Router

namespace Maildancer.Auth

open Text

-- Times and durations are in nanoseconds.
structure RateLimitConfig where
  maxFailuresPerIPUser : Int
  maxFailuresPerIP : Int
  window : Int
  lockout : Int

structure LimitEntry where
  count : Nat
  expiresAt : Int
deriving DecidableEq

-- memLimitStore. An entry that has expired is as good as none: each look at it
-- takes it away, and each write takes away all of them.
abbrev LimitStore := Bytes → Option LimitEntry

namespace LimitStore

def empty : LimitStore := fun _ => none

def live (s : LimitStore) (now : Int) (key : Bytes) : Option LimitEntry := (s key).filter fun e => now < e.expiresAt

def prune (s : LimitStore) (now : Int) : LimitStore := fun key => s.live now key

def incr (s : LimitStore) (now : Int) (key : Bytes) (ttl : Int) : LimitStore × Nat :=
  match s.live now key with
  | some e => (Function.update (s.prune now) key (some { e with count := e.count + 1 }), e.count + 1)
  | none => (Function.update (s.prune now) key (some ⟨1, now + ttl⟩), 1)

def set (s : LimitStore) (now : Int) (key : Bytes) (ttl : Int) : LimitStore :=
  Function.update (s.prune now) key (some ⟨1, now + ttl⟩)

def del (s : LimitStore) (key : Bytes) : LimitStore := Function.update s key none

end LimitStore

def keyFailIPUser : Bytes := ascii "auth:fail:ipuser:"

def keyFailIP : Bytes := ascii "auth:fail:ip:"

def keyLockIPUser : Bytes := ascii "auth:lock:ipuser:"

def keyLockIP : Bytes := ascii "auth:lock:ip:"

def ipUserKey (ip username : Bytes) : Bytes := ip ++ 0 :: username

def isLimited (s : LimitStore) (now : Int) (ip username : Bytes) : Bool :=
  ip ≠ [] ∧
    ((username ≠ [] ∧ (s.live now (keyLockIPUser ++ ipUserKey ip username)).isSome) ∨
      (s.live now (keyLockIP ++ ip)).isSome)

def countFailure (cfg : RateLimitConfig) (s : LimitStore) (now : Int) (counterKey lockKey : Bytes)
    (maxFailures : Int) : LimitStore :=
  if maxFailures ≤ 0 then s
  else
    let (s, n) := s.incr now counterKey cfg.window
    if (n : Int) < maxFailures then s else s.set now lockKey cfg.lockout

def recordFailure (cfg : RateLimitConfig) (s : LimitStore) (now : Int) (ip username : Bytes) : LimitStore :=
  if ip = [] then s
  else
    let s :=
      if username = [] then s
      else countFailure cfg s now (keyFailIPUser ++ ipUserKey ip username)
        (keyLockIPUser ++ ipUserKey ip username) cfg.maxFailuresPerIPUser
    countFailure cfg s now (keyFailIP ++ ip) (keyLockIP ++ ip) cfg.maxFailuresPerIP

def recordSuccess (s : LimitStore) (ip username : Bytes) : LimitStore :=
  if ip = [] ∨ username = [] then s
  else (s.del (keyFailIPUser ++ ipUserKey ip username)).del (keyLockIPUser ++ ipUserKey ip username)

-- A call of AuthenticateWithDomain: when the limits are checked and when the
-- outcome of the password check is recorded, and what is hosted at the time.
structure LoginCall where
  username : Bytes
  hosting : Hosting
  checkedAt : Int
  recordedAt : Int
  succeeds : Bool

inductive LoginOutcome
  | limited
  | refused
  | accepted
deriving DecidableEq

def authenticateWithDomain (cfg : RateLimitConfig) (ip : Bytes) (s : LimitStore) (call : LoginCall) :
    LimitStore × LoginOutcome :=
  if isLimited s call.checkedAt ip call.username then (s, .limited)
  else if call.succeeds then (recordSuccess s ip call.username, .accepted)
  else (recordFailure cfg s call.recordedAt ip call.username, .refused)

end Maildancer.Auth
