import GatewayRuntime.Lib.GoTime
import GatewayRuntime.SessionStore

/-!
# The refresh locks

`Locker` is the interface `token.RefreshLocker` cut into its atomic steps.  A
`Lock` call first looks up or makes what it will wait for (`enter`, which gives
a handle), then takes the lock once that is possible (`acquire`); the function
that `Lock` returns is `release`.  `expire` is the end of a lock that has a time
to live.

* `memoryLocker` is `internal/token/lock.go`: a map from keys to channels of
  capacity one, made once per key with one element in it.  A handle is a channel;
  taking the lock receives the element and releasing sends it back.
* `redisLocker` is `internal/store/redis/refresh_lock.go`: `SET NX` with a time
  to live, and a deletion that checks the owner.  A handle is the random value of
  the call; the values of different calls are taken to be different.  A call may
  try at any time: the timer that `Lock` waits for after a failed attempt only
  makes it try less often, and is put in by `RefreshPolling`.
-/

namespace GatewayRuntime
namespace Token

/-- A refresh lock.  `acquire` and `release` are `none` while they would block,
`expire` while no lock has outlived its time. -/
structure Locker where
  State : Type
  enter : State → (key : String) → (caller : Nat) → State × Nat
  acquire : State → (now : Int) → (ttl : Duration) → (key : String) → (handle : Nat) →
    Option State
  release : State → (key : String) → (handle : Nat) → Option State
  expire : State → (now : Int) → (key : String) → Option State

section Memory

/-- A `MemoryLocker`: the channel of each key, and whether a channel holds its
element. -/
structure MemoryLocks where
  locks : Table String Nat
  filled : Nat → Bool
  next : Nat
  allocated : ∀ {key h}, locks.find key = some h → h < next

namespace MemoryLocks

/-- `NewMemoryLocker`. -/
def empty : MemoryLocks where
  locks := Table.empty
  filled _ := false
  next := 0
  allocated h := by cases h

/-- Make the channel of a key. -/
def create (s : MemoryLocks) (key : String) : MemoryLocks where
  locks := s.locks.set key s.next
  filled := Function.update s.filled s.next true
  next := s.next + 1
  allocated h := by
    rcases Table.find_set_cases h with ⟨-, rfl⟩ | ⟨-, hold⟩
    · omega
    · have := s.allocated hold
      omega

/-- The first part of `Lock`: the channel of the key. -/
def enter (s : MemoryLocks) (key : String) : MemoryLocks × Nat :=
  match s.locks.find key with
  | some h => (s, h)
  | none => (s.create key, s.next)

/-- Receive from a channel, or send to it. -/
def setFilled (s : MemoryLocks) (h : Nat) (b : Bool) : MemoryLocks where
  locks := s.locks
  filled := Function.update s.filled h b
  next := s.next
  allocated := s.allocated

theorem find_enter (s : MemoryLocks) (key : String) :
    (s.enter key).1.locks.find key = some (s.enter key).2 := by
  unfold enter
  cases hfind : s.locks.find key with
  | none =>
      simp [create]
  | some h =>
      exact hfind

/-- Entering changes nothing once the channel of the key exists. -/
theorem enter_of_find
    {s : MemoryLocks} {key : String} {h : Nat} (hfind : s.locks.find key = some h) :
    s.enter key = (s, h) := by
  simp [enter, hfind]

end MemoryLocks

/-- `token.MemoryLocker`; its locks do not expire. -/
def memoryLocker : Locker where
  State := MemoryLocks
  enter s key _ := s.enter key
  acquire s _ _ _ h := if s.filled h then some (s.setFilled h false) else none
  release s _ h := if s.filled h then none else some (s.setFilled h true)
  expire _ _ _ := none

end Memory

section Redis

/-- A lock key: the value of its owner and the end of its time to live. -/
structure RedisLock where
  owner : Nat
  deadline : Int
deriving DecidableEq

/-- `redisstore.RefreshLocker`. -/
def redisLocker : Locker where
  State := Table String RedisLock
  enter s _ caller := (s, caller)
  acquire s now ttl key h :=
    if s.has key then none
    else
      let ttl := if ttl ≤ 0 then 10 * Duration.second else ttl
      some (s.set key ⟨h, now + redisExpiry ttl⟩)
  release s key h :=
    match s.find key with
    | none => some s
    | some lock => if lock.owner = h then some (s.erase key) else some s
  expire s now key :=
    match s.find key with
    | none => none
    | some lock => if lock.deadline ≤ now then some (s.erase key) else none

/-- `SET NX` writes the key when it is absent, and nothing otherwise. -/
theorem redisLocker_acquire_cases
    (s : Table String RedisLock) (now : Int) (ttl : Duration) (key : String) (h : Nat) :
    (s.has key = true ∧ redisLocker.acquire s now ttl key h = none) ∨
      (s.find key = none ∧ ∃ d, redisLocker.acquire s now ttl key h = some (s.set key ⟨h, d⟩)) := by
  cases hhas : s.has key with
  | true =>
      exact Or.inl ⟨rfl, by simp [redisLocker, hhas]⟩
  | false =>
      right
      refine
        ⟨by simpa [Table.has] using hhas,
          now + redisExpiry (if ttl ≤ 0 then 10 * Duration.second else ttl), ?_⟩
      simp [redisLocker, hhas]

/-- The script deletes the key when it holds the given value, and nothing
otherwise. -/
theorem redisLocker_release_cases
    (s : Table String RedisLock) (key : String) (h : Nat) :
    (redisLocker.release s key h = some s ∧ ∀ d, s.find key ≠ some ⟨h, d⟩) ∨
      ∃ d, s.find key = some ⟨h, d⟩ ∧ redisLocker.release s key h = some (s.erase key) := by
  cases hfind : s.find key with
  | none =>
      exact Or.inl ⟨by simp [redisLocker, hfind], by simp⟩
  | some lock =>
      by_cases howner : lock.owner = h
      · subst howner
        exact Or.inr ⟨lock.deadline, rfl, by simp [redisLocker, hfind]⟩
      · refine Or.inl ⟨by simp [redisLocker, hfind, howner], ?_⟩
        rintro d hlock
        exact howner (congrArg RedisLock.owner (Option.some.inj hlock))

end Redis

end Token
end GatewayRuntime
