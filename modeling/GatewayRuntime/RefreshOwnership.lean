import GatewayRuntime.Lib.Run
import GatewayRuntime.RefreshLock

/-!
# Ownership of the Redis refresh lock

`RefreshLocker.Lock` of `internal/store/redis/refresh_lock.go`, called by any
number of clients on any keys.  A call draws a random value, tries `SET NX` until
it succeeds, and returns a function that runs the script of the ownership-checked
delete; that function may be called more than once.  A command may get lost
before it reaches Redis, and its reply afterwards.  A lock key may expire at any
moment.

`UnlocksOwn` says what a late unlock can do: it removes a key only while the key
holds what the `SET NX` of the same call wrote.  `Exclusive` is mutual exclusion,
which holds in the runs in which no key expires under its holder.
-/

namespace GatewayRuntime
namespace RefreshLocker

open Token

section Model

/-- `redisstore.Client`: the prefix of its keys. -/
structure Client where
  keyPrefix : String

/-- `Client.key`. -/
def Client.key (c : Client) (parts : List String) : String :=
  ":".intercalate (c.keyPrefix :: parts)

/-- A call of `Lock`: its client, its arguments and the value that it draws, the
sixteen random bytes read as a number. -/
structure LockCall where
  client : Client
  key : String
  ttl : Duration
  value : Nat

/-- The key of a call in Redis. -/
def LockCall.redisKey (c : LockCall) : String :=
  c.client.key ["lock", c.key]

/-- Where a call stands.  `held` is the time between the return of `Lock` with
its unlock function and the first call of that function. -/
inductive Pc where
  | idle
  | waiting
  | failed
  | held
  | unlocked
deriving DecidableEq

/-- What happens to a command on its way. -/
inductive Fate where
  | answered
  | lostRequest
  | lostReply
deriving DecidableEq

inductive Event where
  | lock (i : Nat) (drawn : Bool)
  | attempt (i : Nat) (fate : Fate)
  | giveUp (i : Nat)
  | unlock (i : Nat) (fate : Fate)
  | expire (redisKey : String)
  | tick (t : Int)
deriving DecidableEq

/-- The clock of Redis, its lock keys, and the calls. -/
structure World where
  now : Int
  locks : Table String RedisLock
  calls : Nat → Pc

/-- Move call `i`. -/
def World.goto (w : World) (i : Nat) (pc : Pc) : World :=
  { w with calls := Function.update w.calls i pc }

/-- No lock is taken and no call has begun. -/
def World.start (now : Int) : World :=
  ⟨now, Table.empty, fun _ => .idle⟩

variable (calls : Nat → LockCall)

/-- One `SET NX` of call `i`, with its effect on Redis and the place where the
loop goes on. -/
def attempt (w : World) (i : Nat) : Fate → World
  | .lostRequest => w.goto i .failed
  | .answered =>
      match redisLocker.acquire w.locks w.now (calls i).ttl (calls i).redisKey (calls i).value with
      | none => w
      | some locks => { w with locks := locks }.goto i .held
  | .lostReply =>
      match redisLocker.acquire w.locks w.now (calls i).ttl (calls i).redisKey (calls i).value with
      | none => w.goto i .failed
      | some locks => { w with locks := locks }.goto i .failed

/-- One call of the function that `Lock` returned. -/
def unlock (w : World) (i : Nat) (fate : Fate) : Option World :=
  if fate = .lostRequest then some (w.goto i .unlocked)
  else
    (redisLocker.release w.locks (calls i).redisKey (calls i).value).map fun locks =>
      { w with locks := locks }.goto i .unlocked

/-- One event. -/
def step (w : World) : Event → Option World
  | .lock i drawn =>
      match w.calls i with
      | .idle => some (w.goto i (if drawn then .waiting else .failed))
      | _ => none
  | .attempt i fate =>
      match w.calls i with
      | .waiting => some (attempt calls w i fate)
      | _ => none
  | .giveUp i =>
      match w.calls i with
      | .waiting => some (w.goto i .failed)
      | _ => none
  | .unlock i fate =>
      match w.calls i with
      | .held | .unlocked => unlock calls w i fate
      | _ => none
  | .expire k => some { w with locks := w.locks.erase k }
  | .tick t => if w.now ≤ t then some { w with now := t } else none

end Model

section Effects

variable {calls : Nat → LockCall} {w w' : World} {e : Event}

/-- What one event does to the lock keys and to the calls. -/
inductive Effect (calls : Nat → LockCall) (w w' : World) : Event → Prop where
  /-- A call moves, and not to `held`. -/
  | move (e : Event) (i : Nat) (pc : Pc) (hpc : pc ≠ .held)
      (hcalls : w'.calls = Function.update w.calls i pc)
      (hlocks : w'.locks = w.locks) : Effect calls w w' e
  | stay (e : Event) (hcalls : w'.calls = w.calls) (hlocks : w'.locks = w.locks) :
      Effect calls w w' e
  /-- The `SET NX` of call `i` writes its key. -/
  | write (i : Nat) (fate : Fate) (d : Int) (pc : Pc)
      (hfree : w.locks.find (calls i).redisKey = none)
      (hcalls : w'.calls = Function.update w.calls i pc)
      (hlocks : w'.locks = w.locks.set (calls i).redisKey ⟨(calls i).value, d⟩) :
      Effect calls w w' (.attempt i fate)
  /-- The script of call `i` deletes its key. -/
  | remove (i : Nat) (fate : Fate) (d : Int)
      (hmine : w.locks.find (calls i).redisKey = some ⟨(calls i).value, d⟩)
      (hcalls : w'.calls = Function.update w.calls i .unlocked)
      (hlocks : w'.locks = w.locks.erase (calls i).redisKey) :
      Effect calls w w' (.unlock i fate)
  | expire (k : String) (hcalls : w'.calls = w.calls)
      (hlocks : w'.locks = w.locks.erase k) : Effect calls w w' (.expire k)

theorem attempt_effect (w : World) (i : Nat) (fate : Fate) :
    Effect calls w (attempt calls w i fate) (.attempt i fate) := by
  have hcases := redisLocker_acquire_cases w.locks w.now (calls i).ttl (calls i).redisKey
    (calls i).value
  cases fate with
  | lostRequest =>
      exact .move _ i .failed (by decide) rfl rfl
  | answered =>
      rcases hcases with ⟨-, hnone⟩ | ⟨hfree, d, hsome⟩
      · simp only [attempt, hnone]
        exact .stay _ rfl rfl
      · simp only [attempt, hsome]
        exact .write i _ d .held hfree rfl rfl
  | lostReply =>
      rcases hcases with ⟨-, hnone⟩ | ⟨hfree, d, hsome⟩
      · simp only [attempt, hnone]
        exact .move _ i .failed (by decide) rfl rfl
      · simp only [attempt, hsome]
        exact .write i _ d .failed hfree rfl rfl

theorem unlock_effect
    {i : Nat} {fate : Fate} (h : unlock calls w i fate = some w') :
    Effect calls w w' (.unlock i fate) := by
  unfold unlock at h
  split_ifs at h
  · cases h
    exact .move _ i .unlocked (by decide) rfl rfl
  · rcases redisLocker_release_cases w.locks (calls i).redisKey (calls i).value with
      ⟨hsame, -⟩ | ⟨d, hmine, herase⟩
    · rw [hsame] at h
      cases h
      exact .move _ i .unlocked (by decide) rfl rfl
    · rw [herase] at h
      cases h
      exact .remove i fate d hmine rfl rfl

/-- **Every enabled event has its effect.** -/
theorem step_effect (h : step calls w e = some w') :
    Effect calls w w' e := by
  cases e with
  | lock i drawn =>
      cases hpc : w.calls i <;> simp only [step, hpc, reduceCtorEq] at h
      cases h
      exact .move _ i _ (by cases drawn <;> decide) rfl rfl
  | attempt i fate =>
      cases hpc : w.calls i <;> simp only [step, hpc, reduceCtorEq] at h
      cases h
      exact attempt_effect w i fate
  | giveUp i =>
      cases hpc : w.calls i <;> simp only [step, hpc, reduceCtorEq] at h
      cases h
      exact .move _ i .failed (by decide) rfl rfl
  | unlock i fate =>
      cases hpc : w.calls i <;> simp only [step, hpc, reduceCtorEq] at h
      · exact unlock_effect h
      · exact unlock_effect h
  | expire k =>
      cases h
      exact .expire k rfl rfl
  | tick t =>
      simp only [step] at h
      split_ifs at h
      cases h
      exact .stay _ rfl rfl

/-- A key that has a value after an event had it before, or the event is the
`SET NX` that wrote it. -/
theorem find_of_effect
    {k : String} {lock : RedisLock}
    (heffect : Effect calls w w' e)
    (hfind : w'.locks.find k = some lock) :
    w.locks.find k = some lock ∨
      ∃ i fate, e = .attempt i fate ∧ k = (calls i).redisKey ∧
        lock.owner = (calls i).value ∧ w.locks.find k = none := by
  cases heffect with
  | move e i pc hpc hcalls hlocks =>
      exact Or.inl (hlocks ▸ hfind)
  | stay e hcalls hlocks =>
      exact Or.inl (hlocks ▸ hfind)
  | write i fate d pc hfree hcalls hlocks =>
      rw [hlocks] at hfind
      rcases Table.find_set_cases hfind with ⟨rfl, rfl⟩ | ⟨-, hold⟩
      · exact Or.inr ⟨i, fate, rfl, rfl, rfl, hfree⟩
      · exact Or.inl hold
  | remove i fate d hmine hcalls hlocks =>
      rw [hlocks] at hfind
      exact Or.inl (Table.find_erase_cases hfind).2
  | expire k' hcalls hlocks =>
      rw [hlocks] at hfind
      exact Or.inl (Table.find_erase_cases hfind).2

/-- An unlock takes away the value of a key only if that is the key and the value
of its own call. -/
theorem owner_of_removed
    {i : Nat} {fate : Fate} {k : String} {lock : RedisLock}
    (heffect : Effect calls w w' (.unlock i fate))
    (hfind : w.locks.find k = some lock)
    (hgone : w'.locks.find k ≠ some lock) :
    k = (calls i).redisKey ∧ lock.owner = (calls i).value := by
  cases heffect with
  | move e i pc hpc hcalls hlocks =>
      rw [hlocks] at hgone
      exact absurd hfind hgone
  | stay e hcalls hlocks =>
      rw [hlocks] at hgone
      exact absurd hfind hgone
  | remove i fate d hmine hcalls hlocks =>
      by_cases hk : k = (calls i).redisKey
      · subst hk
        rw [hmine] at hfind
        cases hfind
        exact ⟨rfl, rfl⟩
      · rw [hlocks, Table.find_erase_of_ne _ hk] at hgone
        exact absurd hfind hgone

end Effects

section Ownership

variable {calls : Nat → LockCall} {w : World} {es : List Event}

/-- In a run from `w₀`, the value of a key is what the `SET NX` of call `i` wrote,
and the key has had it ever since. -/
def WrittenBy (calls : Nat → LockCall) (w₀ : World) (es : List Event) (k : String)
    (lock : RedisLock) (i : Nat) : Prop :=
  ∃ fate,
    Run.EstablishedBy (step calls) (fun w => w.locks.find k = some lock) w₀ es (.attempt i fate)

/-- **Every value of a lock key was written by a call**, with the key and the value
of that call. -/
theorem writtenBy_of_find
    {now : Int} {k : String} {lock : RedisLock}
    (hrun : Run.exec (step calls) (World.start now) es = some w) :
    w.locks.find k = some lock →
      ∃ i, k = (calls i).redisKey ∧ lock.owner = (calls i).value ∧
        WrittenBy calls (World.start now) es k lock i := by
  refine Run.history_rule (P := fun es w => w.locks.find k = some lock → ∃ i,
    k = (calls i).redisKey ∧ lock.owner = (calls i).value ∧
      WrittenBy calls (World.start now) es k lock i) ?_ ?_ hrun
  · intro hfind
    cases hfind
  · intro es w e w' hes ih hstep hfind
    rcases find_of_effect (step_effect hstep) hfind with hold | ⟨i, fate, rfl, hk, howner, hfree⟩
    · obtain ⟨i, hk, howner, fate, hwritten⟩ := ih hold
      exact ⟨i, hk, howner, fate, hwritten.snoc hes hstep hfind⟩
    · exact ⟨i, hk, howner, fate, .last hes (by simp [hfree]) hstep hfind⟩

/-- Every unlock of the run removes a key only if the key holds what the `SET NX`
of its own call wrote, and it leaves the value that any other call wrote. -/
def UnlocksOwn (calls : Nat → LockCall) (w₀ : World) (es : List Event) : Prop :=
  ∀ before i fate after w w',
    es = before ++ .unlock i fate :: after →
    Run.exec (step calls) w₀ before = some w →
    step calls w (.unlock i fate) = some w' →
    (∀ k lock,
      w.locks.find k = some lock →
      w'.locks.find k ≠ some lock →
      k = (calls i).redisKey ∧ lock.owner = (calls i).value ∧
        WrittenBy calls w₀ before k lock i) ∧
      ∀ j lock,
        j ≠ i →
        w.locks.find (calls j).redisKey = some lock →
        lock.owner = (calls j).value →
        w'.locks.find (calls j).redisKey = some lock

theorem unlocks_own
    (hdistinct : Function.Injective fun i => (calls i).value) (now : Int) (es : List Event) :
    UnlocksOwn calls (World.start now) es := by
  rintro before i fate after w w' - hrun hstep
  have heffect := step_effect hstep
  refine ⟨?_, ?_⟩
  · intro k lock hfind hgone
    obtain ⟨hk, howner⟩ := owner_of_removed heffect hfind hgone
    obtain ⟨j, -, hj, hwritten⟩ := writtenBy_of_find hrun hfind
    obtain rfl : j = i := hdistinct (hj.symm.trans howner)
    exact ⟨hk, howner, hwritten⟩
  · intro j lock hji hfind howner
    by_contra hgone
    obtain ⟨-, hi⟩ := owner_of_removed heffect hfind hgone
    exact hji (hdistinct (howner.symm.trans hi))

end Ownership

section Exclusion

variable {calls : Nat → LockCall} {w w' : World} {e : Event}

/-- At most one call is between a successful `Lock` and its unlock, for any key. -/
def Exclusive (calls : Nat → LockCall) (w : World) : Prop :=
  ∀ i j, w.calls i = .held → w.calls j = .held →
    (calls i).redisKey = (calls j).redisKey → i = j

/-- A key does not expire while the call that wrote its value holds it. -/
def NoEarlyExpiry (calls : Nat → LockCall) (w : World) : Event → Prop
  | .expire k =>
      ∀ i lock,
        w.calls i = .held →
        w.locks.find k = some lock →
        lock.owner ≠ (calls i).value
  | _ => True

/-- A call that holds the lock has its value under its key. -/
def Held (calls : Nat → LockCall) (w : World) : Prop :=
  ∀ i, w.calls i = .held →
    ∃ d, w.locks.find (calls i).redisKey = some ⟨(calls i).value, d⟩

theorem Held.exclusive
    (hdistinct : Function.Injective fun i => (calls i).value) (hheld : Held calls w) :
    Exclusive calls w := by
  intro i j hi hj hkey
  obtain ⟨d, hfind⟩ := hheld i hi
  obtain ⟨d', hfind'⟩ := hheld j hj
  rw [hkey, hfind'] at hfind
  exact hdistinct (congrArg RedisLock.owner (Option.some.inj hfind)).symm

/-- A call that moves elsewhere than to `held` was not there before the other calls
that are. -/
theorem held_of_update
    {i j : Nat} {pc : Pc}
    (hpc : pc ≠ .held)
    (hcalls : w'.calls = Function.update w.calls i pc)
    (hj : w'.calls j = .held) :
    j ≠ i ∧ w.calls j = .held := by
  rcases Run.update_cases hcalls j with ⟨-, hself⟩ | ⟨hji, hother⟩
  · exact absurd (hself.symm.trans hj) hpc
  · exact ⟨hji, hother ▸ hj⟩

/-- **One step** without an early expiry keeps the lock of every holder. -/
theorem Held.step
    (hdistinct : Function.Injective fun i => (calls i).value)
    (hheld : Held calls w)
    (hguard : NoEarlyExpiry calls w e)
    (h : step calls w e = some w') :
    Held calls w' := by
  intro j hj
  cases step_effect h with
  | move e i pc hpc hcalls hlocks =>
      rw [hlocks]
      exact hheld j (held_of_update hpc hcalls hj).2
  | stay e hcalls hlocks =>
      rw [hlocks]
      exact hheld j (hcalls ▸ hj)
  | write i fate d pc hfree hcalls hlocks =>
      rw [hlocks]
      rcases Run.update_cases hcalls j with ⟨rfl, -⟩ | ⟨-, hother⟩
      · exact ⟨d, Table.find_set_self _ _ _⟩
      · obtain ⟨d', hfind⟩ := hheld j (hother ▸ hj)
        refine ⟨d', ?_⟩
        rw [Table.find_set_of_ne _ _ ?_, hfind]
        -- the key that is written was free
        intro hkey
        rw [hkey, hfree] at hfind
        cases hfind
  | remove i fate d hmine hcalls hlocks =>
      obtain ⟨hji, hjheld⟩ := held_of_update (by decide) hcalls hj
      obtain ⟨d', hfind⟩ := hheld j hjheld
      refine ⟨d', ?_⟩
      rw [hlocks, Table.find_erase_of_ne _ ?_, hfind]
      intro hkey
      rw [hkey, hmine] at hfind
      exact hji (hdistinct (congrArg RedisLock.owner (Option.some.inj hfind)).symm)
  | expire k hcalls hlocks =>
      rw [hcalls] at hj
      obtain ⟨d, hfind⟩ := hheld j hj
      refine ⟨d, ?_⟩
      rw [hlocks, Table.find_erase_of_ne _ ?_, hfind]
      rintro rfl
      exact hguard j _ hj hfind rfl

/-- **Ownership safety of the Redis refresh lock.**  With pairwise distinct values,
an unlock removes a key only while it holds what its own call wrote; and if no key
expires under its holder, at most one call holds the lock of a key, in every state
of the run. -/
theorem refresh_lock_ownership
    (calls : Nat → LockCall) (hdistinct : Function.Injective fun i => (calls i).value)
    (now : Int) (es : List Event) :
    UnlocksOwn calls (World.start now) es ∧
      (Run.Guarded (step calls) (NoEarlyExpiry calls) (World.start now) es →
        ∀ before after w,
          es = before ++ after →
          Run.exec (step calls) (World.start now) before = some w →
          Exclusive calls w) := by
  refine ⟨unlocks_own hdistinct now es, ?_⟩
  rintro hguard before after w rfl hrun
  have hstart : Held calls (World.start now) := by
    intro i hi
    cases hi
  have hheld : Held calls w :=
    Run.invariant_of_guarded (I := Held calls)
      (fun _ _ _ hs hg hstep => hs.step hdistinct hg hstep) hstart hguard.append_left hrun
  exact hheld.exclusive hdistinct

end Exclusion

section Runs

/-- The calls of replicas that share a prefix, all for one session. -/
def replicas (i : Nat) : LockCall :=
  ⟨⟨"rebff"⟩, "refresh:sid", 0, i⟩

/-- Two replicas take the lock one after the other; the first one waits for the
second, which unlocks twice, and the reply to an unlock is lost. -/
def handover : List Event :=
  [.lock 0 true, .lock 1 true, .attempt 1 .answered, .attempt 0 .answered, .unlock 1 .answered,
    .attempt 0 .answered, .unlock 1 .answered, .unlock 0 .lostReply]

/-- The key of the first replica expires under it and the second one takes the lock;
the late unlock of the first leaves the lock of the second alone. -/
def lateUnlock : List Event :=
  [.lock 0 true, .lock 1 true, .attempt 0 .answered, .expire (replicas 0).redisKey,
    .attempt 1 .answered, .unlock 0 .answered]

theorem refresh_lock_ownership_runs :
    (∃ w, Run.exec (step replicas) (World.start 0) handover = some w ∧
        w.locks.has (replicas 0).redisKey = false ∧
        ∀ before after w,
          handover = before ++ after →
          Run.exec (step replicas) (World.start 0) before = some w →
          Exclusive replicas w) ∧
      ∃ w, Run.exec (step replicas) (World.start 0) lateUnlock = some w ∧
        w.locks.has (replicas 1).redisKey = true ∧
        UnlocksOwn replicas (World.start 0) lateUnlock := by
  have hdistinct : Function.Injective fun i => (replicas i).value := fun _ _ h => h
  refine ⟨⟨_, rfl, by decide, ?_⟩, _, rfl, by decide, ?_⟩
  · apply (refresh_lock_ownership replicas hdistinct 0 handover).2
    simp [handover, Run.Guarded, NoEarlyExpiry]
  · exact (refresh_lock_ownership replicas hdistinct 0 lateUnlock).1

end Runs

end RefreshLocker
end GatewayRuntime
