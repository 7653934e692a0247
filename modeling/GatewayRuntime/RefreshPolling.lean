import GatewayRuntime.RefreshProgress

/-!
# The Redis lock is polled

`RefreshLocker.Lock` of `internal/store/redis/refresh_lock.go` tries `SET NX` and, when the key
is there, waits for a timer of 25 ms before it tries again.  `redisLocker` leaves the timer out:
there a call may take the lock at any time at which the key is absent.  `pollStep` puts it in.
Beside the world of `AccessToken` it keeps the timers of the calls that wait; a call makes no
attempt before its timer has fired, and an attempt that finds the key arms the timer again.
Without its failed attempts a run of `pollStep` is a run of `step` (`exec_of_pollStep`), so what
is shown of those runs holds with the timers too.

With the Redis lock a call of `AccessToken` needs no other call.  If the holder never moves
again, the key expires within its time to live, and the next attempt of the call comes at most
25 ms later.
-/

namespace GatewayRuntime
namespace Token

section Model

variable {T : Store} {S : Session.Store}

/-- The wait between two attempts, `25 * time.Millisecond`. -/
def pollInterval : Int :=
  25000000

/-- The calls of `AccessToken`, and when the timer of a call that waits for the lock fires. -/
structure Polling (T : Store) (S : Session.Store) where
  world : World T S redisLocker
  timers : Nat → Option Int

/-- When a call may make its next attempt: at once, or when its timer has fired. -/
def Polling.nextPoll (p : Polling T S) (i : Nat) : Int :=
  match p.timers i with
  | none => p.world.now
  | some t => max p.world.now t

/-- The events of `AccessToken`, and an attempt that finds the key. -/
inductive PollEvent where
  | event (e : Event)
  | poll (i : Nat)

/-- A call takes the lock in an attempt, so not before its timer has fired.  A fault is an error
of Redis or the end of the context, for which a call does not have to wait. -/
def Polling.allows (p : Polling T S) : Event → Bool
  | .call i .ok =>
      match p.world.calls i with
      | .awaitLock _ => decide (p.nextPoll i ≤ p.world.now)
      | _ => true
  | _ => true

/-- A call that goes on has no timer. -/
def Polling.timersAfter (p : Polling T S) : Event → Nat → Option Int
  | .call i _ => Function.update p.timers i none
  | _ => p.timers

variable (c : Setting)

/-- One step. -/
def pollStep (p : Polling T S) : PollEvent → Option (Polling T S)
  | .event e =>
      if p.allows e then (step c p.world e).map fun w => ⟨w, p.timersAfter e⟩ else none
  | .poll i =>
      match p.world.calls i with
      | .awaitLock h =>
          if p.nextPoll i ≤ p.world.now ∧
              (redisLocker.acquire p.world.lock p.world.now c.manager.effectiveLockTTL c.key
                h).isNone then
            some { p with
              timers := Function.update p.timers i (some (p.world.now + pollInterval)) }
          else none
      | _ => none

end Model

section Steps

variable {T : Store} {S : Session.Store} {c : Setting} {p p' : Polling T S} {i : Nat}

theorem pollStep_event
    {e : Event} {w : World T S redisLocker}
    (hallows : p.allows e = true) (h : step c p.world e = some w) :
    pollStep c p (.event e) = some ⟨w, p.timersAfter e⟩ := by
  simp [pollStep, hallows, h]

theorem event_success
    {e : Event} (h : pollStep c p (.event e) = some p') :
    step c p.world e = some p'.world ∧ p'.timers = p.timersAfter e := by
  simp only [pollStep] at h
  split_ifs at h
  obtain ⟨w, hstep, rfl⟩ := Option.map_eq_some_iff.mp h
  exact ⟨hstep, rfl⟩

theorem poll_success
    (h : pollStep c p (.poll i) = some p') :
    p'.world = p.world ∧
      p'.timers = Function.update p.timers i (some (p.world.now + pollInterval)) := by
  cases hpc : p.world.calls i <;> simp only [pollStep, hpc, reduceCtorEq] at h
  split_ifs at h
  cases h
  exact ⟨rfl, rfl⟩

/-- The event of `AccessToken` that an event is. -/
def PollEvent.event? : PollEvent → Option Event
  | .event e => some e
  | .poll _ => none

/-- **Timers only restrict.**  A run with timers is a run of `step` once its failed attempts are
left out. -/
theorem exec_of_pollStep
    {es : List PollEvent} (hrun : Run.exec (pollStep c) p es = some p') :
    Run.exec (step c) p.world (es.filterMap PollEvent.event?) = some p'.world := by
  induction es generalizing p with
  | nil =>
      cases hrun
      rfl
  | cons e es ih =>
      obtain ⟨p₁, hstep, hrest⟩ := Run.exec_cons_success hrun
      cases e with
      | event e =>
          simp only [List.filterMap_cons, PollEvent.event?, Run.exec, (event_success hstep).1]
          exact ih hrest
      | poll i =>
          simp only [List.filterMap_cons, PollEvent.event?, ← (poll_success hstep).1]
          exact ih hrest

theorem now_le_nextPoll (p : Polling T S) (i : Nat) :
    p.world.now ≤ p.nextPoll i := by
  unfold Polling.nextPoll
  cases p.timers i with
  | none => exact le_refl _
  | some t => exact le_max_left _ _

theorem allows_of_not_awaiting
    (h : ∀ k, p.world.calls i ≠ .awaitLock k) (o : Outcome) :
    p.allows (.call i o) = true := by
  cases o with
  | ok => simp only [Polling.allows]
  | fault | answer | url => rfl

theorem allows_of_fired
    (h : p.nextPoll i ≤ p.world.now) :
    p.allows (.call i .ok) = true := by
  simp only [Polling.allows]
  split <;> simp [h]

end Steps

section Key

variable {T : Store} {S : Session.Store} {c : Setting} {w w' : World T S redisLocker}

/-- The lock key ends within its time to live from now. -/
def KeyEnds (c : Setting) (w : World T S redisLocker) : Prop :=
  ∀ lock, lockEntry c w = some lock →
    lock.deadline ≤ w.now + redisExpiry c.manager.effectiveLockTTL

theorem effectiveLockTTL_pos (m : Manager) : 0 < m.effectiveLockTTL := by
  unfold Manager.effectiveLockTTL
  split_ifs with hpos
  · exact hpos
  · decide

/-- The lock key is as before or gone, and the clock has not gone back. -/
theorem KeyEnds.of_entry
    (h : KeyEnds c w) (hnow : w.now ≤ w'.now)
    (hentry : lockEntry c w' = lockEntry c w ∨ lockEntry c w' = none) :
    KeyEnds c w' := by
  intro lock hlock
  rcases hentry with hentry | hentry
  · exact (h lock (hentry ▸ hlock)).trans (by omega)
  · rw [hentry] at hlock
    cases hlock

theorem acquire_redis
    {lock lock' : Table String RedisLock} {now : Int} {m : Manager} {key : String} {h : Nat}
    (hacquire : redisLocker.acquire lock now m.effectiveLockTTL key h = some lock') :
    lock'.find key = some ⟨h, now + redisExpiry m.effectiveLockTTL⟩ := by
  have hpos := Int64.not_le.mpr (effectiveLockTTL_pos m)
  simp only [redisLocker, if_neg hpos] at hacquire
  split_ifs at hacquire
  cases hacquire
  exact Table.find_set_self _ _ _

theorem release_redis
    {lock lock' : Table String RedisLock} {key : String} {h : Nat}
    (hrelease : redisLocker.release lock key h = some lock') :
    lock'.find key = lock.find key ∨ lock'.find key = none := by
  rcases redisLocker_release_cases lock key h with ⟨hsame, -⟩ | ⟨d, -, herase⟩
  · rw [hsame] at hrelease
    cases hrelease
    exact Or.inl rfl
  · rw [herase] at hrelease
    cases hrelease
    exact Or.inr (Table.find_erase_self _ _)

theorem expire_redis
    {lock lock' : Table String RedisLock} {now : Int} {key : String}
    (hexpire : redisLocker.expire lock now key = some lock') :
    lock'.find key = none := by
  simp only [redisLocker] at hexpire
  split at hexpire
  · cases hexpire
  · split_ifs at hexpire
    cases hexpire
    exact Table.find_erase_self _ _

/-- **One step** keeps the bound on the lock key. -/
theorem KeyEnds.step {e : Event} (hinv : KeyEnds c w) (h : Token.step c w e = some w') :
    KeyEnds c w' := by
  have hnow := now_le_of_step h
  cases e with
  | spawn i =>
      obtain ⟨-, rfl⟩ := spawn_success h
      exact hinv.of_entry hnow (Or.inl rfl)
  | call i o =>
      obtain ⟨pc, hmoved⟩ := callStep_moved h
      have heffect := hmoved.lock
      generalize hlock : w'.lock = lock at heffect
      cases heffect with
      | keep | enter | abandon =>
          exact hinv.of_entry hnow (Or.inl (by rw [lockEntry, hlock]; rfl))
      | acquire hpc hacquire =>
          intro entry hentry
          rw [lockEntry, hlock, acquire_redis hacquire] at hentry
          cases hentry
          rw [hmoved.now]
      | release hpc hrelease =>
          refine hinv.of_entry hnow ?_
          rw [lockEntry, lockEntry, hlock]
          exact release_redis hrelease
  | logout o =>
      refine hinv.of_entry hnow (Or.inl ?_)
      rw [lockEntry, (logoutStep_moved h).lock]
      rfl
  | tick t =>
      obtain ⟨-, rfl⟩ := tick_success h
      exact hinv.of_entry hnow (Or.inl rfl)
  | expireLock =>
      obtain ⟨lock, hexpire, rfl⟩ := expireLock_success h
      exact hinv.of_entry hnow (Or.inr (expire_redis hexpire))

theorem sound_keyEnds (T : Store) (S : Session.Store) (c : Setting) :
    Sound c (KeyEnds (T := T) (S := S) c) where
  kept hw hstep _ := hw.step (e := .call _ _) hstep
  released {w j h result} _ _ := by
    rcases redisLocker_release_cases w.lock c.key h with ⟨hsome, -⟩ | ⟨d, -, hsome⟩ <;>
      rw [hsome] <;> rfl

/-- The key is absent, so an attempt takes the lock. -/
theorem acquire_of_absent
    (hnone : lockEntry c w = none) (h : Nat) :
    (redisLocker.acquire w.lock w.now c.manager.effectiveLockTTL c.key h).isSome := by
  rcases redisLocker_acquire_cases w.lock w.now c.manager.effectiveLockTTL c.key h with
    ⟨hhas, -⟩ | ⟨-, d, hsome⟩
  · have hsome : (lockEntry c w).isSome = true := hhas
    rw [hnone] at hsome
    cases hsome
  · rw [hsome]
    rfl

/-- The key is there, so an attempt does not take the lock. -/
theorem acquire_of_present
    {lock : RedisLock} (hentry : lockEntry c w = some lock) (h : Nat) :
    (redisLocker.acquire w.lock w.now c.manager.effectiveLockTTL c.key h).isNone := by
  rcases redisLocker_acquire_cases w.lock w.now c.manager.effectiveLockTTL c.key h with
    ⟨-, hnone⟩ | ⟨hfind, -⟩
  · rw [hnone]
    rfl
  · have hnone : lockEntry c w = none := hfind
    rw [hnone] at hentry
    cases hentry

end Key

section Waiting

variable {T : Store} {S : Session.Store} {c : Setting} {p p' : Polling T S} {i : Nat}

/-- The lock key and the timers end within their times from now. -/
structure Polled (c : Setting) (p : Polling T S) : Prop where
  key : KeyEnds c p.world
  timer : ∀ i t, p.timers i = some t → t ≤ p.world.now + pollInterval

/-- **One step** keeps the bounds. -/
theorem Polled.step
    {e : PollEvent} (h : Polled c p) (hstep : pollStep c p e = some p') :
    Polled c p' := by
  cases e with
  | event e =>
      obtain ⟨hworld, htimers⟩ := event_success hstep
      have hnow := now_le_of_step hworld
      refine ⟨h.key.step hworld, fun i t ht => ?_⟩
      have hold : p.timers i = some t := by
        rw [htimers] at ht
        cases e with
        | call j o =>
            rcases Run.update_cases (rfl : p.timersAfter (.call j o) = _) i with
              ⟨-, hnone⟩ | ⟨-, hsame⟩
            · rw [hnone] at ht
              cases ht
            · rwa [hsame] at ht
        | spawn | logout | tick | expireLock => exact ht
      have hbound := h.timer i t hold
      omega
  | poll j =>
      obtain ⟨hworld, htimers⟩ := poll_success hstep
      refine ⟨hworld ▸ h.key, fun i t ht => ?_⟩
      rw [hworld]
      rcases Run.update_cases htimers i with ⟨-, harmed⟩ | ⟨-, hsame⟩
      · rw [harmed] at ht
        cases ht
        exact le_refl _
      · exact h.timer i t (hsame ▸ ht)

theorem Polled.nextPoll_le (h : Polled c p) (i : Nat) :
    p.nextPoll i ≤ p.world.now + pollInterval := by
  unfold Polling.nextPoll
  cases ht : p.timers i with
  | none => simp [pollInterval]
  | some t => exact max_le (by simp [pollInterval]) (h.timer i t ht)

/-- The event is a step of call `i` without a fault or one of its attempts, or it is no step of a
call at all. -/
def Alone (r : Except Err TokenSet) (i : Nat) : PollEvent → Prop
  | .event e => Smooth r i e ∨ (∃ t, e = .tick t) ∨ e = .expireLock
  | .poll j => j = i

theorem alone_tick (r : Except Err TokenSet) (i : Nat) (t : Int) :
    Alone r i (.event (.tick t)) :=
  Or.inr (Or.inl ⟨t, rfl⟩)

theorem alone_expireLock (r : Except Err TokenSet) (i : Nat) :
    Alone r i (.event .expireLock) :=
  Or.inr (Or.inr rfl)

theorem alone_poll (r : Except Err TokenSet) (i : Nat) :
    Alone r i (.poll i) :=
  rfl

theorem alone_smoothly (r : Except Err TokenSet) (i : Nat) (pc : Pc) :
    Alone r i (.event (.call i (smoothly r pc))) :=
  Or.inl (smooth_smoothly r pc)

/-- While call `i` waits for the lock, it makes each attempt when its timer fires: the clock does
not pass the timer. -/
def Prompt (i : Nat) (p : Polling T S) : PollEvent → Prop
  | .event (.tick t) => ∀ h, p.world.calls i = .awaitLock h → t ≤ p.nextPoll i
  | _ => True

/-- A continuation in which call `i` is alone and polls at its times. -/
structure Unaided (c : Setting) (r : Except Err TokenSet) (i : Nat) (p : Polling T S)
    (es : List PollEvent) (p' : Polling T S) : Prop where
  events : ∀ e ∈ es, Alone r i e
  prompt : Run.Guarded (pollStep c) (Prompt i) p es
  run : Run.exec (pollStep c) p es = some p'

variable {r : Except Err TokenSet} {es : List PollEvent}

theorem unaided_nil (c : Setting) (r : Except Err TokenSet) (i : Nat) (p : Polling T S) :
    Unaided c r i p [] p :=
  ⟨by simp, trivial, rfl⟩

/-- One step in front. -/
theorem Unaided.cons
    {e : PollEvent} {p₁ : Polling T S}
    (he : Alone r i e) (hprompt : Prompt i p e) (hstep : pollStep c p e = some p₁)
    (h : Unaided c r i p₁ es p') :
    Unaided c r i p (e :: es) p' where
  events := List.forall_mem_cons.mpr ⟨he, h.events⟩
  prompt := by
    refine ⟨hprompt, fun p₂ hstep' => ?_⟩
    rw [hstep] at hstep'
    cases hstep'
    exact h.prompt
  run := by
    simp only [Run.exec, hstep]
    exact h.run

/-- A continuation of a continuation. -/
theorem Unaided.append
    {es' : List PollEvent} {p₁ : Polling T S}
    (h : Unaided c r i p es p₁) (h' : Unaided c r i p₁ es' p') :
    Unaided c r i p (es ++ es') p' where
  events e he := (List.mem_append.mp he).elim (h.events e) (h'.events e)
  prompt := by
    refine h.prompt.append fun p₂ hrun => ?_
    rw [h.run] at hrun
    cases hrun
    exact h'.prompt
  run := by
    rw [Run.exec_append, h.run]
    exact h'.run

theorem Unaided.polled (h : Unaided c r i p es p') (hp : Polled c p) :
    Polled c p' :=
  Run.exec_invariant (fun _ _ _ hp hstep => hp.step hstep) hp h.run

/-- The state in which the timer of a call has just fired. -/
def Polling.atPoll (p : Polling T S) (i : Nat) : Polling T S :=
  ⟨{ p.world with now := p.nextPoll i }, p.timers⟩

theorem pollStep_atPoll (c : Setting) (p : Polling T S) (i : Nat) :
    pollStep c p (.event (.tick (p.nextPoll i))) = some (p.atPoll i) :=
  pollStep_event rfl (if_pos (now_le_nextPoll p i))

theorem nextPoll_atPoll (p : Polling T S) (i : Nat) :
    (p.atPoll i).nextPoll i = p.nextPoll i := by
  simp only [Polling.nextPoll, Polling.atPoll]
  cases p.timers i with
  | none => rfl
  | some t => simp

/-- Call `i` makes an attempt and finds no key. -/
structure Granted (c : Setting) (i h : Nat) (p : Polling T S) : Prop where
  awaits : p.world.calls i = .awaitLock h
  absent : lockEntry c p.world = none
  fired : p.nextPoll i ≤ p.world.now

/-- **The key is waited out.**  The call polls until the key has expired, at the latest one
interval after its deadline.  The induction is on the time from the next attempt to the deadline,
which each attempt before the deadline makes shorter. -/
theorem waits_out
    (r : Except Err TokenSet) {lock : RedisLock} {h : Nat}
    (hpc : p.world.calls i = .awaitLock h) (hentry : lockEntry c p.world = some lock) :
    ∃ es p₁, Unaided c r i p es p₁ ∧ Granted c i h p₁ ∧
      p₁.world.now ≤ max (p.nextPoll i) (lock.deadline + pollInterval) := by
  generalize hn : (lock.deadline - p.nextPoll i).toNat = n
  induction n using Nat.strong_induction_on generalizing p with
  | _ n ih =>
  have htick := pollStep_atPoll c p i
  have hprompt : Prompt i p (.event (.tick (p.nextPoll i))) := fun _ _ => le_refl _
  have hnext := nextPoll_atPoll p i
  have hentry' : lockEntry c (p.atPoll i).world = some lock := hentry
  by_cases hdeadline : lock.deadline ≤ p.nextPoll i
  · -- The key has expired when the timer fires.
    have hexpire : redisLocker.expire (p.atPoll i).world.lock (p.nextPoll i) c.key =
        some (Table.erase p.world.lock c.key) := by
      simp [redisLocker, Polling.atPoll, hdeadline,
        show Table.find p.world.lock c.key = some lock from hentry]
    have hstep : pollStep c (p.atPoll i) (.event .expireLock) =
        some ⟨{ (p.atPoll i).world with lock := Table.erase p.world.lock c.key }, p.timers⟩ := by
      refine pollStep_event rfl ?_
      simp only [step, Polling.atPoll] at hexpire ⊢
      rw [hexpire]
      rfl
    have hunaided := (unaided_nil c r i _).cons (alone_expireLock r i) trivial hstep
    exact ⟨_, _, hunaided.cons (alone_tick r i _) hprompt htick,
      ⟨hpc, Table.find_erase_self _ _, hnext.le⟩, le_max_left _ _⟩
  · -- The attempt finds the key and arms the timer again.
    let p₂ : Polling T S :=
      ⟨(p.atPoll i).world, Function.update p.timers i (some (p.nextPoll i + pollInterval))⟩
    have hstep : pollStep c (p.atPoll i) (.poll i) = some p₂ := by
      have hpc' : (p.atPoll i).world.calls i = .awaitLock h := hpc
      simp only [pollStep, hpc']
      exact if_pos ⟨hnext.le, acquire_of_present hentry' h⟩
    have hnext₂ : p₂.nextPoll i = p.nextPoll i + pollInterval := by
      simp [Polling.nextPoll, p₂, Polling.atPoll, pollInterval]
    have hpoll : 0 < pollInterval := by decide
    obtain ⟨es, p₁, hunaided, hgranted, hnow⟩ :=
      ih _ (by omega) (p := p₂) hpc hentry' rfl
    have hunaided₂ := hunaided.cons (alone_poll r i) trivial hstep
    refine ⟨_, p₁, hunaided₂.cons (alone_tick r i _) hprompt htick, hgranted, ?_⟩
    rw [hnext₂] at hnow
    omega

/-- **A call that waits gets the lock**, within the time to live of the key and one interval. -/
theorem Polled.granted
    (r : Except Err TokenSet) {h : Nat}
    (hp : Polled c p) (hpc : p.world.calls i = .awaitLock h) :
    ∃ es p₁, Unaided c r i p es p₁ ∧ Granted c i h p₁ ∧
      p₁.world.now ≤ p.world.now + (redisExpiry c.manager.effectiveLockTTL + pollInterval) := by
  have hpos := redisExpiry_pos c.manager.effectiveLockTTL
  have htimer := hp.nextPoll_le i
  cases hentry : lockEntry c p.world with
  | none =>
      refine ⟨_, _, (unaided_nil c r i _).cons (alone_tick r i _) (fun _ _ => le_refl _)
        (pollStep_atPoll c p i), ⟨hpc, hentry, (nextPoll_atPoll p i).le⟩, ?_⟩
      simp only [Polling.atPoll]
      omega
  | some lock =>
      obtain ⟨es, p₁, hunaided, hgranted, hnow⟩ := waits_out r hpc hentry
      have hdeadline := hp.key lock hentry
      exact ⟨es, p₁, hunaided, hgranted, by omega⟩

end Waiting

section Results

variable {T : Store} {S : Session.Store} {c : Setting} {p : Polling T S} {i : Nat}

/-- How long a call may have to wait: not at all behind the lock. -/
def waitBound (c : Setting) (pc : Pc) : Int :=
  if pc.rank ≤ 9 then 0 else redisExpiry c.manager.effectiveLockTTL + pollInterval

theorem waitBound_mono
    {pc pc' : Pc} (h : pc'.rank ≤ pc.rank) :
    waitBound c pc' ≤ waitBound c pc := by
  have hpos := redisExpiry_pos c.manager.effectiveLockTTL
  have hpoll : 0 < pollInterval := by decide
  unfold waitBound
  split_ifs <;> omega

/-- **A call returns unaided.**  The induction is on its rank. -/
theorem Polled.returns
    (r : Except Err TokenSet) (hp : Polled c p) (hmade : p.world.calls i ≠ .idle) :
    ∃ es p', Unaided c r i p es p' ∧ (∃ result, p'.world.calls i = .done result) ∧
      p'.world.now ≤ p.world.now + waitBound c (p.world.calls i) := by
  have hsound := sound_keyEnds T S c
  generalize hn : (p.world.calls i).rank = n
  induction n using Nat.strong_induction_on generalizing p with
  | _ n ih =>
  by_cases hdone : ∃ result, p.world.calls i = .done result
  · refine ⟨[], p, unaided_nil c r i p, hdone, ?_⟩
    obtain ⟨result, hdone⟩ := hdone
    simp [hdone, waitBound, Pc.rank]
  by_cases hawait : ∃ h, p.world.calls i = .awaitLock h
  · obtain ⟨h, hpc⟩ := hawait
    obtain ⟨es, p₁, hunaided, hgranted, hnow⟩ := hp.granted r hpc
    obtain ⟨lock, hlock⟩ := Option.isSome_iff_exists.mp (acquire_of_absent hgranted.absent h)
    have hstep : callStep c p₁.world i .ok =
        some ({ p₁.world with lock := lock }.goto i (.reread (some h))) := by
      simp [callStep, hgranted.awaits, hlock]
    have hpoll := pollStep_event (e := .call i .ok) (allows_of_fired hgranted.fired) hstep
    obtain ⟨es', p', hunaided', hreturned, hnow'⟩ :=
      ih 9 (by rw [← hn, hpc]; exact Nat.lt_succ_self 9) ((hunaided.polled hp).step hpoll)
        (by simp) (by simp [Pc.rank])
    refine ⟨_, p', hunaided.append (hunaided'.cons (alone_smoothly r i .enterLock) trivial hpoll),
      hreturned, ?_⟩
    have hnone : waitBound c (.reread (some h)) = 0 := rfl
    have hwait : waitBound c (.awaitLock h) =
        redisExpiry c.manager.effectiveLockTTL + pollInterval := rfl
    rw [goto_calls_self, hnone] at hnow'
    rw [hpc, hwait]
    rw [add_zero] at hnow'
    exact hnow'.trans hnow
  · obtain ⟨w₁, hstep, hnext⟩ :=
      hsound.next r hp.key hmade (not_exists.mp hdone) (not_exists.mp hawait)
    have hpoll := pollStep_event (e := .call i _)
      (allows_of_not_awaiting (not_exists.mp hawait) _) hstep
    obtain ⟨es, p', hunaided, hreturned, hnow⟩ :=
      ih _ (hn ▸ hnext.rank) (hp.step hpoll) hnext.made rfl
    refine ⟨_, p', hunaided.cons (alone_smoothly r i _) trivial hpoll, hreturned, ?_⟩
    have hmono := waitBound_mono (c := c) hnext.rank.le
    have hsame := hnext.now
    simp only at hnow
    omega

end Results

end Token
end GatewayRuntime
