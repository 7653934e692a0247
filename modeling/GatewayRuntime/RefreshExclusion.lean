import GatewayRuntime.AccessToken

/-!
# Exclusion of refreshes with the Redis lock

Replicas that share a Redis lock.  The lock key has a time to live, and a call
of the identity provider may take longer: then the key expires under its owner,
another replica takes the lock, reads the same token set and presents the same
refresh token (`refresh_overlaps_after_expiry`).

The invariant `Owned` says that a call between taking the lock and the return of
its `RefreshTokens` is the owner of the lock key.  It is kept by every step,
except by an expiry that hits such a call; `refresh_exclusive` is the result for
the runs without one.
-/

namespace GatewayRuntime
namespace Token

section Invariant

variable {T : Store} {S : Session.Store} {c : Setting} {w w' : World T S redisLocker}

/-- The entry of the lock key. -/
def lockEntry (c : Setting) (w : World T S redisLocker) : Option RedisLock :=
  Table.find (α := RedisLock) w.lock c.key

/-- Handles are those of their calls, and a call that is refreshing owns the lock
key. -/
structure Owned (c : Setting) (w : World T S redisLocker) : Prop where
  handle : ∀ i h, (w.calls i).holder = some h → h = i
  awaited : ∀ i h, w.calls i = .awaitLock h → h = i
  owner : ∀ i, (w.calls i).refreshing = true → ∃ d, lockEntry c w = some ⟨i, d⟩

/-- The lock key expires only while its owner is not refreshing. -/
def expiresUnused (c : Setting) (w : World T S redisLocker) : Event → Bool
  | .expireLock =>
      match lockEntry c w with
      | none => true
      | some lock => !(w.calls lock.owner).refreshing
  | _ => true

/-- A move to a place that neither holds nor awaits the lock, with the lock
unchanged. -/
theorem Owned.update
    {i : Nat} {pc : Pc}
    (hinv : Owned c w)
    (hcalls : w'.calls = Function.update w.calls i pc)
    (hhandle : ∀ h, pc.holder = some h → h = i)
    (hawaited : ∀ h, pc = .awaitLock h → h = i)
    (howner : ∀ j, (w'.calls j).refreshing = true → ∃ d, lockEntry c w' = some ⟨j, d⟩) :
    Owned c w' := by
  refine ⟨?_, ?_, howner⟩
  · exact Run.forall_update (P := fun j pc => ∀ h, pc.holder = some h → h = j) hcalls hhandle
      fun j _ => hinv.handle j
  · exact Run.forall_update (P := fun j pc => ∀ h, pc = .awaitLock h → h = j) hcalls hawaited
      fun j _ => hinv.awaited j

/-- With the lock unchanged the owners stay, if the call that moved is refreshing
only if it was. -/
theorem Owned.owner_of_keep
    {i : Nat} {pc : Pc}
    (hinv : Owned c w)
    (hcalls : w'.calls = Function.update w.calls i pc)
    (hlock : w'.lock = w.lock)
    (hrefreshing : pc.refreshing = true → (w.calls i).refreshing = true) :
    ∀ j, (w'.calls j).refreshing = true → ∃ d, lockEntry c w' = some ⟨j, d⟩ := by
  intro j hj
  have hentry : lockEntry c w' = lockEntry c w := by
    unfold lockEntry
    rw [hlock]
  rw [hentry]
  apply hinv.owner
  rcases Run.update_cases hcalls j with ⟨rfl, hself⟩ | ⟨-, hother⟩
  · rw [hself] at hj
    exact hrefreshing hj
  · rwa [hother] at hj

theorem acquire_success
    {now : Int} {ttl : Duration} {key : String} {h : Nat}
    {lock lock' : Table String RedisLock}
    (hacquire : redisLocker.acquire lock now ttl key h = some lock') :
    lock.find key = none ∧ ∃ d, lock'.find key = some ⟨h, d⟩ := by
  rcases redisLocker_acquire_cases lock now ttl key h with ⟨-, hnone⟩ | ⟨hfree, d, hsome⟩
  · rw [hnone] at hacquire
    cases hacquire
  · rw [hsome] at hacquire
    cases hacquire
    exact ⟨hfree, d, Table.find_set_self _ _ _⟩

theorem release_success
    {key : String} {h : Nat} {lock lock' : Table String RedisLock}
    (hrelease : redisLocker.release lock key h = some lock') :
    lock' = lock ∨ ∃ d, lock.find key = some ⟨h, d⟩ := by
  rcases redisLocker_release_cases lock key h with ⟨hsame, -⟩ | ⟨d, hmine, -⟩
  · rw [hsame] at hrelease
    cases hrelease
    exact Or.inl rfl
  · exact Or.inr ⟨d, hmine⟩

/-- A step of a call keeps the invariant. -/
theorem Owned.move
    {i : Nat} {pc : Pc}
    (hlocker : c.manager.hasLocker = true)
    (hinv : Owned c w)
    (hmoved : Moved c w w' i pc) :
    Owned c w' := by
  have hcalls := hmoved.calls
  have heffect := hmoved.lock
  generalize hlock : w'.lock = lock at heffect
  cases heffect with
  | keep hholder hawait hinside =>
      refine hinv.update hcalls ?_ ?_ (hinv.owner_of_keep hcalls hlock (hinside hlocker).1)
      · intro h hh
        exact hinv.handle i h (hholder ▸ hh)
      · intro h hh
        exact absurd hh (hawait h)
  | enter hpc =>
      refine hinv.update hcalls (by simp [Pc.holder]) ?_
        (hinv.owner_of_keep hcalls hlock (by simp [Pc.refreshing]))
      intro h hh
      cases hh
      rfl
  | acquire hpc hacquire =>
      obtain rfl : i = _ := (hinv.awaited i _ hpc).symm
      obtain ⟨hfree, d, hentry⟩ := acquire_success hacquire
      refine hinv.update hcalls (by simp [Pc.holder]) (by simp) ?_
      intro j hj
      rcases Run.update_cases hcalls j with ⟨rfl, -⟩ | ⟨-, hother⟩
      · exact ⟨d, by rw [lockEntry, hlock]; exact hentry⟩
      · exfalso
        rw [hother] at hj
        obtain ⟨d', howner⟩ := hinv.owner j hj
        rw [lockEntry, hfree] at howner
        cases howner
  | release hpc hrelease =>
      obtain rfl : i = _ := (hinv.handle i _ (by rw [hpc]; rfl)).symm
      refine hinv.update hcalls (by simp [Pc.holder]) (by simp) ?_
      intro j hj
      rcases Run.update_cases hcalls j with ⟨rfl, hself⟩ | ⟨hji, hother⟩
      · rw [hself] at hj
        cases hj
      · rw [hother] at hj
        obtain ⟨d, howner⟩ := hinv.owner j hj
        rcases release_success hrelease with hsame | ⟨d', hmine⟩
        · exact ⟨d, by rw [lockEntry, hlock, hsame]; exact howner⟩
        · rw [lockEntry, hmine] at howner
          cases howner
          exact absurd rfl hji
  | abandon hpc =>
      refine hinv.update hcalls (by simp [Pc.holder]) (by simp)
        (hinv.owner_of_keep hcalls hlock (by simp [Pc.refreshing]))

/-- **One step** keeps the invariant, unless the lock key expires under a call that
is refreshing. -/
theorem Owned.step
    {e : Event}
    (hlocker : c.manager.hasLocker = true)
    (hinv : Owned c w)
    (hguard : expiresUnused c w e = true)
    (h : step c w e = some w') :
    Owned c w' := by
  cases e with
  | spawn i =>
      obtain ⟨-, rfl⟩ := spawn_success h
      obtain ⟨hholder, hrefreshing, -, hawait⟩ := entry_outside c
      refine hinv.update rfl ?_ ?_ (hinv.owner_of_keep rfl rfl ?_)
      · simp [hholder]
      · exact fun k hk => absurd hk (hawait k)
      · simp [hrefreshing]
  | call i o =>
      obtain ⟨pc, hmoved⟩ := callStep_moved h
      exact hinv.move hlocker hmoved
  | logout o =>
      have hmoved := logoutStep_moved h
      refine ⟨?_, ?_, ?_⟩
      · rw [hmoved.calls]
        exact hinv.handle
      · rw [hmoved.calls]
        exact hinv.awaited
      · rw [hmoved.calls, lockEntry, hmoved.lock]
        exact hinv.owner
  | tick t =>
      obtain ⟨-, rfl⟩ := tick_success h
      exact ⟨hinv.handle, hinv.awaited, hinv.owner⟩
  | expireLock =>
      obtain ⟨lock, hexpire, rfl⟩ := expireLock_success h
      refine ⟨hinv.handle, hinv.awaited, ?_⟩
      intro i hi
      obtain ⟨d, howner⟩ := hinv.owner i hi
      simp [expiresUnused, howner] at hguard
      rw [hguard] at hi
      cases hi

end Invariant

section Runs

variable {T : Store} {S : Session.Store}

/-- No two `RefreshTokens` calls that present the same refresh token are in
flight. -/
def RefreshExclusive {L : Locker} (w : World T S L) : Prop :=
  ∀ i j hi hj curi curj,
    w.calls i = .inFlight hi curi → w.calls j = .inFlight hj curj →
      curi.refreshToken = curj.refreshToken → i = j

/-- The owner of the lock key is unique. -/
theorem Owned.exclusive
    {c : Setting} {w : World T S redisLocker} (hinv : Owned c w) :
    RefreshExclusive w := by
  intro i j hi hj curi curj hpci hpcj _
  obtain ⟨di, howni⟩ := hinv.owner i (by rw [hpci]; rfl)
  obtain ⟨dj, hownj⟩ := hinv.owner j (by rw [hpcj]; rfl)
  rw [howni] at hownj
  cases hownj
  rfl

/-- **Refreshes exclude each other** in every run in which the lock key expires
only while its owner is not between taking the lock and the return of its
`RefreshTokens`. -/
theorem refresh_exclusive
    (T : Store) (S : Session.Store) (c : Setting) (hlocker : c.manager.hasLocker = true)
    (w₀ w : World T S redisLocker) (es : List Event)
    (hidle : ∀ i, w₀.calls i = .idle)
    (hguard : Run.Guarded (step c) (fun w e => expiresUnused c w e = true) w₀ es)
    (hrun : Run.exec (step c) w₀ es = some w) :
    RefreshExclusive w := by
  have hinit : Owned c w₀ := by
    refine ⟨?_, ?_, ?_⟩
    · intro i h hh
      rw [hidle i] at hh
      cases hh
    · intro i h hh
      rw [hidle i] at hh
      cases hh
    · intro i hi
      rw [hidle i] at hi
      cases hi
  have hinv : Owned c w :=
    Run.invariant_of_guarded (I := fun s => Owned c s)
      (fun _ _ _ hs hg hstep => hs.step hlocker hg hstep) hinit hguard hrun
  exact hinv.exclusive

/-- Redis stores with a session and a token set, and no lock taken. -/
def redisWorld : World redisStore Session.redisStore redisLocker :=
  idleWorld (T := redisStore) (S := Session.redisStore) (L := redisLocker)
    (RedisState.put Table.empty sampleNow "sid" storedSet sampleSession.expiresAt).1
    (Session.RedisState.put ⟨Table.empty, Session.RedisState.empty.filed⟩ sampleNow
      sampleSession).1
    Table.empty

/-- The lock key expires after the answer of the identity provider, and another
replica takes the lock. -/
theorem refresh_exclusive_late_expiry :
    ∃ w,
      Run.exec (step sampleSetting) redisWorld
          (refreshStarts 0 ++ refreshAnswered 0 ++
            [.tick (sampleNow + 10000000000), .expireLock] ++ refreshStarts 1) = some w ∧
        w.calls 1 = .inFlight (some 1) storedSet ∧
        RefreshExclusive w :=
  ⟨_, rfl, rfl,
    refresh_exclusive redisStore Session.redisStore sampleSetting rfl redisWorld _
      (refreshStarts 0 ++ refreshAnswered 0 ++
        [.tick (sampleNow + 10000000000), .expireLock] ++ refreshStarts 1)
      (fun _ => rfl) (by decide) rfl⟩

/-- The identity provider takes longer than the lock lives: two calls present the
same refresh token at the same time. -/
theorem refresh_overlaps_after_expiry :
    sampleSetting.manager.hasLocker = true ∧
      (∀ i, redisWorld.calls i = .idle) ∧
      ∃ w,
        Run.exec (step sampleSetting) redisWorld
            (refreshStarts 0 ++ [.tick (sampleNow + 10000000000), .expireLock] ++
              refreshStarts 1) = some w ∧
          ¬RefreshExclusive w := by
  refine ⟨rfl, fun _ => rfl, _, rfl, ?_⟩
  intro hexclusive
  have hbad := hexclusive 0 1 (some 0) (some 1) storedSet storedSet rfl rfl rfl
  cases hbad

end Runs

end Token
end GatewayRuntime
