import GatewayRuntime.AccessToken

/-!
# Concurrent refreshes collapse to one

Any number of `AccessToken` calls for one session behind the memory lock.

The first part is mutual exclusion (`Exclusive`): the channel of the key is made
once, a call behind the lock has taken its element, and so at most one call is
behind the lock.  Hence at most one `RefreshTokens` is in flight, whatever the
stores and the identity provider do.

The second part follows the stored set through a run without faults.  Until the
refresh starts every call is in front of it (`Phase.before`); while it runs every
other call waits (`Phase.during`); afterwards every call ends with the refreshed
access token (`Phase.after`).
-/

namespace GatewayRuntime
namespace Token

section Exclusion

variable {T : Store} {S : Session.Store} {c : Setting} {w w' : World T S memoryLocker}

/-- The state of the memory lock. -/
def World.locks (w : World T S memoryLocker) : MemoryLocks :=
  w.lock

/-- Calls wait for the channel of the key, and a call behind the lock has taken
the element of that channel; there is at most one. -/
structure Exclusive (c : Setting) (w : World T S memoryLocker) : Prop where
  awaited : ∀ i h, w.calls i = .awaitLock h → w.locks.locks.find c.key = some h
  held : ∀ i h, (w.calls i).holder = some h →
    w.locks.locks.find c.key = some h ∧ w.locks.filled h = false
  unique : ∀ i j h k, (w.calls i).holder = some h → (w.calls j).holder = some k → i = j
  behind : ∀ i, (w.calls i).inside = true → (w.calls i).holder ≠ none

/-- A call moves without taking the lock or giving it back. -/
theorem holder_of_move
    {i : Nat} {pc : Pc}
    (hcalls : w'.calls = Function.update w.calls i pc)
    (hholder : pc.holder = (w.calls i).holder) :
    ∀ j, (w'.calls j).holder = (w.calls j).holder :=
  Run.forall_update (P := fun j pc => pc.holder = (w.calls j).holder) hcalls hholder
    fun _ _ => rfl

/-- A call moves to a place behind the lock only if it was there. -/
theorem inside_of_move
    {i : Nat} {pc : Pc}
    (hcalls : w'.calls = Function.update w.calls i pc)
    (hinside : pc.inside = true → (w.calls i).inside = true) :
    ∀ j, (w'.calls j).inside = true → (w.calls j).inside = true :=
  Run.forall_update (P := fun j pc => pc.inside = true → (w.calls j).inside = true) hcalls hinside
    fun _ _ h => h

/-- A call moves to a place where it does not wait for the lock. -/
theorem Exclusive.awaited_of_move
    {i : Nat} {pc : Pc}
    (hinv : Exclusive c w)
    (hcalls : w'.calls = Function.update w.calls i pc)
    (hlocks : w'.locks.locks = w.locks.locks)
    (hawait : ∀ h, pc ≠ .awaitLock h) :
    ∀ j h, w'.calls j = .awaitLock h → w'.locks.locks.find c.key = some h := by
  rw [hlocks]
  refine Run.forall_update
    (P := fun _ pc => ∀ h, pc = .awaitLock h → w.locks.locks.find c.key = some h) hcalls ?_ ?_
  · intro h hpc
    exact absurd hpc (hawait h)
  · intro j _
    exact hinv.awaited j

/-- A step that changes neither the lock nor what a call holds. -/
theorem Exclusive.keep
    {i : Nat} {pc : Pc}
    (hinv : Exclusive c w)
    (hcalls : w'.calls = Function.update w.calls i pc)
    (hlock : w'.locks = w.locks)
    (hholder : pc.holder = (w.calls i).holder)
    (hawait : ∀ h, pc ≠ .awaitLock h)
    (hinside : pc.inside = true → (w.calls i).inside = true) :
    Exclusive c w' := by
  have hholders := holder_of_move hcalls hholder
  refine ⟨hinv.awaited_of_move hcalls (by rw [hlock]) hawait, ?_, ?_, ?_⟩
  · intro j h hj
    rw [hlock]
    rw [hholders j] at hj
    exact hinv.held j h hj
  · intro j k h h' hj hk
    rw [hholders j] at hj
    rw [hholders k] at hk
    exact hinv.unique j k h h' hj hk
  · intro j hj
    rw [hholders j]
    exact hinv.behind j (inside_of_move hcalls hinside j hj)

/-- While the channel of the key is not made, no call waits and none is behind
the lock. -/
theorem Exclusive.nobody_of_not_find
    (hinv : Exclusive c w) (hfind : w.locks.locks.find c.key = none) :
    (∀ i h, w.calls i ≠ .awaitLock h) ∧ ∀ i, (w.calls i).holder = none := by
  refine ⟨?_, ?_⟩
  · intro i h hi
    have hbad := hinv.awaited i h hi
    rw [hfind] at hbad
    cases hbad
  · intro i
    cases hi : (w.calls i).holder with
    | none =>
        rfl
    | some h =>
        have hbad := (hinv.held i h hi).1
        rw [hfind] at hbad
        cases hbad

/-- While the channel of the key holds its element, no call is behind the lock. -/
theorem Exclusive.nobody_of_filled
    {h : Nat}
    (hinv : Exclusive c w)
    (hfind : w.locks.locks.find c.key = some h)
    (hfilled : w.locks.filled h = true) :
    ∀ i, (w.calls i).holder = none := by
  intro i
  cases hi : (w.calls i).holder with
  | none =>
      rfl
  | some k =>
      obtain ⟨hk, hempty⟩ := hinv.held i k hi
      rw [hfind] at hk
      cases hk
      rw [hfilled] at hempty
      cases hempty

theorem acquire_memory
    {now : Int} {ttl : Duration} {key : String} {h : Nat} {lock lock' : MemoryLocks}
    (hacquire : memoryLocker.acquire lock now ttl key h = some lock') :
    lock.filled h = true ∧ lock' = lock.setFilled h false := by
  have hsome : (if lock.filled h then some (lock.setFilled h false) else none) = some lock' :=
    hacquire
  split_ifs at hsome with hfilled
  cases hsome
  exact ⟨hfilled, rfl⟩

theorem release_memory
    {key : String} {h : Nat} {lock lock' : MemoryLocks}
    (hrelease : memoryLocker.release lock key h = some lock') :
    lock' = lock.setFilled h true := by
  have hsome : (if lock.filled h then none else some (lock.setFilled h true)) = some lock' :=
    hrelease
  split_ifs at hsome
  cases hsome
  rfl

/-- The lock once call `i` has entered it. -/
theorem Exclusive.enter
    {i : Nat}
    (hinv : Exclusive c w)
    (hpc : w.calls i = .enterLock)
    (hcalls : w'.calls = Function.update w.calls i (.awaitLock (w.locks.enter c.key).2))
    (hlock : w'.locks = (w.locks.enter c.key).1) :
    Exclusive c w' := by
  have hholders := holder_of_move hcalls (by rw [hpc]; rfl)
  have hinside := inside_of_move hcalls (by nofun)
  have hunique : ∀ j k h h', (w'.calls j).holder = some h → (w'.calls k).holder = some h' →
      j = k := by
    intro j k h h' hj hk
    rw [hholders] at hj hk
    exact hinv.unique j k h h' hj hk
  have hbehind : ∀ j, (w'.calls j).inside = true → (w'.calls j).holder ≠ none := by
    intro j hj
    rw [hholders]
    exact hinv.behind j (hinside j hj)
  cases hfind : w.locks.locks.find c.key with
  | some h =>
      have henter := MemoryLocks.enter_of_find hfind
      rw [henter] at hlock hcalls
      refine ⟨?_, ?_, hunique, hbehind⟩
      · intro j k hj
        rw [hlock]
        rcases Run.update_cases hcalls j with ⟨rfl, hself⟩ | ⟨-, hother⟩
        · rw [hself] at hj
          cases hj
          exact hfind
        · rw [hother] at hj
          exact hinv.awaited j k hj
      · intro j k hj
        rw [hlock]
        rw [hholders] at hj
        exact hinv.held j k hj
  | none =>
      obtain ⟨hnoAwait, hnoHold⟩ := hinv.nobody_of_not_find hfind
      refine ⟨?_, ?_, hunique, hbehind⟩
      · intro j k hj
        rw [hlock]
        rcases Run.update_cases hcalls j with ⟨rfl, hself⟩ | ⟨-, hother⟩
        · rw [hself] at hj
          cases hj
          exact MemoryLocks.find_enter _ _
        · rw [hother] at hj
          exact absurd hj (hnoAwait j k)
      · intro j k hj
        rw [hholders, hnoHold j] at hj
        cases hj

/-- Call `i` takes the lock: it was free, so the call is the only one behind it. -/
theorem Exclusive.acquire
    {i h : Nat}
    (hinv : Exclusive c w)
    (hpc : w.calls i = .awaitLock h)
    (hfilled : w.locks.filled h = true)
    (hcalls : w'.calls = Function.update w.calls i (.reread (some h)))
    (hlock : w'.locks = w.locks.setFilled h false) :
    Exclusive c w' := by
  have hfind := hinv.awaited i h hpc
  have hnobody := hinv.nobody_of_filled hfind hfilled
  have honly : ∀ j k, (w'.calls j).holder = some k → j = i ∧ k = h := by
    intro j k hj
    rcases Run.update_cases hcalls j with ⟨rfl, hself⟩ | ⟨-, hother⟩
    · rw [hself] at hj
      cases hj
      exact ⟨rfl, rfl⟩
    · rw [hother, hnobody j] at hj
      cases hj
  have hlocks : w'.locks.locks = w.locks.locks := by
    rw [hlock]
    rfl
  refine ⟨hinv.awaited_of_move hcalls hlocks (by nofun), ?_, ?_, ?_⟩
  · intro j k hj
    obtain ⟨-, rfl⟩ := honly j k hj
    rw [hlocks]
    refine ⟨hfind, ?_⟩
    rw [hlock]
    simp [MemoryLocks.setFilled]
  · intro j k x y hj hk
    rw [(honly j x hj).1, (honly k y hk).1]
  · intro j hj
    rcases Run.update_cases hcalls j with ⟨rfl, hself⟩ | ⟨-, hother⟩
    · rw [hself]
      simp [Pc.holder]
    · rw [hother] at hj ⊢
      exact hinv.behind j hj

/-- Call `i` returns: nobody is behind the lock any more. -/
theorem Exclusive.release
    {i h : Nat} {result : Except Err String}
    (hinv : Exclusive c w)
    (hpc : w.calls i = .unlock h result)
    (hcalls : w'.calls = Function.update w.calls i (.done result))
    (hlocks : w'.locks.locks = w.locks.locks) :
    Exclusive c w' := by
  have hnobody : ∀ j, (w'.calls j).holder = none := by
    intro j
    rcases Run.update_cases hcalls j with ⟨rfl, hself⟩ | ⟨hji, hother⟩
    · rw [hself]
      rfl
    · rw [hother]
      cases hj : (w.calls j).holder with
      | none =>
          rfl
      | some k =>
          exact absurd (hinv.unique j i k h hj (by rw [hpc]; rfl)) hji
  refine ⟨hinv.awaited_of_move hcalls hlocks (by nofun), ?_, ?_, ?_⟩
  · intro j k hj
    rw [hnobody j] at hj
    cases hj
  · intro j k x y hj
    rw [hnobody j] at hj
    cases hj
  · intro j hj
    rcases Run.update_cases hcalls j with ⟨rfl, hself⟩ | ⟨-, hother⟩
    · rw [hself] at hj
      cases hj
    · have hbad := hnobody j
      rw [hother] at hj hbad
      exact absurd hbad (hinv.behind j hj)

/-- **Every step keeps mutual exclusion.** -/
theorem Exclusive.step
    {e : Event}
    (hlocker : c.manager.hasLocker = true)
    (hinv : Exclusive c w)
    (h : step c w e = some w') :
    Exclusive c w' := by
  cases e with
  | spawn i =>
      obtain ⟨hidle, rfl⟩ := spawn_success h
      obtain ⟨hholder, -, hinside, hawait⟩ := entry_outside c
      refine hinv.keep rfl rfl ?_ hawait ?_
      · rw [hholder, hidle]
        rfl
      · simp [hinside]
  | call i o =>
      obtain ⟨pc, hmoved⟩ := callStep_moved h
      have hcalls := hmoved.calls
      have heffect := hmoved.lock
      generalize hlock : w'.lock = lock at heffect
      cases heffect with
      | keep hholder hawait hinside =>
          exact hinv.keep hcalls hlock hholder hawait (hinside hlocker).2
      | enter hpc =>
          exact hinv.enter hpc hcalls hlock
      | acquire hpc hacquire =>
          obtain ⟨hfilled, hlock'⟩ := acquire_memory hacquire
          exact hinv.acquire hpc hfilled hcalls (hlock.trans hlock')
      | release hpc hrelease =>
          have hlock' : w'.locks = _ := hlock.trans (release_memory hrelease)
          exact hinv.release hpc hcalls (by rw [hlock']; rfl)
      | abandon hpc =>
          have hlock' : w'.locks = w.locks := hlock
          exact hinv.release hpc hcalls (by rw [hlock'])
  | logout o =>
      have hmoved := logoutStep_moved h
      have hlock : w'.locks = w.locks := hmoved.lock
      refine ⟨?_, ?_, ?_, ?_⟩
      · rw [hmoved.calls, hlock]
        exact hinv.awaited
      · rw [hmoved.calls, hlock]
        exact hinv.held
      · rw [hmoved.calls]
        exact hinv.unique
      · rw [hmoved.calls]
        exact hinv.behind
  | tick t =>
      obtain ⟨-, rfl⟩ := tick_success h
      exact ⟨hinv.awaited, hinv.held, hinv.unique, hinv.behind⟩
  | expireLock =>
      simp [Token.step, memoryLocker] at h

/-- At most one `RefreshTokens` call is in flight. -/
def AtMostOneInFlight {L : Locker} (w : World T S L) : Prop :=
  ∀ i j hi hj curi curj,
    w.calls i = .inFlight hi curi → w.calls j = .inFlight hj curj → i = j

theorem Exclusive.atMostOne (hinv : Exclusive c w) :
    AtMostOneInFlight w := by
  intro i j hi hj curi curj hpci hpcj
  obtain ⟨h, hholdi⟩ := Option.ne_none_iff_exists'.mp (hinv.behind i (by rw [hpci]; rfl))
  obtain ⟨k, hholdj⟩ := Option.ne_none_iff_exists'.mp (hinv.behind j (by rw [hpcj]; rfl))
  exact hinv.unique i j h k hholdi hholdj

theorem exclusive_of_idle (c : Setting) (hidle : ∀ i, w.calls i = .idle) :
    Exclusive c w := by
  refine ⟨?_, ?_, ?_, ?_⟩
  · intro i h hi
    rw [hidle i] at hi
    cases hi
  · intro i h hi
    rw [hidle i] at hi
    cases hi
  · intro i j h k hi
    rw [hidle i] at hi
    cases hi
  · intro i hi
    rw [hidle i] at hi
    cases hi

end Exclusion

section Refresh

/-- What the run is about: the events, its last moment, and the set stored at
its beginning. -/
structure Episode where
  events : List Event
  horizon : Int
  cur : TokenSet

variable {T : Store} {S : Session.Store} {c : Setting} {p : Episode}
  {w w' : World T S memoryLocker} {i : Nat} {o : Outcome}

/-- An answer with an access token that stays outside the refresh window. -/
def Episode.Good (p : Episode) (c : Setting) (a : TokenSet) : Prop :=
  a.accessToken ≠ "" ∧ GoTime.add p.horizon c.manager.before < GoTime.unix a.expiryUnix

/-- A good answer that the identity provider gave during the run. -/
def Episode.Answered (p : Episode) (c : Setting) (a : TokenSet) : Prop :=
  p.Good c a ∧ ∃ k, Event.call k (.answer (.ok a)) ∈ p.events

/-- No fault, no cancellation, no logout, and good answers only. -/
def Episode.Smooth (p : Episode) (c : Setting) : Event → Prop
  | .spawn _ => True
  | .call _ .ok => True
  | .call _ (.answer r) => ∃ a, r = .ok a ∧ p.Good c a
  | .tick _ => True
  | _ => False

/-- The session is live: whenever it is read up to the end of the run it is found,
reading leaves it live, and a token set written with its expiry is kept. -/
def Episode.Live (p : Episode) (c : Setting) (T : Store) (S : Session.Store) (s : S.State) :
    Prop :=
  ∃ P : S.State → Prop, P s ∧
    ∀ s t, P s → t ≤ p.horizon →
      ∃ v, (S.get s t c.sid).2 = .ok v ∧ P (S.get s t c.sid).1 ∧
        ∀ t', t ≤ t' → t' ≤ p.horizon → T.keeps t' v.expiresAt p.horizon

theorem Episode.Live.get
    {s : S.State} {t : Int} (hlive : p.Live c T S s) (htime : t ≤ p.horizon) :
    ∃ v, (S.get s t c.sid).2 = .ok v ∧ p.Live c T S (S.get s t c.sid).1 ∧
      ∀ t', t ≤ t' → t' ≤ p.horizon → T.keeps t' v.expiresAt p.horizon := by
  obtain ⟨P, hP, hstep⟩ := hlive
  obtain ⟨v, hv, hP', hkeeps⟩ := hstep s t hP htime
  exact ⟨v, hv, ⟨P, hP', hstep⟩, hkeeps⟩

/-- The settings and the stored set with which a refresh is due and possible. -/
structure Episode.Due (p : Episode) (c : Setting) (now : Int) : Prop where
  store : c.manager.hasStore = true
  sessions : c.manager.hasSessions = true
  refresher : c.manager.hasRefresher = true
  locker : c.manager.hasLocker = true
  access : p.cur.accessToken ≠ ""
  refresh : p.cur.refreshToken ≠ ""
  window : c.manager.needsRefresh now p.cur = true

/-- Places of a call before the refresh has started. -/
def Pc.Early (cur : TokenSet) : Pc → Prop
  | .idle => True
  | .start => True
  | .checkFirst x => x = cur
  | .enterLock => True
  | .awaitLock _ => True
  | .reread _ => True
  | .checkSecond _ x => x = cur
  | .refresh _ x => x = cur
  | _ => False

/-- Places of a call while another one refreshes. -/
def Pc.Waiting (cur : TokenSet) : Pc → Prop
  | .idle => True
  | .start => True
  | .checkFirst x => x = cur
  | .enterLock => True
  | .awaitLock _ => True
  | _ => False

/-- Places of the call that refreshes. -/
def Episode.Working (p : Episode) (c : Setting) (T : Store) (now : Int) : Pc → Prop
  | .inFlight _ x => x = p.cur
  | .checkAnswer _ x a => x = p.cur ∧ p.Answered c a
  | .expiry _ fresh => ∃ a, p.Answered c a ∧ fresh = merge p.cur a
  | .persist _ fresh expiresAt =>
      (∃ a, p.Answered c a ∧ fresh = merge p.cur a) ∧
        ∀ t, now ≤ t → t ≤ p.horizon → T.keeps t expiresAt p.horizon
  | _ => False

/-- Places of a call once the refreshed set `x` is stored. -/
def Pc.Late (cur x : TokenSet) : Pc → Prop
  | .idle => True
  | .start => True
  | .checkFirst y => y = cur ∨ y = x
  | .enterLock => True
  | .awaitLock _ => True
  | .reread _ => True
  | .checkSecond _ y => y = x
  | .unlock _ r => r = .ok x.accessToken
  | .done r => r = .ok x.accessToken
  | _ => False

/-- The three phases of a run. -/
inductive Phase (p : Episode) (c : Setting) (w : World T S memoryLocker) : Prop where
  | before
      (hlive : p.Live c T S w.sessions)
      (hvalue : T.value w.tokens p.horizon c.sid = some p.cur)
      (hcalls : ∀ i, (w.calls i).Early p.cur)
      (hpresented : w.presented = [])
  | during (k : Nat)
      (hlive : p.Live c T S w.sessions)
      (hvalue : T.value w.tokens p.horizon c.sid = some p.cur)
      (hcalls : ∀ i, i ≠ k → (w.calls i).Waiting p.cur)
      (hworking : p.Working c T w.now (w.calls k))
      (hpresented : w.presented.length = 1)
  | after (a : TokenSet)
      (hanswered : p.Answered c a)
      (hlive : p.Live c T S w.sessions)
      (hvalue : T.value w.tokens p.horizon c.sid = some (merge p.cur a))
      (hcalls : ∀ i, (w.calls i).Late p.cur (merge p.cur a))
      (hpresented : w.presented.length = 1)

/-- What a call reads while a value is stored to the end of the run. -/
theorem read_value
    {x : TokenSet} (htime : w.now ≤ p.horizon)
    (hvalue : T.value w.tokens p.horizon c.sid = some x) :
    (T.get w.tokens w.now c.sid).2 = .ok x ∧
      T.value (T.get w.tokens w.now c.sid).1 p.horizon c.sid = some x := by
  refine ⟨?_, ?_⟩
  · rw [T.get_result, T.value_earlier htime hvalue]
    rfl
  · rw [T.value_get htime]
    exact hvalue

/-- The test on the set first read, while a refresh is due. -/
theorem afterFirstCheck_due
    (hdue : p.Due c w.now) :
    afterFirstCheck c.manager w.now p.cur = .enterLock := by
  simp [afterFirstCheck, hdue.access, hdue.window, hdue.refresh, hdue.refresher, hdue.locker]

theorem afterSecondCheck_due
    (h : Option Nat) (hdue : p.Due c w.now) :
    afterSecondCheck c.manager w.now h p.cur = .refresh h p.cur := by
  simp [afterSecondCheck, hdue.window, hdue.refresh]

/-- A set that expires after the window of the last moment needs no refresh. -/
theorem needsRefresh_of_good
    {now : Int} {a : TokenSet} (htime : now ≤ p.horizon) (hgood : p.Good c a) :
    c.manager.needsRefresh now (merge p.cur a) = false := by
  have hlater := hgood.2
  have hlt : GoTime.add now c.manager.before < GoTime.unix a.expiryUnix := by
    unfold GoTime.add at hlater ⊢
    omega
  simp [Manager.needsRefresh, merge, GoTime.after, hlt]

/-- The test on a good answer. -/
theorem afterAnswerCheck_good
    {now : Int} {a : TokenSet} (h : Option Nat) (htime : now ≤ p.horizon)
    (hbefore : 0 ≤ c.manager.before.toInt) (hgood : p.Good c a) :
    afterAnswerCheck now h p.cur a = .expiry h (merge p.cur a) := by
  have hlater := hgood.2
  have hlt : now < GoTime.unix a.expiryUnix := by
    unfold GoTime.add at hlater
    omega
  have hseconds := GoTime.unixSeconds_lt_of_lt_unix hlt
  have hnot : ¬(a.accessToken = "" ∨ a.expiryUnix.toInt ≤ GoTime.unixSeconds now) := by
    rintro (hempty | hle)
    · exact hgood.1 hempty
    · omega
  simp only [afterAnswerCheck, hnot, if_false]

/-- The refresh window has a positive width. -/
theorem before_nonneg (m : Manager) : 0 ≤ m.before.toInt := by
  unfold Manager.before
  split_ifs with hle
  · decide
  · have hpos := Int64.lt_iff_toInt_lt.mp (Int64.not_le.mp hle)
    have hzero : (0 : Int64).toInt = 0 := by decide
    omega

theorem goto_all
    {P : Pc → Prop} {pc : Pc}
    (hcalls : ∀ j, P (w.calls j)) (hpc : P pc) :
    ∀ j, P ((w.goto i pc).calls j) := by
  intro j
  by_cases hj : j = i
  · subst hj
    rwa [goto_calls_self]
  · rw [goto_calls_of_ne w pc hj]
    exact hcalls j

theorem goto_others
    {P : Pc → Prop} {k : Nat} {pc : Pc}
    (hcalls : ∀ j, j ≠ k → P (w.calls j)) (hpc : P pc) :
    ∀ j, j ≠ k → P ((w.goto i pc).calls j) := by
  intro j hjk
  by_cases hj : j = i
  · subst hj
    rwa [goto_calls_self]
  · rw [goto_calls_of_ne w pc hj]
    exact hcalls j hjk

/-- Two calls behind the lock are the same. -/
theorem Exclusive.inside_unique
    {j : Nat} (hinv : Exclusive c w)
    (hi : (w.calls i).inside = true) (hj : (w.calls j).inside = true) :
    i = j := by
  obtain ⟨h, hh⟩ := Option.ne_none_iff_exists'.mp (hinv.behind i hi)
  obtain ⟨k, hk⟩ := Option.ne_none_iff_exists'.mp (hinv.behind j hj)
  exact hinv.unique i j h k hh hk

/-- An early call in front of the lock is waiting. -/
theorem waiting_of_early
    {cur : TokenSet} {pc : Pc}
    (hearly : pc.Early cur) (houtside : pc.inside = false) :
    pc.Waiting cur := by
  cases pc <;> first | exact hearly | cases houtside

/-- **Before the refresh**: a step of a call stays in the first phase, or starts
the refresh. -/
theorem before_call
    (hexclusive : Exclusive c w) (hdue : p.Due c w.now) (htime : w.now ≤ p.horizon)
    (hlive : p.Live c T S w.sessions)
    (hvalue : T.value w.tokens p.horizon c.sid = some p.cur)
    (hcalls : ∀ j, (w.calls j).Early p.cur)
    (hpresented : w.presented = [])
    (hsmooth : p.Smooth c (.call i o))
    (h : callStep c w i o = some w') :
    Phase p c w' := by
  obtain ⟨hread, hkept⟩ := read_value htime hvalue
  have heffect := callStep_effect h
  have hi := hcalls i
  clear h
  generalize hpc : w.calls i = pc at heffect hi
  cases heffect with
  | firstGet =>
      refine .before hlive hkept (goto_all hcalls ?_) hpresented
      rw [hread]
      rfl
  | @firstCheck x =>
      obtain rfl : x = p.cur := hi
      refine .before hlive hvalue (goto_all hcalls ?_) hpresented
      rw [afterFirstCheck_due hdue]
      trivial
  | enter | acquire =>
      exact .before hlive hvalue (goto_all hcalls trivial) hpresented
  | reread =>
      refine .before hlive hkept (goto_all hcalls ?_) hpresented
      rw [hread]
      rfl
  | @secondCheck k x =>
      obtain rfl : x = p.cur := hi
      refine .before hlive hvalue (goto_all hcalls ?_) hpresented
      rw [afterSecondCheck_due k hdue]
      rfl
  | @refresh k x =>
      obtain rfl : x = p.cur := hi
      refine .during i hlive hvalue ?_ ?_ ?_
      · intro j hj
        rw [goto_calls_of_ne _ _ hj]
        apply waiting_of_early (hcalls j)
        by_contra hinside
        exact hj (hexclusive.inside_unique (Bool.of_not_eq_false hinside) (by rw [hpc]; rfl))
      · rw [goto_calls_self]
        rfl
      · simp [hpresented]
  | firstGetFault | enterFault | acquireFault | rereadFault =>
      cases hsmooth
  | answer | answerCheck | expiry | expiryFault | noSessions | persist | persistFault
  | dropTokens | dropTokensFault | dropSession | dropSessionFault | release | abandon =>
      cases hi

/-- The refreshing call is behind the lock. -/
theorem inside_of_working
    {now : Int} {pc : Pc} (h : p.Working c T now pc) :
    pc.inside = true := by
  cases pc <;> first | rfl | cases h

theorem late_of_waiting
    {cur x : TokenSet} {pc : Pc} (h : pc.Waiting cur) :
    pc.Late cur x := by
  cases pc <;> first | exact h | exact Or.inl h | cases h

theorem late_leave
    {cur x : TokenSet} (k : Option Nat) :
    (leave k (.ok x.accessToken)).Late cur x := by
  cases k <;> rfl

/-- **During the refresh**, the refreshing call: it goes on with a good answer,
and stores it. -/
theorem during_self
    (hdue : p.Due c w.now) (htime : w.now ≤ p.horizon)
    (hlive : p.Live c T S w.sessions)
    (hvalue : T.value w.tokens p.horizon c.sid = some p.cur)
    (hcalls : ∀ j, j ≠ i → (w.calls j).Waiting p.cur)
    (hworking : p.Working c T w.now (w.calls i))
    (hpresented : w.presented.length = 1)
    (hmem : Event.call i o ∈ p.events)
    (hsmooth : p.Smooth c (.call i o))
    (h : callStep c w i o = some w') :
    Phase p c w' := by
  have heffect := callStep_effect h
  clear h
  generalize hpc : w.calls i = pc at heffect hworking
  cases heffect with
  | @answer k x r =>
      obtain ⟨a, rfl, hgood⟩ := hsmooth
      obtain rfl : x = p.cur := hworking
      refine .during i hlive hvalue (fun j hj => ?_) ?_ hpresented
      · rw [goto_calls_of_ne _ _ hj]
        exact hcalls j hj
      · rw [goto_calls_self]
        exact ⟨rfl, hgood, i, hmem⟩
  | @answerCheck k x a =>
      obtain ⟨rfl, hanswered⟩ := hworking
      refine .during i hlive hvalue (fun j hj => ?_) ?_ hpresented
      · rw [goto_calls_of_ne _ _ hj]
        exact hcalls j hj
      · rw [goto_calls_self, afterAnswerCheck_good k htime (before_nonneg _) hanswered.1]
        exact ⟨a, hanswered, rfl⟩
  | expiry =>
      obtain ⟨v, hv, hlive', hkeeps⟩ := hlive.get htime
      refine .during i hlive' hvalue (fun j hj => ?_) ?_ hpresented
      · rw [goto_calls_of_ne _ _ hj]
        exact hcalls j hj
      · rw [goto_calls_self, hv]
        exact ⟨hworking, hkeeps⟩
  | noSessions hsessions =>
      rw [hdue.sessions] at hsessions
      cases hsessions
  | @persist k fresh expiresAt =>
      obtain ⟨⟨a, hanswered, rfl⟩, hkeeps⟩ := hworking
      obtain ⟨hput, hstored⟩ :=
        T.put_ok (s := w.tokens) (x := merge p.cur a) (hkeeps w.now (le_refl _) htime)
      refine .after a hanswered hlive hstored (fun j => ?_) hpresented
      by_cases hj : j = i
      · subst hj
        rw [goto_calls_self, hput]
        exact late_leave k
      · rw [goto_calls_of_ne _ _ hj]
        exact late_of_waiting (hcalls j hj)
  | expiryFault | persistFault =>
      cases hsmooth
  | firstGet | firstGetFault | firstCheck | enter | enterFault | acquire | acquireFault | reread
  | rereadFault | secondCheck | refresh | dropTokens | dropTokensFault | dropSession
  | dropSessionFault | release | abandon =>
      cases hworking

/-- **During the refresh**, another call: it keeps waiting, since the lock is
taken. -/
theorem during_other
    {k : Nat}
    (hexclusive : Exclusive c w') (hdue : p.Due c w.now) (htime : w.now ≤ p.horizon)
    (hlive : p.Live c T S w.sessions)
    (hvalue : T.value w.tokens p.horizon c.sid = some p.cur)
    (hcalls : ∀ j, j ≠ k → (w.calls j).Waiting p.cur)
    (hworking : p.Working c T w.now (w.calls k))
    (hpresented : w.presented.length = 1)
    (hik : i ≠ k)
    (hsmooth : p.Smooth c (.call i o))
    (h : callStep c w i o = some w') :
    Phase p c w' := by
  obtain ⟨hread, hkept⟩ := read_value htime hvalue
  have heffect := callStep_effect h
  have hi := hcalls i hik
  clear h
  generalize w.calls i = pc at heffect hi
  -- the refreshing call stays where it is
  have hstays : ∀ (v : World T S memoryLocker) (pc' : Pc), v.calls = w.calls →
      p.Working c T w.now ((v.goto i pc').calls k) := by
    intro v pc' hv
    rw [goto_calls_of_ne _ _ (Ne.symm hik), hv]
    exact hworking
  cases heffect with
  | firstGet =>
      refine .during k hlive hkept (goto_others hcalls ?_) (hstays _ _ rfl) hpresented
      rw [hread]
      rfl
  | @firstCheck x =>
      obtain rfl : x = p.cur := hi
      refine .during k hlive hvalue (goto_others hcalls ?_) (hstays _ _ rfl) hpresented
      rw [afterFirstCheck_due hdue]
      trivial
  | enter =>
      exact .during k hlive hvalue (goto_others hcalls trivial) (hstays _ _ rfl) hpresented
  | acquire =>
      exfalso
      refine hik (hexclusive.inside_unique ?_ (inside_of_working (hstays _ _ rfl)))
      rw [goto_calls_self]
      rfl
  | firstGetFault | enterFault | acquireFault =>
      cases hsmooth
  | reread | rereadFault | secondCheck | refresh | answer | answerCheck | expiry | expiryFault
  | noSessions | persist | persistFault | dropTokens | dropTokensFault | dropSession
  | dropSessionFault | release | abandon =>
      cases hi

/-- **After the refresh** every call comes to the refreshed access token. -/
theorem after_call
    {a : TokenSet}
    (hdue : p.Due c w.now) (htime : w.now ≤ p.horizon)
    (hanswered : p.Answered c a)
    (hlive : p.Live c T S w.sessions)
    (hvalue : T.value w.tokens p.horizon c.sid = some (merge p.cur a))
    (hcalls : ∀ j, (w.calls j).Late p.cur (merge p.cur a))
    (hpresented : w.presented.length = 1)
    (hsmooth : p.Smooth c (.call i o))
    (h : callStep c w i o = some w') :
    Phase p c w' := by
  obtain ⟨hread, hkept⟩ := read_value htime hvalue
  have hi := hcalls i
  have hfresh : c.manager.needsRefresh w.now (merge p.cur a) = false :=
    needsRefresh_of_good htime hanswered.1
  have heffect := callStep_effect h
  clear h
  generalize w.calls i = pc at heffect hi
  cases heffect with
  | firstGet =>
      refine .after a hanswered hlive hkept (goto_all hcalls ?_) hpresented
      rw [hread]
      exact Or.inr rfl
  | firstCheck =>
      refine .after a hanswered hlive hvalue (goto_all hcalls ?_) hpresented
      rcases hi with rfl | rfl
      · rw [afterFirstCheck_due hdue]
        trivial
      · have haccess : (merge p.cur a).accessToken ≠ "" := hanswered.1.1
        simp only [afterFirstCheck, haccess, hfresh, if_false, if_true]
        rfl
  | enter | acquire =>
      exact .after a hanswered hlive hvalue (goto_all hcalls trivial) hpresented
  | reread =>
      refine .after a hanswered hlive hkept (goto_all hcalls ?_) hpresented
      rw [hread]
      rfl
  | @secondCheck k x =>
      obtain rfl : x = merge p.cur a := hi
      refine .after a hanswered hlive hvalue (goto_all hcalls ?_) hpresented
      simp only [afterSecondCheck, hfresh, if_true]
      exact late_leave k
  | release =>
      exact .after a hanswered hlive hvalue (goto_all hcalls hi) hpresented
  | firstGetFault | enterFault | acquireFault | rereadFault | abandon =>
      cases hsmooth
  | refresh | answer | answerCheck | expiry | expiryFault | noSessions | persist | persistFault
  | dropTokens | dropTokensFault | dropSession | dropSessionFault =>
      cases hi

theorem Episode.Working.later
    {now now' : Int} {pc : Pc} (hle : now ≤ now') (h : p.Working c T now pc) :
    p.Working c T now' pc := by
  cases pc with
  | persist k fresh expiresAt =>
      exact ⟨h.1, fun t ht => h.2 t (le_trans hle ht)⟩
  | idle | start | checkFirst x | enterLock | awaitLock k | reread k | checkSecond k x
  | refresh k x | inFlight k x | checkAnswer k x a | expiry k fresh | dropTokens k err
  | dropSession k err | unlock k result | done result =>
      exact h

/-- A refresh that is due stays due. -/
theorem Episode.Due.later
    {now now' : Int} (hle : now ≤ now') (h : p.Due c now) :
    p.Due c now' := by
  have hwindow := h.window
  refine ⟨h.store, h.sessions, h.refresher, h.locker, h.access, h.refresh, ?_⟩
  unfold Manager.needsRefresh at hwindow ⊢
  split_ifs at hwindow ⊢ with hexpiry
  simp only [Bool.not_eq_true', GoTime.after_eq_false_iff, GoTime.add] at hwindow ⊢
  omega

/-- **One event** keeps the run in its phases. -/
theorem Phase.step
    {e : Event}
    (hexclusive : Exclusive c w) (hdue : p.Due c w.now) (htime : w.now ≤ p.horizon)
    (hphase : Phase p c w)
    (hmem : e ∈ p.events)
    (hsmooth : p.Smooth c e)
    (h : step c w e = some w') :
    Phase p c w' := by
  cases e with
  | spawn i =>
      obtain ⟨hidle, rfl⟩ := spawn_success h
      have hentry : entry c = .start := by
        simp [entry, hdue.store]
      rw [hentry]
      cases hphase with
      | before hlive hvalue hcalls hpresented =>
          exact .before hlive hvalue (goto_all hcalls trivial) hpresented
      | during k hlive hvalue hcalls hworking hpresented =>
          have hki : k ≠ i := by
            rintro rfl
            rw [hidle] at hworking
            cases hworking
          refine .during k hlive hvalue (goto_others hcalls trivial) ?_ hpresented
          rw [goto_calls_of_ne _ _ hki]
          exact hworking
      | after a hanswered hlive hvalue hcalls hpresented =>
          exact .after a hanswered hlive hvalue (goto_all hcalls trivial) hpresented
  | call i o =>
      have hexclusive' : Exclusive c w' := hexclusive.step hdue.locker h
      cases hphase with
      | before hlive hvalue hcalls hpresented =>
          exact before_call hexclusive hdue htime hlive hvalue hcalls hpresented hsmooth h
      | during k hlive hvalue hcalls hworking hpresented =>
          by_cases hik : i = k
          · subst hik
            exact during_self hdue htime hlive hvalue hcalls hworking hpresented hmem hsmooth h
          · exact during_other hexclusive' hdue htime hlive hvalue hcalls hworking hpresented
              hik hsmooth h
      | after a hanswered hlive hvalue hcalls hpresented =>
          exact after_call hdue htime hanswered hlive hvalue hcalls hpresented hsmooth h
  | tick t =>
      obtain ⟨hle, rfl⟩ := tick_success h
      cases hphase with
      | before hlive hvalue hcalls hpresented =>
          exact .before hlive hvalue hcalls hpresented
      | during k hlive hvalue hcalls hworking hpresented =>
          exact .during k hlive hvalue hcalls (hworking.later hle) hpresented
      | after a hanswered hlive hvalue hcalls hpresented =>
          exact .after a hanswered hlive hvalue hcalls hpresented
  | logout o | expireLock =>
      cases hsmooth

/-- **Every run** without faults stays in its phases. -/
theorem Phase.run
    {es : List Event}
    (hexclusive : Exclusive c w) (hdue : p.Due c w.now)
    (hphase : Phase p c w)
    (hmem : ∀ e ∈ es, e ∈ p.events)
    (hsmooth : ∀ e ∈ es, p.Smooth c e)
    (hrun : Run.exec (Token.step c) w es = some w')
    (htime : w'.now ≤ p.horizon) :
    Phase p c w' := by
  induction es generalizing w with
  | nil =>
      cases hrun
      exact hphase
  | cons e es ih =>
      have hnow := now_le_of_run hrun
      obtain ⟨w₁, hstep, hrest⟩ := Run.exec_cons_success hrun
      have hphase₁ : Phase p c w₁ :=
        hphase.step hexclusive hdue (le_trans hnow htime) (hmem e (by simp))
          (hsmooth e (by simp)) hstep
      exact ih (hexclusive.step hdue.locker hstep) (hdue.later (now_le_of_step hstep)) hphase₁
        (fun e he => hmem e (by simp [he])) (fun e he => hsmooth e (by simp [he])) hrest

/-- A finished run with at least one call is past its refresh. -/
theorem Phase.finished
    (hphase : Phase p c w) (hfinished : Finished w) (hsome : ∃ i, w.calls i ≠ .idle) :
    w.presented.length = 1 ∧
      ∃ k a, Event.call k (.answer (.ok a)) ∈ p.events ∧
        ∀ i, w.calls i ≠ .idle → w.calls i = .done (.ok a.accessToken) := by
  have hreturned : ∀ i, w.calls i ≠ .idle → ∃ r, w.calls i = .done r := by
    intro i hi
    exact (hfinished i).resolve_left hi
  cases hphase with
  | before hlive hvalue hcalls hpresented =>
      exfalso
      obtain ⟨i, hi⟩ := hsome
      obtain ⟨r, hr⟩ := hreturned i hi
      have hbad := hcalls i
      rw [hr] at hbad
      cases hbad
  | during k hlive hvalue hcalls hworking hpresented =>
      exfalso
      rcases hfinished k with hk | ⟨r, hk⟩
      · rw [hk] at hworking
        cases hworking
      · rw [hk] at hworking
        cases hworking
  | after a hanswered hlive hvalue hcalls hpresented =>
      obtain ⟨-, k, hk⟩ := hanswered
      refine ⟨hpresented, k, a, hk, ?_⟩
      intro i hi
      obtain ⟨r, hr⟩ := hreturned i hi
      have hlate := hcalls i
      rw [hr] at hlate ⊢
      obtain rfl : r = .ok (merge p.cur a).accessToken := hlate
      rfl

/-- **Concurrent refreshes collapse to one.**  Behind the memory lock at most one
`RefreshTokens` is in flight at any moment; and in a run without faults that
starts inside the refresh window and in which the session stays live, exactly one
is made, and every call returns the refreshed access token. -/
theorem refresh_single_flight
    (T : Store) (S : Session.Store) (c : Setting) (hlocker : c.manager.hasLocker = true)
    (w₀ : World T S memoryLocker) (hidle : ∀ i, w₀.calls i = .idle) :
    (∀ es w, Run.exec (step c) w₀ es = some w → AtMostOneInFlight w) ∧
      ∀ (p : Episode) w,
        Run.exec (step c) w₀ p.events = some w →
        w.now = p.horizon →
        p.Due c w₀.now →
        T.value w₀.tokens p.horizon c.sid = some p.cur →
        p.Live c T S w₀.sessions →
        (∀ e ∈ p.events, p.Smooth c e) →
        w₀.presented = [] →
        Finished w →
        (∃ i, w.calls i ≠ .idle) →
        w.presented.length = 1 ∧
          ∃ k a, Event.call k (.answer (.ok a)) ∈ p.events ∧
            ∀ i, w.calls i ≠ .idle → w.calls i = .done (.ok a.accessToken) := by
  have hexclusive : Exclusive c w₀ := exclusive_of_idle c hidle
  refine ⟨?_, ?_⟩
  · intro es w hrun
    have hinv : Exclusive c w :=
      Run.exec_invariant (I := fun s => Exclusive c s)
        (fun _ _ _ hs hstep => hs.step hlocker hstep) hexclusive hrun
    exact hinv.atMostOne
  · intro p w hrun hnow hdue hvalue hlive hsmooth hpresented hfinished hsome
    have hearly : ∀ i, (w₀.calls i).Early p.cur := by
      intro i
      rw [hidle i]
      trivial
    have hphase : Phase p c w :=
      Phase.run hexclusive hdue (.before hlive hvalue hearly hpresented) (fun _ he => he)
        hsmooth hrun (le_of_eq hnow)
    exact hphase.finished hfinished hsome

/-- Two overlapping calls: the second one waits for the lock while the first
refreshes, and the refresh takes a second. -/
def overlappingCalls : Episode where
  events :=
    [.spawn 0, .spawn 1, .call 0 .ok, .call 1 .ok, .call 0 .ok, .call 1 .ok, .call 0 .ok,
      .call 1 .ok, .call 0 .ok, .call 0 .ok, .call 0 .ok, .call 0 .ok,
      .tick (sampleNow + 1000000000)] ++ refreshAnswered 0 ++ refreshEnds 0 ++
      [.call 1 .ok, .call 1 .ok, .call 1 .ok, .call 1 .ok]
  horizon := sampleNow + 1000000000
  cur := storedSet

theorem overlappingCalls_due :
    overlappingCalls.Due sampleSetting sampleNow := by
  refine ⟨rfl, rfl, rfl, rfl, ?_, ?_, ?_⟩ <;> decide

theorem overlappingCalls_live :
    overlappingCalls.Live sampleSetting memoryStore Session.memoryStore memoryWorld.sessions := by
  refine ⟨fun s => s = memoryWorld.sessions, rfl, ?_⟩
  rintro s t rfl htime
  have hlater : overlappingCalls.horizon < sampleSession.expiresAt := by decide
  have hread : Session.MemoryState.get memoryWorld.sessions t "sid" =
      (memoryWorld.sessions, .ok sampleSession) := by
    have hfind : (Session.MemoryState.data memoryWorld.sessions).find "sid" =
        some sampleSession := rfl
    have hlive : Session.MemoryState.expired sampleSession t = false := by
      have hafter : t < sampleSession.expiresAt := by omega
      simp [Session.MemoryState.expired, hafter]
    unfold Session.MemoryState.get
    rw [hfind]
    exact if_neg (by simp [hlive])
  refine ⟨sampleSession, ?_, ?_, ?_⟩
  · exact congrArg Prod.snd hread
  · exact congrArg Prod.fst hread
  · intro t' _ _
    exact Or.inr hlater

theorem overlappingCalls_smooth :
    ∀ e ∈ overlappingCalls.events, overlappingCalls.Smooth sampleSetting e := by
  have hgood : overlappingCalls.Good sampleSetting answeredSet := by
    refine ⟨?_, ?_⟩ <;> decide
  intro e he
  simp only [overlappingCalls, refreshAnswered, refreshEnds, List.cons_append, List.nil_append,
    List.mem_cons, List.not_mem_nil, or_false] at he
  rcases he with rfl | rfl | rfl | rfl | rfl | rfl | rfl | rfl | rfl | rfl | rfl | rfl | rfl | rfl
    | rfl | rfl | rfl | rfl | rfl | rfl | rfl | rfl <;> first | trivial | exact ⟨_, rfl, hgood⟩

/-- Both calls return the token of the one refresh. -/
theorem refresh_single_flight_overlapping :
    ∃ w,
      Run.exec (step sampleSetting) memoryWorld overlappingCalls.events = some w ∧
        w.calls 0 = .done (.ok "access-1") ∧
        w.calls 1 = .done (.ok "access-1") ∧
        w.presented.length = 1 ∧
        AtMostOneInFlight w := by
  obtain ⟨w, hrun, hzero, hone, hnow⟩ :
      ∃ w,
        Run.exec (step sampleSetting) memoryWorld overlappingCalls.events = some w ∧
          w.calls 0 = .done (.ok "access-1") ∧
          w.calls 1 = .done (.ok "access-1") ∧
          w.now = overlappingCalls.horizon :=
    ⟨_, rfl, rfl, rfl, rfl⟩
  have hfinished : Finished w := by
    apply finished_of_run (fun _ => rfl) hrun
    intro i hi
    have hcases : i = 0 ∨ i = 1 := by
      simpa [overlappingCalls, refreshAnswered, refreshEnds] using hi
    rcases hcases with rfl | rfl
    · exact ⟨_, hzero⟩
    · exact ⟨_, hone⟩
  have hsome : ∃ i, w.calls i ≠ .idle := by
    refine ⟨0, ?_⟩
    rw [hzero]
    simp
  obtain ⟨hexclusion, honce⟩ :=
    refresh_single_flight memoryStore Session.memoryStore sampleSetting rfl memoryWorld
      (fun _ => rfl)
  obtain ⟨hpresented, -⟩ :=
    honce overlappingCalls w hrun hnow overlappingCalls_due rfl overlappingCalls_live
      overlappingCalls_smooth rfl hfinished hsome
  exact ⟨w, hrun, hzero, hone, hpresented, hexclusion _ _ hrun⟩

end Refresh

end Token
end GatewayRuntime
